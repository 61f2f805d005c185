import Mathlib.Algebra.Order.Field.Rat
import Mathlib.Data.Int.CharZero
import Ritualist.Library.ExactFloat
import Ritualist.Entries

/-!
# How close an activity is to firing

Progress is a percentage: of the target span that is accumulated, or of the time
from the creation to the target date that has passed. The formula and the test for
firing are separate code over the same target. They agree where the target is
ahead of where progress starts. They do not where a date lies before the creation,
as it does for a one-shot registered for a date in the past: such an activity fires
at once and shows no progress, `full_progress_iff`.

Nor does the formula look at its divisor. A zero is written by a dispatch of an
activity that waits for a span, by a snooze for no time, by an interval of no time
and by a date within a millisecond of the creation; `progress_divides_iff` says
that nothing else writes one. Zero over zero is not a number, and clamping lets
that pass.

The arithmetic is exact, with the infinities of floating-point quotients.
-/

namespace Ritualist

universe u
variable {T : Type u}

/-- A span in seconds, `Duration::as_secs_f64`. -/
def Duration.asSecs (span : Duration) : ℚ := span / 1000000000

/-- The whole milliseconds of a signed span, rounded towards zero. -/
def numMilliseconds (span : Int) : Int := span.tdiv 1000000

namespace Activity

/-- The percentage of the way to the target, between 0 and 100. -/
def calculateProgressPct (activity : Activity T) (reading : Reading) : ExactFloat ℚ :=
  let progress := match activity.activationTarget with
    | .duration durationTarget =>
      (ExactFloat.div 100 durationTarget.asSecs).scale activity.durationDelta.asSecs
    | .date targetDate =>
      let total := targetDate - activity.createdAt
      let elapsed := reading.nowUtc - activity.createdAt
      (ExactFloat.div (numMilliseconds elapsed : ℚ) (numMilliseconds total)).scale 100
  progress.clamp 0 100

/-- What progress is divided by: the target span in seconds, or the whole
milliseconds from the creation to the target date. -/
def progressDivisor (activity : Activity T) : ℚ :=
  match activity.activationTarget with
  | .duration durationTarget => durationTarget.asSecs
  | .date targetDate => numMilliseconds (targetDate - activity.createdAt)

end Activity

/-- Seconds keep the order of spans. -/
theorem as_secs_le_iff (first second : Duration) :
    first.asSecs ≤ second.asSecs ↔ first ≤ second := by
  unfold Duration.asSecs
  rw [div_le_div_iff_of_pos_right (by norm_num)]
  exact Nat.cast_le

/-- Only no time is no seconds. -/
theorem as_secs_zero_iff (span : Duration) : span.asSecs = 0 ↔ span = 0 := by
  simp [Duration.asSecs]

/-- Time is a positive number of seconds. -/
theorem as_secs_pos (span : Duration) (nonzero : span.asSecs ≠ 0) : 0 < span.asSecs := by
  have nonnegative : 0 ≤ span.asSecs := by
    rw [← (as_secs_zero_iff 0).mpr rfl, as_secs_le_iff]
    exact Nat.zero_le span
  exact lt_of_le_of_ne nonnegative nonzero.symm

/-- Whole milliseconds keep the order of signed spans. -/
theorem num_milliseconds_le (first second : Int) (ordered : first ≤ second) :
    numMilliseconds first ≤ numMilliseconds second :=
  Int.tdiv_le_tdiv (by decide) ordered

/-- A signed span has no whole millisecond exactly if it is shorter than one. -/
theorem num_milliseconds_zero_iff (span : Int) :
    numMilliseconds span = 0 ↔ span.natAbs < 1000000 := by
  rw [← Int.natAbs_eq_zero, numMilliseconds, Int.natAbs_tdiv]
  exact Nat.div_eq_zero_iff_lt (by decide)

namespace Activity

variable (activity : Activity T) (reading : Reading)

/-- Where the divisor is not zero, progress is a percentage. -/
theorem progress_percentage (nonzero : activity.progressDivisor ≠ 0) :
    ∃ percentage, activity.calculateProgressPct reading = .value percentage ∧
      0 ≤ percentage ∧ percentage ≤ 100 := by
  cases target : activity.activationTarget with
  | duration span =>
    have divides : span.asSecs ≠ 0 := by simpa [progressDivisor, target] using nonzero
    simp only [calculateProgressPct, target, ExactFloat.div_of_ne _ _ divides,
      ExactFloat.scale_value]
    exact ExactFloat.clamp_value_within _ _ _ (by norm_num)
  | date moment =>
    have divides : (numMilliseconds (moment - activity.createdAt) : ℚ) ≠ 0 := by
      simpa [progressDivisor, target] using nonzero
    simp only [calculateProgressPct, target, ExactFloat.div_of_ne _ _ divides,
      ExactFloat.scale_value]
    exact ExactFloat.clamp_value_within _ _ _ (by norm_num)

/-- Progress is not a number exactly when zero is divided by zero: where the target
is no time and none is accumulated, or where neither the target date nor the present
is a millisecond away from the creation. -/
theorem progress_nan_iff :
    activity.calculateProgressPct reading = .nan ↔
      activity.progressDivisor = 0 ∧ match activity.activationTarget with
        | .duration _ => activity.durationDelta = 0
        | .date _ => numMilliseconds (reading.nowUtc - activity.createdAt) = 0 := by
  cases target : activity.activationTarget with
  | duration span =>
    simp only [calculateProgressPct, progressDivisor, target, ExactFloat.clamp_nan_iff]
    by_cases zero : span.asSecs = 0
    · rw [zero, ExactFloat.div_zero_pos 100 (by norm_num)]
      change ExactFloat.infinity activity.durationDelta.asSecs = .nan ↔ _
      rw [ExactFloat.infinity_nan_iff, as_secs_zero_iff]
      simp
    · simp [ExactFloat.div_of_ne _ _ zero, zero]
  | date moment =>
    simp only [calculateProgressPct, progressDivisor, target, ExactFloat.clamp_nan_iff]
    rw [ExactFloat.scale_nan_iff _ _ (by norm_num), ExactFloat.div_nan_iff]
    simp

/-- Progress towards a span is full exactly when the span is accumulated. -/
theorem progress_span_full_iff (span : Duration)
    (target : activity.activationTarget = .duration span) (nonzero : span.asSecs ≠ 0) :
    activity.calculateProgressPct reading = .value 100 ↔ span ≤ activity.durationDelta := by
  have positive := as_secs_pos span nonzero
  simp only [calculateProgressPct, target]
  rw [ExactFloat.div_of_ne _ _ nonzero, ExactFloat.scale_value,
    ExactFloat.clamp_value_high_iff _ _ _ (by norm_num), div_mul_eq_mul_div,
    le_div_iff₀ positive, mul_le_mul_iff_right₀ (by norm_num)]
  exact as_secs_le_iff span activity.durationDelta

/-- Progress towards a date is full exactly when the present is at the date or past
it, seen from the creation. -/
theorem progress_date_full_iff (date : DateTime) (target : activity.activationTarget = .date date)
    (nonzero : (numMilliseconds (date - activity.createdAt) : ℚ) ≠ 0) :
    activity.calculateProgressPct reading = .value 100 ↔
      0 < numMilliseconds (date - activity.createdAt) ∧
          numMilliseconds (date - activity.createdAt) ≤
            numMilliseconds (reading.nowUtc - activity.createdAt) ∨
        numMilliseconds (date - activity.createdAt) < 0 ∧
          numMilliseconds (reading.nowUtc - activity.createdAt) ≤
            numMilliseconds (date - activity.createdAt) := by
  simp only [calculateProgressPct, target]
  rw [ExactFloat.div_of_ne _ _ nonzero, ExactFloat.scale_value,
    ExactFloat.clamp_value_high_iff _ _ _ (by norm_num),
    le_mul_iff_one_le_left (by norm_num), one_le_div_iff]
  norm_cast

/-- Where the target is reached and there is a divisor, progress is full. -/
def ShowsFull : Prop :=
  activity.progressDivisor ≠ 0 → activity.isAtTarget reading = true →
    activity.calculateProgressPct reading = .value 100

/-- A due activity shows full progress exactly if it waits for a span, or for a date
that is no whole millisecond before the creation, or is not past the date by one.

Towards a span both the test and the formula compare what is accumulated with it.
Towards a date the formula compares from the creation on, and a date before that
turns its comparison round. -/
theorem full_progress_iff :
    activity.ShowsFull reading ↔ ∀ date, activity.activationTarget = .date date →
      numMilliseconds (date - activity.createdAt) < 0 →
        numMilliseconds (reading.nowUtc - activity.createdAt) ≤
          numMilliseconds (date - activity.createdAt) := by
  cases target : activity.activationTarget with
  | duration span =>
    constructor
    · intro _ date dated
      cases dated
    · intro _ nonzero reached
      have divides : span.asSecs ≠ 0 := by simpa [progressDivisor, target] using nonzero
      have accumulated : span ≤ activity.durationDelta := by
        simpa [isAtTarget, target] using reached
      exact (activity.progress_span_full_iff reading span target divides).mpr accumulated
  | date moment =>
    have fullIff := activity.progress_date_full_iff reading moment target
    have later : moment ≤ reading.nowUtc → numMilliseconds (moment - activity.createdAt) ≤
        numMilliseconds (reading.nowUtc - activity.createdAt) :=
      fun come => num_milliseconds_le _ _ (Int.sub_le_sub_right come _)
    constructor
    · intro full date dated before
      obtain rfl := ActivationTarget.date.inj dated
      by_contra past
      have divides : (numMilliseconds (moment - activity.createdAt) : ℚ) ≠ 0 :=
        Int.cast_ne_zero.mpr before.ne
      have come : moment ≤ reading.nowUtc := by
        by_contra ahead
        exact past (num_milliseconds_le _ _
          (Int.sub_le_sub_right (Int.le_of_lt (Int.not_le.mp ahead)) _))
      have shown := full (by simpa [progressDivisor, target] using divides)
        (by simpa [isAtTarget, target] using come)
      rcases (fullIff divides).mp shown with ⟨after, _⟩ | ⟨_, notPast⟩
      · exact absurd after before.le.not_gt
      · exact past notPast
    · intro notPast nonzero reached
      have divides : (numMilliseconds (moment - activity.createdAt) : ℚ) ≠ 0 := by
        simpa [progressDivisor, target] using nonzero
      have come : moment ≤ reading.nowUtc := by simpa [isAtTarget, target] using reached
      apply (fullIff divides).mpr
      rcases lt_or_gt_of_ne (Int.cast_ne_zero.mp divides) with before | after
      · exact Or.inr ⟨before, notPast moment rfl before⟩
      · exact Or.inl ⟨after, later come⟩

/-- A reminder for 40 s, registered at 100 s, is claimed at once and shows no
progress at all. -/
theorem past_reminder_shows_none :
    ∃ reminder : Activity Nat,
      (SchedulerActor.empty.run [⟨.register ⟨1, .scheduled 40000000000⟩,
        fun _ => .least 0 100000000000⟩]).activities.lookup 1 = some reminder ∧
      reminder.shouldRun (.least 0 100000000000) = true ∧
      reminder.calculateProgressPct (.least 0 100000000000) = .value 0 ∧
      ¬ reminder.ShowsFull (.least 0 100000000000) := by
  refine ⟨_, rfl, by decide, by decide +kernel, ?_⟩
  intro full
  have shown := full (by decide +kernel) (by decide)
  exact absurd shown (by decide +kernel)

end Activity

/-! ### What writes a divisor -/

/-- A schedule yields a target with a divisor: an interval of some time, drawn or
not, or a date that is a millisecond or more from the creation. -/
def ActivitySchedule.YieldsDivisor (schedule : ActivitySchedule) (reading : Reading) : Prop :=
  match schedule with
  | .fixedInterval duration => duration ≠ 0
  | .randomInterval min max => reading.rng.randomRange min max ≠ 0
  | .scheduled date => 1000000 ≤ (date - reading.nowUtc).natAbs

/-- What an event writes at an entry, if it writes a target, has a divisor. A dispatch
keeps one only for a date, and only a millisecond or more from the creation. -/
def Event.WritesDivisor (event : Event T) (reading : Reading) (entry : Option (Activity T)) :
    Prop :=
  match event with
  | .insert spec => spec.schedule.YieldsDivisor reading
  | .setImmediate => ∀ activity, entry = some activity →
      (∃ date, activity.activationTarget = .date date) ∧
        1000000 ≤ (reading.nowUtc - activity.createdAt).natAbs
  | .finish (.snooze duration) => ∀ activity, entry = some activity → duration ≠ 0
  | .finish .done => ∀ activity, entry = some activity →
      activity.spec.schedule.isOneShot = false → activity.spec.schedule.YieldsDivisor reading
  | _ => True

namespace Activity

/-- Progress towards a date has a divisor if the date is a millisecond or more from
the creation. -/
theorem date_divides_iff (activity : Activity T) (date : DateTime)
    (target : activity.activationTarget = .date date) :
    activity.progressDivisor ≠ 0 ↔ 1000000 ≤ (date - activity.createdAt).natAbs := by
  simp only [progressDivisor, target]
  rw [Int.cast_ne_zero, ne_eq, num_milliseconds_zero_iff]
  exact Nat.not_lt

/-- Progress towards a span has a divisor if the span is some time. -/
theorem span_divides_iff (activity : Activity T) (span : Duration)
    (target : activity.activationTarget = .duration span) :
    activity.progressDivisor ≠ 0 ↔ span ≠ 0 := by
  simp only [progressDivisor, target]
  exact not_congr (as_secs_zero_iff span)

/-- An activity with the target of a schedule has a divisor if the schedule yields
one at the activity's creation, or has no date. -/
theorem schedule_divides_iff (activity : Activity T) (schedule : ActivitySchedule)
    (reading : Reading)
    (target : activity.activationTarget = .fromSchedule reading.rng schedule)
    (created : schedule.isOneShot = true → activity.createdAt = reading.nowUtc) :
    activity.progressDivisor ≠ 0 ↔ schedule.YieldsDivisor reading := by
  cases schedule with
  | fixedInterval duration => exact activity.span_divides_iff duration target
  | randomInterval least bound =>
    exact activity.span_divides_iff (reading.rng.randomRange least bound) target
  | scheduled date =>
    rw [activity.date_divides_iff date target, created rfl]
    rfl

/-- The divisor depends on the target and the creation only. -/
theorem divisor_congr (first second : Activity T)
    (target : first.activationTarget = second.activationTarget)
    (created : first.createdAt = second.createdAt) :
    first.progressDivisor = second.progressDivisor := by
  rw [progressDivisor, progressDivisor, target, created]

end Activity

/-- An event that writes no target keeps the divisor of an entry. -/
theorem advance_keeps_divisor (event : Event T) (reading : Reading) (entry : Option (Activity T))
    (kept : ¬ ∃ spec, event = .insert spec) (undispatched : event ≠ .setImmediate)
    (unfinished : ∀ ack, event ≠ .finish ack)
    (divides : ∀ activity, entry = some activity → activity.progressDivisor ≠ 0)
    (after : Activity T) (present : event.advance reading entry = some after) :
    after.progressDivisor ≠ 0 := by
  rcases Event.advance_some event reading entry after present with ⟨spec, inserted, _⟩ |
    ⟨before, held, move⟩
  · exact absurd ⟨spec, inserted⟩ kept
  · rw [Activity.divisor_congr after before (move.target_eq undispatched unfinished)
      move.created_eq.2]
    exact divides before held

/-- A dispatched activity has a divisor exactly if it waits for a date and is
dispatched a millisecond or more from its creation. -/
theorem dispatched_divides_iff (activity : Activity T) (reading : Reading) :
    (activity.setImmediate reading).progressDivisor ≠ 0 ↔
      (∃ date, activity.activationTarget = .date date) ∧
        1000000 ≤ (reading.nowUtc - activity.createdAt).natAbs := by
  have targeted := activity.set_immediate_eq reading
  cases target : activity.activationTarget with
  | duration span =>
    rw [Activity.span_divides_iff _ 0 (by simp [targeted, target])]
    simp
  | date moment =>
    rw [Activity.date_divides_iff _ reading.nowUtc (by simp [targeted, target])]
    simp [targeted]

/-- After an event an entry that had a divisor has one exactly if what the event
writes does. -/
theorem advance_divides_iff (event : Event T) (reading : Reading) (entry : Option (Activity T))
    (divides : ∀ activity, entry = some activity → activity.progressDivisor ≠ 0) :
    (∀ after, event.advance reading entry = some after → after.progressDivisor ≠ 0) ↔
      event.WritesDivisor reading entry := by
  cases event with
  | insert spec =>
    have fresh := (Activity.new spec reading).schedule_divides_iff spec.schedule reading rfl
      (fun _ => rfl)
    simpa [Event.advance, Event.WritesDivisor] using fresh
  | setImmediate =>
    cases entry with
    | none => simp [Event.advance, Event.WritesDivisor]
    | some activity =>
      simpa [Event.advance, Event.WritesDivisor] using dispatched_divides_iff activity reading
  | finish ack =>
    cases entry with
    | none => cases ack <;> simp [Event.advance, Event.WritesDivisor]
    | some activity =>
      cases ack with
      | snooze span =>
        have snoozed := (activity.finish (.snooze span) reading).span_divides_iff span
          (by rw [Activity.finish_snooze])
        simpa [Event.advance, Event.WritesDivisor, Activity.finish_snooze] using snoozed
      | done =>
        by_cases oneShot : activity.spec.schedule.isOneShot = true
        · simp [Event.advance, Event.WritesDivisor, Activity.finish_done, oneShot]
        · have restarted := (activity.finish .done reading).schedule_divides_iff
            activity.spec.schedule reading (by rw [Activity.finish_done, if_neg oneShot])
            (fun shot => absurd shot oneShot)
          simpa [Event.advance, Event.WritesDivisor, Activity.finish_done, oneShot] using restarted
  | tick | setEnabled | claimDue | skip =>
    exact iff_of_true (advance_keeps_divisor _ reading entry (by simp) (by simp) (by simp) divides)
      trivial

variable [DecidableEq T]

namespace SchedulerActor

/-- Every activity that a snapshot returns has a divisor. -/
def SnapshotsDivide (actor : SchedulerActor T) : Prop :=
  ∀ readings snapshot, (actor.send .snapshot readings).2 = some (.activities snapshot) →
    ∀ activity ∈ snapshot, activity.progressDivisor ≠ 0

/-- A snapshot returns the entries of the map. -/
theorem snapshots_divide_iff (actor : SchedulerActor T) :
    actor.SnapshotsDivide ↔
      ∀ id, actor.EntrySatisfies id fun activity => activity.progressDivisor ≠ 0 := by
  constructor
  · intro divides id activity present
    apply divides (fun _ => .least 0 0) _ rfl activity
    exact List.mem_map.mpr ⟨⟨id, activity⟩, AList.mem_lookup_iff.mp present, rfl⟩
  · rintro divides readings snapshot replied activity member
    obtain rfl : actor.activities.entries.map (fun entry => entry.2) = snapshot := by
      simpa [send] using replied
    obtain ⟨⟨id, held⟩, entry, rfl⟩ := List.mem_map.mp member
    exact divides id held (AList.mem_lookup_iff.mpr entry)

/-- Everything that a command writes, at any id, has a divisor. -/
def WritesDivisors (actor : SchedulerActor T) (input : Input T) : Prop :=
  ∀ id, (actor.eventAt id input.command).WritesDivisor (input.readings id)
    (actor.activities.lookup id)

/-- A command keeps every snapshot divisible exactly if all it writes has a divisor. -/
theorem step_divides_iff (actor : SchedulerActor T) (input : Input T)
    (divides : actor.SnapshotsDivide) :
    (actor.step input).SnapshotsDivide ↔ actor.WritesDivisors input := by
  rw [snapshots_divide_iff] at divides ⊢
  refine forall_congr' fun id => ?_
  rw [← advance_divides_iff _ _ _ (divides id), ← lookup_step]
  rfl

/-- Progress can be computed for every activity of every snapshot, at every state
of a run, exactly if every command of the run writes divisors only; and where there
is a divisor, progress is a percentage at every reading of the clock. -/
theorem progress_divides_iff (inputs : List (Input T)) :
    ((∀ before after, inputs = before ++ after → (empty.run before).SnapshotsDivide) ↔
        Runs.Along step WritesDivisors empty inputs) ∧
      ∀ (activity : Activity T) (reading : Reading), activity.progressDivisor ≠ 0 →
        ∃ percentage, activity.calculateProgressPct reading = .value percentage ∧
          0 ≤ percentage ∧ percentage ≤ 100 := by
  refine ⟨?_, fun activity reading => activity.progress_percentage reading⟩
  have starts : (empty : SchedulerActor T).SnapshotsDivide :=
    (snapshots_divide_iff empty).mpr fun id => empty_satisfies id _
  have unrestricted : Runs.Along step (fun (_ : SchedulerActor T) _ => True) empty inputs :=
    Runs.along_of_forall empty fun _ _ _ => trivial
  have exact := @Runs.stays_good_iff _ _ step (fun _ _ => True) WritesDivisors (fun _ => True)
    SnapshotsDivide (fun _ _ _ _ => trivial)
    (fun actor input _ _ divides => step_divides_iff actor input divides) _ _ trivial starts
    unrestricted
  rw [← exact, Runs.along_after_iff starts]
  rfl

/-- An interval that is dispatched before its first tick divides nothing by nothing. -/
theorem dispatched_interval_no_number :
    ¬ (empty.run [⟨.register ⟨1, .fixedInterval 60000000000⟩, fun _ => .least 0 0⟩,
        ⟨.setImmediate 1, fun _ => .least 0 0⟩] : SchedulerActor Nat).SnapshotsDivide ∧
      ∃ dispatched : Activity Nat,
        (empty.run [⟨.register ⟨1, .fixedInterval 60000000000⟩, fun _ => .least 0 0⟩,
          ⟨.setImmediate 1, fun _ => .least 0 0⟩]).activities.lookup 1 = some dispatched ∧
        dispatched.progressDivisor = 0 ∧
        dispatched.calculateProgressPct (.least 5 5) = .nan := by
  refine ⟨?_, _, rfl, by decide +kernel, by decide +kernel⟩
  rw [snapshots_divide_iff]
  intro divides
  exact divides 1 _ rfl (by decide +kernel)

end SchedulerActor

end Ritualist
