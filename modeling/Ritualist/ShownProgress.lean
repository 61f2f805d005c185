import Ritualist.EnabledTime
import Ritualist.Progress

/-!
# What progress shows over time

Who watches snapshots expects progress to grow until the activity runs, and to start
over with the run. Between two disturbances, that is as long as an activity is neither
inserted anew nor dispatched nor acknowledged, its target and its creation stay. Towards
a span progress grows with what is accumulated, whatever the clock does, and a claim
takes it back to nothing, where it stays while the run lasts. Towards a date it grows
with the wall clock, and the run does not touch it.
-/

namespace Ritualist

universe u
variable {T : Type u}

namespace Activity

/-- More accumulated towards the same span is more progress. -/
theorem progress_span_le (before after : Activity T) (reading reading' : Reading)
    (span : Duration) (target : before.activationTarget = .duration span)
    (sameTarget : after.activationTarget = .duration span) (nonzero : span ≠ 0)
    (counted : before.durationDelta ≤ after.durationDelta) :
    ∃ first second, before.calculateProgressPct reading = .value first ∧
      after.calculateProgressPct reading' = .value second ∧ first ≤ second := by
  have divides : span.asSecs ≠ 0 := mt (as_secs_zero_iff span).mp nonzero
  have positive := as_secs_pos span divides
  simp only [calculateProgressPct, target, sameTarget]
  rw [ExactFloat.div_of_ne _ _ divides, ExactFloat.scale_value, ExactFloat.scale_value]
  refine ExactFloat.clamp_value_le _ _ _ _ (by norm_num) ?_
  exact mul_le_mul_of_nonneg_left
    ((as_secs_le_iff before.durationDelta after.durationDelta).mpr counted)
    (div_nonneg (by norm_num) positive.le)

/-- Nothing accumulated towards a span is no progress. -/
theorem progress_span_zero (activity : Activity T) (reading : Reading) (span : Duration)
    (target : activity.activationTarget = .duration span) (nonzero : span ≠ 0)
    (restarted : activity.durationDelta = 0) :
    activity.calculateProgressPct reading = .value 0 := by
  have divides : span.asSecs ≠ 0 := mt (as_secs_zero_iff span).mp nonzero
  simp only [calculateProgressPct, target, restarted]
  rw [ExactFloat.div_of_ne _ _ divides, (as_secs_zero_iff 0).mpr rfl, ExactFloat.scale_value,
    mul_zero]
  exact ExactFloat.clamp_value_low _ _ _ le_rfl (by norm_num)

/-- From the creation on, a later wall time shows no less progress towards the same
date. -/
theorem progress_date_le (before after : Activity T) (reading reading' : Reading) (date : DateTime)
    (target : before.activationTarget = .date date)
    (sameTarget : after.activationTarget = .date date)
    (created : after.createdAt = before.createdAt)
    (nonzero : numMilliseconds (date - before.createdAt) ≠ 0)
    (started : before.createdAt ≤ reading.nowUtc) (inOrder : reading.nowUtc ≤ reading'.nowUtc) :
    ∃ first second, before.calculateProgressPct reading = .value first ∧
      after.calculateProgressPct reading' = .value second ∧ first ≤ second := by
  have divides : (numMilliseconds (date - before.createdAt) : ℚ) ≠ 0 := Int.cast_ne_zero.mpr nonzero
  have elapsed : 0 ≤ numMilliseconds (reading.nowUtc - before.createdAt) :=
    num_milliseconds_le 0 _ (Int.sub_nonneg_of_le started)
  have later : numMilliseconds (reading.nowUtc - before.createdAt) ≤
      numMilliseconds (reading'.nowUtc - before.createdAt) :=
    num_milliseconds_le _ _ (Int.sub_le_sub_right inOrder _)
  simp only [calculateProgressPct, target, sameTarget, created]
  rw [ExactFloat.div_of_ne _ _ divides, ExactFloat.div_of_ne _ _ divides, ExactFloat.scale_value,
    ExactFloat.scale_value]
  rcases lt_or_gt_of_ne nonzero with behind | ahead
  · -- A date before the creation turns the quotients round; they are never positive.
    have none : ∀ passed : Int, 0 ≤ passed →
        (passed : ℚ) / numMilliseconds (date - before.createdAt) * 100 ≤ 0 := fun passed since =>
      mul_nonpos_of_nonpos_of_nonneg
        (div_nonpos_of_nonneg_of_nonpos (Int.cast_nonneg since) (Int.cast_nonpos.mpr behind.le))
        (by norm_num)
    exact ⟨0, 0, ExactFloat.clamp_value_low _ _ _ (none _ elapsed) (by norm_num),
      ExactFloat.clamp_value_low _ _ _ (none _ (elapsed.trans later)) (by norm_num), le_rfl⟩
  · refine ExactFloat.clamp_value_le _ _ _ _ (by norm_num) ?_
    exact mul_le_mul_of_nonneg_right
      (div_le_div_of_nonneg_right (Int.cast_le.mpr later) (Int.cast_pos.mpr ahead).le)
      (by norm_num)

end Activity

namespace SchedulerActor

/-- A later stage of an activity, which waits for the same and has accumulated no less. -/
structure Grown (earlier later : Activity T) : Prop where
  target : later.activationTarget = earlier.activationTarget
  created : later.createdAt = earlier.createdAt
  counted : earlier.durationDelta ≤ later.durationDelta

/-- A later stage of an activity that waited for the same, and that a claim has started
in between. -/
structure Started (earlier later : Activity T) : Prop where
  target : later.activationTarget = earlier.activationTarget
  created : later.createdAt = earlier.createdAt
  running : later.state.stripped = .running
  restarted : later.durationDelta = 0

theorem Grown.trans {first second third : Activity T} (early : Grown first second)
    (late : Grown second third) : Grown first third :=
  ⟨late.target.trans early.target, late.created.trans early.created,
    early.counted.trans late.counted⟩

/-- A claim starts what has grown. -/
theorem Grown.started {earlier before : Activity T} (grown : Grown earlier before)
    {reading : Reading} (due : before.shouldRun reading = true) :
    Started earlier (before.claimIfDue reading).1 := by
  rw [Activity.claim_eq, if_pos due]
  exact ⟨grown.target, grown.created, rfl, rfl⟩

variable [DecidableEq T] {id : T} {actor : SchedulerActor T} {input : Input T}
  {earlier before after : Activity T}

section Undisturbed

variable (undisturbed : Undisturbed id actor input)
  (move : (actor.eventAt id input.command).Moves (input.readings id) before after)
include undisturbed move

/-- What does not report an undisturbed activity lets it grow. -/
theorem Undisturbed.grown
    (unclaimed : input.command = .claimDue → ¬ before.shouldRun (input.readings id) = true) :
    Grown before after := by
  rcases undisturbed.moves move with
    ⟨_, _, rfl⟩ | ⟨claims, rfl⟩ | ⟨enabled, _, rfl⟩ | ⟨_, rfl⟩
  · rw [Activity.tick_eq]
    refine ⟨rfl, rfl, ?_⟩
    change before.durationDelta ≤ if before.state.isScheduled = true then _ else _
    split
    · exact Nat.le_add_right _ _
    · exact le_rfl
  · rw [Activity.claim_eq, if_neg (unclaimed claims)]
    exact ⟨rfl, rfl, le_rfl⟩
  · rw [Activity.set_enabled_eq]
    exact ⟨rfl, rfl, le_rfl⟩
  · exact ⟨rfl, rfl, le_rfl⟩

/-- An undisturbed run leaves its activity with nothing accumulated. -/
theorem Undisturbed.started (started : Started earlier before) : Started earlier after := by
  obtain ⟨target, created, running, restarted⟩ := started
  have waits := ActivityState.in_flight_not_scheduled before.state running
  have notDue : ¬ before.shouldRun (input.readings id) = true := fun due => by
    rw [((before.should_run_iff _).mp due).1] at waits
    cases waits
  rcases undisturbed.moves move with
    ⟨_, survives, rfl⟩ | ⟨_, rfl⟩ | ⟨enabled, _, rfl⟩ | ⟨_, rfl⟩
  · have sameState := before.tick_state_of_survives _ survives
    refine ⟨(before.tick_target _).trans target, ?_, by rw [sameState]; exact running, ?_⟩
    · rw [Activity.tick_eq]
      exact created
    · rw [Activity.tick_eq]
      simpa [waits] using restarted
  · rw [Activity.claim_eq, if_neg notDue]
    exact ⟨target, created, running, restarted⟩
  · have bare : before.state.stripped.isDisabled = false := by rw [running]; rfl
    refine ⟨?_, ?_, (before.set_enabled_stripped enabled bare).trans running, ?_⟩
    · rw [Activity.set_enabled_eq]
      exact target
    · rw [Activity.set_enabled_eq]
      exact created
    · rw [Activity.set_enabled_eq]
      exact restarted
  · exact ⟨target, created, running, restarted⟩

end Undisturbed

/-- As long as no claim reports it, an undisturbed activity grows. -/
theorem grown_run {history later : List (Input T)}
    (present : (empty.run history).activities.lookup id = some earlier)
    (undisturbed : Runs.Along step (Undisturbed id) (empty.run history) later)
    (unclaimed : Unclaimed id (empty.run history) later) :
    ((empty.run history).run later).EntrySatisfies id (Grown earlier) := by
  have kept : ∀ (actor : SchedulerActor T) (input : Input T),
      actor.Keyed ∧ actor.EntrySatisfies id (Grown earlier) →
        Undisturbed id actor input ∧ id ∉ actor.claimed input →
          (actor.step input).Keyed ∧ (actor.step input).EntrySatisfies id (Grown earlier) := by
    intro actor input ⟨keyed, grown⟩ ⟨undisturbed, unreported⟩
    refine ⟨keyed_step input keyed, entry_step ?_ ?_ grown⟩
    · intro spec inserted
      exact absurd ⟨spec, inserted⟩ undisturbed.2.1
    · intro before after held move early
      exact early.trans (undisturbed.grown move fun claims =>
        unclaimed_not_due keyed input held claims unreported)
  have starts : (empty.run history).EntrySatisfies id (Grown earlier) :=
    (entry_satisfies_iff present).mpr ⟨rfl, rfl, le_rfl⟩
  exact (Runs.invariant_after kept ⟨keyed_run history, starts⟩ (undisturbed.and unclaimed)).2

/-- From its report on, an undisturbed activity has nothing accumulated. -/
theorem started_run {history later : List (Input T)}
    (present : (empty.run history).activities.lookup id = some earlier)
    (undisturbed : Runs.Along step (Undisturbed id) (empty.run history) later)
    (claimed : ¬ Unclaimed id (empty.run history) later) :
    ((empty.run history).run later).EntrySatisfies id (Started earlier) := by
  induction later using List.reverseRecOn with
  | nil => exact absurd trivial claimed
  | append_singleton front input inductionHypothesis =>
    obtain ⟨undisturbedFront, undisturbedHere, _⟩ := (Runs.along_append _ _ _).mp undisturbed
    have keyed : ((empty.run history).run front).Keyed := keyed_after (keyed_run history) front
    rw [run_append, run_cons, run_nil]
    by_cases unclaimed : Unclaimed id (empty.run history) front
    · -- The last input is the report.
      have reported : id ∈ ((empty.run history).run front).claimed input := by
        by_contra unreported
        exact claimed ((Runs.along_append _ _ _).mpr ⟨unclaimed, unreported, trivial⟩)
      obtain ⟨claims, waiting, held, due⟩ := (mem_claimed_iff keyed input).mp reported
      have grown := grown_run present undisturbedFront unclaimed waiting held
      intro after found
      rw [lookup_step, held, (event_claim_due_iff _ _ _).mpr claims] at found
      obtain rfl : (waiting.claimIfDue (input.readings id)).1 = after := Option.some.inj found
      exact grown.started due
    · exact entry_step (fun spec inserted => absurd ⟨spec, inserted⟩ undisturbedHere.2.1)
        (fun before after _ move started => undisturbedHere.started move started)
        (inductionHypothesis undisturbedFront unclaimed)

/-- Progress never falls until the run. Look at an activity whose progress is not
divided by zero, and look again after any commands that neither insert it anew nor
dispatch nor acknowledge it; if it waits for a date, the wall clock has not gone back
meanwhile, nor behind its creation. Towards a date it shows no less progress then.
Towards a span it shows no less as long as no claim has reported it, and none at all
from the report on. -/
theorem progress_never_falls (id : T) (history later : List (Input T))
    (before after : Activity T) (reading reading' : Reading)
    (present : (empty.run history).activities.lookup id = some before)
    (undisturbed : Runs.Along step (Undisturbed id) (empty.run history) later)
    (remains : (empty.run (history ++ later)).activities.lookup id = some after)
    (divides : before.progressDivisor ≠ 0)
    (inOrder : ∀ date, before.activationTarget = .date date →
      before.createdAt ≤ reading.nowUtc ∧ reading.nowUtc ≤ reading'.nowUtc) :
    ∃ first second, before.calculateProgressPct reading = .value first ∧
      after.calculateProgressPct reading' = .value second ∧
        match before.activationTarget with
        | .date _ => first ≤ second
        | .duration _ =>
          (Unclaimed id (empty.run history) later → first ≤ second) ∧
            (¬ Unclaimed id (empty.run history) later → second = 0) := by
  rw [run_append] at remains
  have grows := fun unclaimed => grown_run present undisturbed unclaimed after remains
  have starts := fun claimed => started_run present undisturbed claimed after remains
  cases target : before.activationTarget with
  | date date =>
    have same : after.activationTarget = before.activationTarget ∧
        after.createdAt = before.createdAt := by
      by_cases unclaimed : Unclaimed id (empty.run history) later
      · exact ⟨(grows unclaimed).target, (grows unclaimed).created⟩
      · exact ⟨(starts unclaimed).target, (starts unclaimed).created⟩
    have nonzero : numMilliseconds (date - before.createdAt) ≠ 0 := by
      simpa [Activity.progressDivisor, target] using divides
    obtain ⟨created, inTime⟩ := inOrder date target
    exact before.progress_date_le after reading reading' date target (same.1.trans target) same.2
      nonzero created inTime
  | duration span =>
    have nonzero := (before.span_divides_iff span target).mp divides
    by_cases unclaimed : Unclaimed id (empty.run history) later
    · have grown := grows unclaimed
      obtain ⟨first, second, shown, shown', growing⟩ := before.progress_span_le after reading
        reading' span target (grown.target.trans target) nonzero grown.counted
      exact ⟨first, second, shown, shown', fun _ => growing, fun claimed => absurd unclaimed claimed⟩
    · have started := starts unclaimed
      obtain ⟨first, shown, _⟩ := before.progress_percentage reading divides
      have none := after.progress_span_zero reading' span (started.target.trans target) nonzero
        started.restarted
      exact ⟨first, 0, shown, none, fun never => absurd never unclaimed, fun _ => rfl⟩

/-- An interval of 10, ticked at 6. -/
def halfway : List (Input Nat) :=
  [⟨.register ⟨1, .fixedInterval 10⟩, fun _ => .least 0 0⟩, ⟨.tick, fun _ => .least 6 0⟩]

/-- It is ticked again at 12, and claimed then. -/
def overdue : List (Input Nat) :=
  [⟨.tick, fun _ => .least 12 0⟩, ⟨.claimDue, fun _ => .least 12 0⟩]

/-- Its progress is 60 at first, and none after the claim. -/
theorem halfway_shown :
    ∃ before after : Activity Nat, (empty.run halfway).activities.lookup 1 = some before ∧
      (empty.run (halfway ++ overdue)).activities.lookup 1 = some after ∧
      before.calculateProgressPct (.least 7 0) = .value 60 ∧
      after.calculateProgressPct (.least 13 0) = .value 0 := by
  have claimed : ¬ Unclaimed 1 (empty.run halfway) overdue := by decide
  obtain ⟨_, second, _, shown, _, restarts⟩ := progress_never_falls 1 halfway overdue _ _
    (.least 7 0) (.least 13 0) rfl (by decide) rfl (by decide +kernel)
    (fun _ dated => by cases dated)
  rw [restarts claimed] at shown
  exact ⟨_, _, rfl, rfl, by decide +kernel, shown⟩

end SchedulerActor

end Ritualist
