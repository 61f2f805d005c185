import Ritualist.Collection
import Ritualist.Timing

/-!
# The life of a one-shot

A one-shot waits for its date, is claimed, and is then either completed and
removed or snoozed and waited for again. Whatever else happens to it, only a
snooze gives it another run: `one_shot_fires_once`. Its date holds until a
dispatch or an acknowledgement replaces the target, whichever way the wall clock
jumps, since the date is compared with the reading of the claim itself.

A one-shot that is disabled when its date comes should not be emitted. Nothing
but a tick notices the date: one that finds the activity disabled removes it.
Without such a tick the activity is emitted as soon as it is enabled again, so
that `missed_omitted_iff` asks for a tick between the date and the enabling.
-/

namespace Ritualist

universe u
variable {T : Type u} [DecidableEq T]

namespace SchedulerActor

/-! ### How often -/

/-- A command snoozes a run of the id. -/
def snoozes (id : T) (input : Input T) : Bool :=
  match input.command with
  | .finish target (.snooze _) => decide (target = id)
  | _ => false

/-- The number of replies in a run that report the id. -/
def reports (id : T) (actor : SchedulerActor T) (inputs : List (Input T)) : Nat :=
  Runs.tally step (fun reached input => decide (id ∈ reached.claimed input)) actor inputs

/-- The input does not insert the id anew. -/
def LeavesEntry (id : T) (actor : SchedulerActor T) (input : Input T) : Prop :=
  ¬ actor.inserts id input

instance leavesEntryDecidable (id : T) (actor : SchedulerActor T) (input : Input T) :
    Decidable (LeavesEntry id actor input) :=
  inferInstanceAs (Decidable (¬ _))

/-- The entry of an id is a one-shot, if there is one. -/
def OneShot (id : T) (actor : SchedulerActor T) : Prop :=
  actor.Keyed ∧ actor.EntrySatisfies id fun activity =>
    activity.spec.schedule.isOneShot = true

/-- The runs left for an id without a snooze: one for an activity that waits or
was disabled while it waited, and none for one in flight. -/
def runsLeft (id : T) (actor : SchedulerActor T) : Nat :=
  match actor.activities.lookup id with
  | none => 0
  | some activity => if activity.state.stripped = .running then 0 else 1

/-- No run is left exactly when the entry, if there is one, is in flight. -/
theorem runs_left_zero_iff (id : T) (actor : SchedulerActor T) :
    runsLeft id actor = 0 ↔
      actor.EntrySatisfies id fun activity => activity.state.stripped = .running := by
  unfold runsLeft EntrySatisfies
  cases held : actor.activities.lookup id <;> simp

/-- At most one run is left. -/
theorem runs_left_le_one (id : T) (actor : SchedulerActor T) : runsLeft id actor ≤ 1 := by
  unfold runsLeft
  split
  · omega
  · split <;> omega

/-- Without an insertion, the entry of an id stays a one-shot. -/
theorem one_shot_step (id : T) (actor : SchedulerActor T) (input : Input T)
    (oneShot : OneShot id actor) (leaves : LeavesEntry id actor input) :
    OneShot id (actor.step input) := by
  refine ⟨keyed_step input oneShot.1, entry_step ?_ ?_ oneShot.2⟩
  · intro spec inserted
    exact absurd ⟨spec, inserted⟩ leaves
  · intro before after _ move schedule
    rw [move.spec_eq]
    exact schedule

/-- A completed run of a one-shot leaves its id absent. -/
theorem one_shot_done (id : T) (actor : SchedulerActor T) (input : Input T)
    (oneShot : OneShot id actor) (done : input.command = .finish id .done) :
    (actor.step input).activities.lookup id = none := by
  rw [lookup_step, done]
  cases held : actor.activities.lookup id with
  | none => simp [eventAt, Event.advance]
  | some activity =>
    have schedule := oneShot.2 activity held
    simp [eventAt, Event.advance, Activity.finish_done, schedule]

/-- A report uses up the run that is left, and only a snooze gives another. -/
theorem report_paid (id : T) (actor : SchedulerActor T) (input : Input T)
    (oneShot : OneShot id actor) (leaves : LeavesEntry id actor input) :
    (if decide (id ∈ actor.claimed input) then 1 else 0) + runsLeft id (actor.step input) ≤
      runsLeft id actor + if snoozes id input then 1 else 0 := by
  have leftAfter := runs_left_le_one id (actor.step input)
  by_cases reported : id ∈ actor.claimed input
  · -- the activity waited, and is in flight now
    have waited : runsLeft id actor ≠ 0 := fun spent =>
      in_flight_not_claimed id actor input
        ⟨oneShot.1, (runs_left_zero_iff id actor).mp spent⟩ reported
    obtain ⟨command, readings⟩ := input
    obtain rfl : command = .claimDue := ((mem_claimed_iff oneShot.1 _).mp reported).1
    have spent := (runs_left_zero_iff id _).mpr (claim_in_flight id actor readings oneShot.1 reported).2
    simp only [reported, decide_true, if_true, spent]
    omega
  · simp only [reported, decide_false, Bool.false_eq_true, if_false]
    by_cases acknowledged : Acknowledges id input
    · obtain ⟨ack, command⟩ := (acknowledges_iff id input).mp acknowledged
      cases ack with
      | done =>
        have spent : runsLeft id (actor.step input) = 0 := by
          rw [runsLeft, one_shot_done id actor input oneShot command]
        omega
      | snooze span =>
        have credited : snoozes id input = true := by simp [snoozes, command]
        simp only [credited, if_true]
        omega
    · by_cases spent : runsLeft id actor = 0
      · have flying := in_flight_step id actor input
          ⟨oneShot.1, (runs_left_zero_iff id actor).mp spent⟩ ⟨leaves, acknowledged⟩
        have stillSpent := (runs_left_zero_iff id _).mpr flying.2
        omega
      · omega

/-- An absent id stays absent and unreported until it is inserted. -/
theorem absent_along (id : T) (actor : SchedulerActor T) (inputs : List (Input T))
    (keyed : actor.Keyed) (absent : actor.activities.lookup id = none)
    (leaves : Runs.Along step (LeavesEntry id) actor inputs) :
    Runs.Along step (fun reached input => id ∉ reached.claimed input ∧
      (reached.step input).activities.lookup id = none) actor inputs := by
  refine @Runs.invariant_along _ _ step (LeavesEntry id) _
    (fun reached => reached.Keyed ∧ reached.activities.lookup id = none) ?_ ?_ _ _
    ⟨keyed, absent⟩ leaves
  · rintro reached input ⟨reachedKeyed, gone⟩ kept
    exact ⟨keyed_step input reachedKeyed, absent_step gone kept⟩
  · rintro reached input ⟨reachedKeyed, gone⟩ kept
    refine ⟨fun reported => ?_, absent_step gone kept⟩
    obtain ⟨_, activity, present, _⟩ := (mem_claimed_iff reachedKeyed input).mp reported
    rw [gone] at present
    cases present

/-! ### Not before its date -/

/-- The target of an id's entry outlasts every input that neither dispatches nor
acknowledges the id nor inserts it anew. -/
theorem undisturbed_target (id : T) (actor : SchedulerActor T) (inputs : List (Input T))
    (target : ActivationTarget)
    (initial : actor.EntrySatisfies id fun activity => activity.activationTarget = target)
    (undisturbed : Runs.Along step (Undisturbed id) actor inputs) :
    (actor.run inputs).EntrySatisfies id fun activity => activity.activationTarget = target := by
  apply entry_run _ _ initial undisturbed
  · intro reached input spec admitted inserted
    exact absurd ⟨spec, inserted⟩ admitted.2.1
  · intro reached input before after admitted move same
    rw [move.target_eq admitted.undispatched admitted.2.unfinished]
    exact same

/-- An activity that waits for a date is reported at or after it, by the wall
clock as the claim reads it. -/
theorem claimed_from_date (id : T) (actor : SchedulerActor T) (input : Input T) (date : DateTime)
    (keyed : actor.Keyed)
    (waits : actor.EntrySatisfies id fun activity => activity.activationTarget = .date date)
    (reported : id ∈ actor.claimed input) : date ≤ input.wallAt id := by
  obtain ⟨_, activity, present, due⟩ := (mem_claimed_iff keyed input).mp reported
  have reached := ((activity.should_run_iff _).mp due).2
  simpa [Activity.isAtTarget, waits activity present, Input.wallAt] using reached

/-- What an insertion of a specification leaves at its id. -/
theorem inserted_entry (id : T) (actor : SchedulerActor T) (insertion : Input T)
    (spec : ActivitySpec T) (inserted : actor.eventAt id insertion.command = .insert spec) :
    (actor.step insertion).activities.lookup id =
      some (Activity.new spec (insertion.readings id)) := by
  rw [lookup_step, inserted]
  rfl

/-- A one-shot runs once for its insertion and once more for every snooze; until
it is dispatched or acknowledged it is not reported before its date; and once a
run of it is completed it is absent and unreported. All of this holds until it is
inserted anew, and for any readings of the wall clock.

The first part is the potential rule: an activity in flight has no run left. For
the second, the target is the date as long as nothing replaces it. -/
theorem one_shot_fires_once (history : List (Input T)) (insertion : Input T) (id : T)
    (spec : ActivitySpec T) (date : DateTime)
    (inserted : (empty.run history).eventAt id insertion.command = .insert spec)
    (schedule : spec.schedule = .scheduled date) (later : List (Input T))
    (leaves : Runs.Along step (LeavesEntry id) (empty.run (history ++ [insertion])) later) :
    reports id (empty.run (history ++ [insertion])) later ≤ 1 + later.countP (snoozes id) ∧
      (∀ before input after, later = before ++ input :: after →
        (∀ earlier ∈ before, earlier.command ≠ .setImmediate id ∧ ¬ Acknowledges id earlier) →
        id ∈ ((empty.run (history ++ [insertion])).run before).claimed input →
          date ≤ input.wallAt id) ∧
      ∀ before input after, later = before ++ input :: after → input.command = .finish id .done →
        ((empty.run (history ++ [insertion])).run (before ++ [input])).activities.lookup id = none ∧
          Runs.Along step (fun reached next => id ∉ reached.claimed next ∧
              (reached.step next).activities.lookup id = none)
            ((empty.run (history ++ [insertion])).run (before ++ [input])) after := by
  have keyed : (empty.run (history ++ [insertion])).Keyed := keyed_run _
  have entered := inserted_entry id (empty.run history) insertion spec inserted
  rw [← run_nil ((empty.run history).step insertion), ← run_cons, ← run_append] at entered
  have oneShot : OneShot id (empty.run (history ++ [insertion])) := by
    refine ⟨keyed, (entry_satisfies_iff entered).mpr ?_⟩
    simp [schedule, ActivitySchedule.isOneShot]
  refine ⟨?_, ?_, ?_⟩
  · have paid := Runs.tally_le_credit (one_shot_step id) (report_paid id) oneShot leaves
    have atMost := runs_left_le_one id (empty.run (history ++ [insertion]))
    simp only [reports]
    omega
  · rintro before input after rfl untouched reported
    have undisturbed : Runs.Along step (Undisturbed id) (empty.run (history ++ [insertion])) before := by
      apply (Runs.along_iff_split _ before).mpr
      rintro front earlier back rfl
      have here := untouched earlier (by simp)
      have kept := (Runs.along_iff_split _ _).mp leaves front earlier (back ++ input :: after) (by simp)
      exact ⟨here.1, kept, here.2⟩
    refine claimed_from_date id _ input date (keyed_after keyed before) ?_ reported
    apply undisturbed_target id _ before _ _ undisturbed
    refine (entry_satisfies_iff entered).mpr ?_
    simp [Activity.new, schedule, ActivationTarget.fromSchedule]
  · rintro before input after rfl done
    obtain ⟨leavesBefore, _, leavesAfter⟩ := (Runs.along_append _ before (input :: after)).mp leaves
    have reached : OneShot id ((empty.run (history ++ [insertion])).run before) :=
      Runs.invariant_after (one_shot_step id) oneShot leavesBefore
    have absent := one_shot_done id _ input reached done
    rw [run_append, run_cons, run_nil]
    exact ⟨absent, absent_along id _ after (keyed_step input reached.1) absent leavesAfter⟩

/-- A reminder for 100 that is claimed at 100, snoozed for 50 at 110 and claimed
again at 170. -/
def snoozedReminder : List (Input Nat) :=
  [⟨.tick, fun _ => .least 100 100⟩, ⟨.claimDue, fun _ => .least 100 100⟩,
    ⟨.finish 1 (.snooze 50), fun _ => .least 110 110⟩, ⟨.tick, fun _ => .least 170 170⟩,
    ⟨.claimDue, fun _ => .least 170 170⟩]

/-- A reminder snoozed once is reported twice, and could not be more often. -/
theorem one_shot_fires_twice :
    reports 1 (empty.run [⟨.register ⟨1, .scheduled 100⟩, fun _ => .least 0 0⟩])
        snoozedReminder ≤ 2 ∧
      reports 1 (empty.run [⟨.register ⟨1, .scheduled 100⟩, fun _ => .least 0 0⟩])
        snoozedReminder = 2 :=
  ⟨(one_shot_fires_once [] ⟨.register ⟨1, .scheduled 100⟩, fun _ => .least 0 0⟩ 1
    ⟨1, .scheduled 100⟩ 100 (by decide) rfl snoozedReminder (by decide)).1, by decide⟩

/-! ### Disabled over its date -/

/-- An activity that has not run waits for a date, whether it is enabled or not. -/
structure AwaitsDate (date : DateTime) (activity : Activity T) : Prop where
  idle : activity.state.stripped = .idle
  target : activity.activationTarget = .date date
  oneShot : activity.spec.schedule.isOneShot = true

/-- The input is a tick that reads the wall clock at or after the date. -/
def TicksPast (id : T) (date : DateTime) (input : Input T) : Prop :=
  input.command = .tick ∧ date ≤ input.wallAt id

/-- A one-shot that awaits its date and is left alone goes on awaiting it: unless
a claim reports it, or a tick at or after the date finds it disabled. It stays
disabled until it is enabled. -/
theorem awaits_step (id : T) (date : DateTime) (actor : SchedulerActor T) (input : Input T)
    (before : Activity T) (keyed : actor.Keyed)
    (present : actor.activities.lookup id = some before) (awaits : AwaitsDate date before)
    (undisturbed : Undisturbed id actor input) (unclaimed : id ∉ actor.claimed input)
    (uncollected : before.state.isDisabled = true → ¬ TicksPast id date input) :
    ∃ after, (actor.step input).activities.lookup id = some after ∧ AwaitsDate date after ∧
      (before.state.isDisabled = true → input.command ≠ .setEnabled id true →
        after.state.isDisabled = true) := by
  obtain ⟨idle, target, oneShot⟩ := awaits
  have unfinished := undisturbed.2.unfinished
  rcases present_step present undisturbed.2.1 with
    ⟨after, held, move⟩ | ⟨_, ⟨event, collected⟩ | ⟨ack, event, _⟩⟩
  · refine ⟨after, held, ?_⟩
    have sameTarget := (move.target_eq undisturbed.undispatched unfinished).trans target
    have sameSchedule := move.spec_eq ▸ oneShot
    rcases undisturbed.moves move with ⟨_, survives, rfl⟩ | ⟨claims, rfl⟩ |
      ⟨enabled, toggles, rfl⟩ | ⟨_, rfl⟩
    · have same := before.tick_state_of_survives _ survives
      exact ⟨⟨by rw [same]; exact idle, sameTarget, sameSchedule⟩, fun disabled _ => same ▸ disabled⟩
    · rw [Activity.claim_eq, if_neg (unclaimed_not_due keyed input present claims unclaimed)]
      exact ⟨⟨idle, target, oneShot⟩, fun disabled _ => disabled⟩
    · have bare : before.state.stripped.isDisabled = false := by rw [idle]; rfl
      refine ⟨⟨(before.set_enabled_stripped enabled bare).trans idle, sameTarget, sameSchedule⟩, ?_⟩
      intro _ leaves
      cases enabled with
      | true => exact absurd toggles leaves
      | false => exact before.set_enabled_false
    · exact ⟨⟨idle, target, oneShot⟩, fun disabled _ => disabled⟩
  · exfalso
    have collectable := (before.tick_collects_iff _ (Or.inl idle)).mp collected
    simp only [Activity.isCollectable, Activity.isAtTarget, target, Bool.and_eq_true,
      decide_eq_true_eq] at collectable
    exact uncollected collectable.1.2 ⟨(event_tick_iff actor id input.command).mp event, collectable.2⟩
  · exact absurd event (unfinished ack)

/-- Up to a moment before the date, a one-shot that is left alone goes on awaiting
it. No claim reports it and no tick collects it there. -/
theorem awaits_before (id : T) (date : DateTime) (actor : SchedulerActor T)
    (inputs : List (Input T)) (activity : Activity T) (keyed : actor.Keyed)
    (present : actor.activities.lookup id = some activity) (awaits : AwaitsDate date activity)
    (undisturbed : Runs.Along step (Undisturbed id) actor inputs)
    (ahead : ∀ input ∈ inputs, input.wallAt id < date) :
    ∃ kept, (actor.run inputs).activities.lookup id = some kept ∧ AwaitsDate date kept := by
  induction inputs generalizing actor activity with
  | nil => exact ⟨activity, present, awaits⟩
  | cons input rest inductionHypothesis =>
    have early : ¬ date ≤ input.wallAt id := not_le.mpr (ahead input List.mem_cons_self)
    have waits : actor.EntrySatisfies id fun found => found.activationTarget = .date date :=
      (entry_satisfies_iff present).mpr awaits.target
    obtain ⟨after, held, still, _⟩ := awaits_step id date actor input activity keyed present awaits
      undisturbed.1 (fun reported => early (claimed_from_date id actor input date keyed waits reported))
      (fun _ past => early past.2)
    exact inductionHypothesis (actor.step input) after (keyed_step input keyed) held still
      undisturbed.2 (fun later member => ahead later (List.mem_cons_of_mem input member))

/-- A disabled one-shot that is left alone and not enabled awaits its date until
the first tick at or after it, which removes it. -/
theorem awaits_disabled (id : T) (date : DateTime) (actor : SchedulerActor T)
    (window : List (Input T)) (activity : Activity T) (keyed : actor.Keyed)
    (present : actor.activities.lookup id = some activity) (awaits : AwaitsDate date activity)
    (disabled : activity.state.isDisabled = true)
    (undisturbed : Runs.Along step (Undisturbed id) actor window)
    (stays : ∀ input ∈ window, input.command ≠ .setEnabled id true) :
    ((∃ input ∈ window, TicksPast id date input) →
        (actor.run window).activities.lookup id = none) ∧
      ((∀ input ∈ window, ¬ TicksPast id date input) →
        ∃ kept, (actor.run window).activities.lookup id = some kept ∧ AwaitsDate date kept) := by
  induction window generalizing actor activity with
  | nil => exact ⟨by simp, fun _ => ⟨activity, present, awaits⟩⟩
  | cons input rest inductionHypothesis =>
    by_cases past : TicksPast id date input
    · -- this tick removes the activity, and nothing inserts it anew
      have collectable : activity.isCollectable (input.readings id) = true := by
        have reached : date ≤ (input.readings id).nowUtc := past.2
        simp [Activity.isCollectable, Activity.isAtTarget, awaits.oneShot, disabled, awaits.target,
          reached]
      have removed : (actor.step input).activities.lookup id = none := by
        obtain ⟨command, readings⟩ := input
        obtain rfl : command = .tick := past.1
        exact (tick_removes_iff id actor readings activity present (Or.inl awaits.idle)).mpr
          collectable
      have absent : ((actor.step input).run rest).activities.lookup id = none :=
        @Runs.invariant_after _ _ step (Undisturbed id)
          (fun reached => reached.activities.lookup id = none)
          (fun reached next gone admitted => absent_step gone admitted.2.1) _ rest removed
          undisturbed.2
      exact ⟨fun _ => absent, fun none => absurd past (none input List.mem_cons_self)⟩
    · have unclaimed : id ∉ actor.claimed input := by
        intro reported
        obtain ⟨_, due⟩ := (present_claimed_iff keyed input present).mp reported
        rw [Activity.should_run_disabled activity _ disabled] at due
        cases due
      obtain ⟨after, held, still, stillDisabled⟩ := awaits_step id date actor input activity keyed
        present awaits undisturbed.1 unclaimed (fun _ => past)
      have tail := inductionHypothesis (actor.step input) after (keyed_step input keyed) held still
        (stillDisabled disabled (stays input List.mem_cons_self)) undisturbed.2
        (fun later member => stays later (List.mem_cons_of_mem input member))
      simpa [past] using tail

/-- A one-shot is disabled before its date and next enabled at or after it, in
time by the wall clock, and nothing else is done to it after its insertion. -/
structure DisabledOverDate (id : T) (date : DateTime) (history : List (Input T))
    (insertion : Input T) (before : List (Input T)) (disabling : Input T)
    (window : List (Input T)) (enabling : Input T) : Prop where
  inserted : ∃ spec, (empty.run history).eventAt id insertion.command = .insert spec ∧
    spec.schedule = .scheduled date
  clocked : WallClocked id (insertion :: before ++ disabling :: window ++ [enabling])
  undisturbed : Runs.Along step (Undisturbed id) (empty.run (history ++ [insertion]))
    (before ++ disabling :: window ++ [enabling])
  disables : disabling.command = .setEnabled id false
  ahead : disabling.wallAt id < date
  stays : ∀ input ∈ window, input.command ≠ .setEnabled id true
  enables : enabling.command = .setEnabled id true
  past : date ≤ enabling.wallAt id

/-- After a run that ended with an input, no undisturbed continuation in time by
the wall clock reports the id. -/
def NeverReported (id : T) (run : List (Input T)) (latest : Input T) : Prop :=
  ∀ later, WallClocked id (latest :: later) →
    Runs.Along step (Undisturbed id) (empty.run (run ++ [latest])) later →
      Runs.Along step (fun reached input => id ∉ reached.claimed input)
        (empty.run (run ++ [latest])) later

/-- A one-shot that still awaits a date that has come is reported by the first
claim after it is enabled. -/
theorem enabled_reported (id : T) (date : DateTime) (actor : SchedulerActor T) (enabling : Input T)
    (activity : Activity T) (keyed : actor.Keyed)
    (present : actor.activities.lookup id = some activity) (awaits : AwaitsDate date activity)
    (enables : enabling.command = .setEnabled id true) (past : date ≤ enabling.wallAt id) :
    id ∈ (actor.step enabling).claimed ⟨.claimDue, enabling.readings⟩ := by
  have enabled : (actor.step enabling).activities.lookup id =
      some { activity with state := .idle } := by
    rw [lookup_step, present, enables]
    simp [eventAt, Event.advance, Activity.set_enabled_eq, awaits.idle]
  refine (mem_claimed_iff (keyed_step enabling keyed) _).mpr ⟨rfl, _, enabled, ?_⟩
  have reached : date ≤ (enabling.readings id).nowUtc := past
  simp [Activity.should_run_iff, Activity.isAtTarget, awaits.target, reached]

/-- A one-shot disabled over its date is never reported exactly when some tick
between the two commands reads the wall clock at or after the date.

Such a tick finds the activity disabled and removes it. Without one the activity
is enabled in the state it was inserted in, and a claim that follows reports it. -/
theorem missed_omitted_iff (id : T) (date : DateTime) (history : List (Input T))
    (insertion : Input T) (before : List (Input T)) (disabling : Input T)
    (window : List (Input T)) (enabling : Input T)
    (scenario : DisabledOverDate id date history insertion before disabling window enabling) :
    NeverReported id (history ++ insertion :: before ++ disabling :: window) enabling ↔
      ∃ input ∈ window, TicksPast id date input := by
  obtain ⟨⟨spec, inserted, schedule⟩, clocked, undisturbed, disables, ahead, stays, enables, past⟩ :=
    scenario
  -- the activity awaits its date when it is disabled
  have start : (empty.run (history ++ [insertion])).Keyed := keyed_run _
  have entered := inserted_entry id (empty.run history) insertion spec inserted
  rw [← run_nil ((empty.run history).step insertion), ← run_cons, ← run_append] at entered
  have fresh : AwaitsDate date (Activity.new spec (insertion.readings id)) :=
    ⟨rfl, by simp [Activity.new, schedule, ActivationTarget.fromSchedule],
      by simp [schedule, ActivitySchedule.isOneShot]⟩
  obtain ⟨undisturbedToWindow, _⟩ := (Runs.along_append _ _ _).mp undisturbed
  obtain ⟨undisturbedBefore, _, undisturbedWindow⟩ := (Runs.along_append _ _ _).mp undisturbedToWindow
  have early : ∀ input ∈ before, input.wallAt id < date := by
    intro input member
    obtain ⟨inOrder, _, _⟩ := (Runs.clocked_append _ _).mp clocked
    obtain ⟨_, _, toDisabling⟩ := (Runs.clocked_append _ _).mp inOrder
    exact lt_of_le_of_lt (toDisabling input (List.mem_cons_of_mem _ member) disabling
      List.mem_cons_self) ahead
  obtain ⟨waiting, held, awaits⟩ := awaits_before id date _ before _ start entered fresh
    undisturbedBefore early
  have keyed := keyed_after start before
  -- and it awaits it, disabled, over the window
  have disabled : (((empty.run (history ++ [insertion])).run before).step
      disabling).activities.lookup id = some (waiting.setEnabled false) := by
    rw [lookup_step, held, disables]
    simp [eventAt, Event.advance]
  have bare : waiting.state.stripped.isDisabled = false := by rw [awaits.idle]; rfl
  have awaitsDisabled : AwaitsDate date (waiting.setEnabled false) := by
    refine ⟨(waiting.set_enabled_stripped false bare).trans awaits.idle, ?_, ?_⟩
    · rw [Activity.set_enabled_eq]; exact awaits.target
    · rw [Activity.set_enabled_eq]; exact awaits.oneShot
  obtain ⟨ticked, unticked⟩ := awaits_disabled id date _ window _ (keyed_step disabling keyed)
    disabled awaitsDisabled waiting.set_enabled_false undisturbedWindow stays
  have keyedWindow := keyed_after (keyed_step disabling keyed) window
  have reached : empty.run (history ++ insertion :: before ++ disabling :: window ++ [enabling]) =
      ((((empty.run (history ++ [insertion])).run before).step disabling).run window).step
        enabling := by
    simp
  unfold NeverReported
  rw [reached]
  constructor
  · intro never
    by_contra unnoticed
    obtain ⟨kept, present, stillAwaits⟩ := unticked (by simpa using unnoticed)
    have reported := enabled_reported id date _ enabling kept keyedWindow present stillAwaits
      enables past
    have unreported := never [⟨.claimDue, enabling.readings⟩] (by simp [Input.wallAt])
      (by simp [Undisturbed, LeavesRun, inserts, eventAt, Acknowledges, acknowledged])
    exact unreported.1 reported
  · intro noticed later _ leaves
    have unserted : ¬ inserts ((((empty.run (history ++ [insertion])).run before).step
        disabling).run window) id enabling := by
      simp [inserts, enables, eventAt]
    have absent := absent_along id _ later (keyed_step enabling keyedWindow)
      (absent_step (ticked noticed) unserted) (leaves.mono fun _ _ undisturbed => undisturbed.2.1)
    exact absent.mono fun _ _ kept => kept.1

/-- A reminder for 100, disabled at 50, with a tick at 120, is not reported after
it is enabled at 150. -/
theorem ticked_reminder_omitted :
    NeverReported 1 [⟨.register ⟨1, .scheduled 100⟩, fun _ => .least 0 0⟩,
        ⟨.setEnabled 1 false, fun _ => .least 50 50⟩, ⟨.tick, fun _ => .least 120 120⟩]
      ⟨.setEnabled 1 true, fun _ => .least 150 150⟩ :=
  (missed_omitted_iff 1 100 [] ⟨.register ⟨1, .scheduled 100⟩, fun _ => .least 0 0⟩ []
    ⟨.setEnabled 1 false, fun _ => .least 50 50⟩ [⟨.tick, fun _ => .least 120 120⟩]
    ⟨.setEnabled 1 true, fun _ => .least 150 150⟩
    ⟨⟨⟨1, .scheduled 100⟩, by decide, rfl⟩, by decide, by decide, rfl, by decide, by decide, rfl,
      by decide⟩).mpr ⟨_, List.mem_cons_self, rfl, by decide⟩

/-- A reminder for 100, disabled at 50 and enabled at 150 with no tick between,
is reported at 150. -/
theorem unticked_reminder_reported :
    DisabledOverDate 1 100 [] ⟨.register ⟨1, .scheduled 100⟩, fun _ => .least 0 0⟩ []
        ⟨.setEnabled 1 false, fun _ => .least 50 50⟩ []
        ⟨.setEnabled 1 true, fun _ => .least 150 150⟩ ∧
      ¬ NeverReported 1 [⟨.register ⟨1, .scheduled 100⟩, fun _ => .least 0 0⟩,
          ⟨.setEnabled 1 false, fun _ => .least 50 50⟩]
        ⟨.setEnabled 1 true, fun _ => .least 150 150⟩ := by
  refine ⟨⟨⟨⟨1, .scheduled 100⟩, by decide, rfl⟩, by decide, by decide, rfl, by decide, by decide,
    rfl, by decide⟩, ?_⟩
  intro never
  have unreported := never [⟨.claimDue, fun _ => .least 150 150⟩] (by decide) (by decide)
  exact absurd unreported (by decide)

end SchedulerActor

end Ritualist
