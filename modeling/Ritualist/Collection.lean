import Ritualist.SingleFlight

/-!
# What a tick removes

A tick removes the disabled one-shots that are at their activation target, and
nothing else. The target is not the date of the specification: a dispatch moves
it to the present and a snooze replaces it by a span. So a tick may remove a
one-shot whose own date is still ahead, exactly when the target has drifted to
before it; and it may remove one that is disabled while its run is in flight,
since a claim leaves the target where it was reached.

`collects_missed_iff` gives the ticks that remove missed one-shots only, and
`snooze_honoured_iff` the runs whose snooze still finds its activity.
-/

namespace Ritualist

universe u
variable {T : Type u} [DecidableEq T]

namespace SchedulerActor

/-- A tick removes a settled entry exactly when it is collectable. -/
theorem tick_removes_iff (id : T) (actor : SchedulerActor T) (readings : T → Reading)
    (activity : Activity T) (present : actor.activities.lookup id = some activity)
    (settled : activity.state.Settled) :
    (actor.step ⟨.tick, readings⟩).activities.lookup id = none ↔
      activity.isCollectable (readings id) = true := by
  rw [← activity.tick_collects_iff (readings id) settled, lookup_step, present]
  simp [eventAt, Event.advance]

/-! ### Missed one-shots -/

/-- Every entry this tick removes is a disabled one-shot whose own date has come. -/
def CollectsMissed (actor : SchedulerActor T) (readings : T → Reading) : Prop :=
  ∀ id activity, actor.activities.lookup id = some activity →
    (actor.step ⟨.tick, readings⟩).activities.lookup id = none →
      activity.state.isDisabled = true ∧
        ∃ date, activity.spec.schedule = .scheduled date ∧ date ≤ (readings id).nowUtc

/-- The activation target of an activity has been reached although a date is
still ahead: it is an elapsed span, or a date that has come. -/
def TargetDrifted (activity : Activity T) (reading : Reading) (date : DateTime) : Prop :=
  reading.nowUtc < date ∧ match activity.activationTarget with
    | .duration span => span ≤ activity.durationDelta
    | .date target => target ≤ reading.nowUtc

omit [DecidableEq T] in
/-- A drifted target is a reached one, ahead of the date. -/
theorem target_drifted_iff (activity : Activity T) (reading : Reading) (date : DateTime) :
    TargetDrifted activity reading date ↔
      activity.isAtTarget reading = true ∧ ¬ date ≤ reading.nowUtc := by
  unfold TargetDrifted Activity.isAtTarget
  cases activity.activationTarget <;> simp [and_comm]

/-- In every reachable map, a tick removes missed one-shots only, exactly when no
disabled one-shot's target has drifted to before its date.

An entry is removed exactly when it is collectable, so it is disabled and a
one-shot in any case; only the date is at stake. -/
theorem collects_missed_iff (history : List (Input T)) (readings : T → Reading) :
    CollectsMissed (empty.run history) readings ↔
      ∀ id activity date, (empty.run history).activities.lookup id = some activity →
        activity.state.isDisabled = true → activity.spec.schedule = .scheduled date →
          ¬ TargetDrifted activity (readings id) date := by
  constructor
  · intro collects id activity date present disabled schedule drifted
    obtain ⟨reached, ahead⟩ := (target_drifted_iff activity _ date).mp drifted
    have collectable : activity.isCollectable (readings id) = true := by
      simp [Activity.isCollectable, schedule, ActivitySchedule.isOneShot, disabled, reached]
    have removed := (tick_removes_iff id _ readings activity present
      (settled_run history id activity present)).mpr collectable
    obtain ⟨_, own, sameSchedule, past⟩ := collects id activity present removed
    obtain rfl : date = own := ActivitySchedule.scheduled.inj (schedule.symm.trans sameSchedule)
    exact ahead past
  · intro undrifted id activity present removed
    have collectable := (tick_removes_iff id _ readings activity present
      (settled_run history id activity present)).mp removed
    simp only [Activity.isCollectable, Bool.and_eq_true] at collectable
    obtain ⟨⟨oneShot, disabled⟩, reached⟩ := collectable
    refine ⟨disabled, ?_⟩
    cases schedule : activity.spec.schedule with
    | scheduled date =>
      refine ⟨date, rfl, ?_⟩
      by_contra ahead
      exact undrifted id activity date present disabled schedule
        ((target_drifted_iff activity _ date).mpr ⟨reached, ahead⟩)
    | fixedInterval span => simp [schedule, ActivitySchedule.isOneShot] at oneShot
    | randomInterval least bound => simp [schedule, ActivitySchedule.isOneShot] at oneShot

/-- While a one-shot is neither dispatched nor acknowledged, its target is the
date of its specification and does not drift. -/
theorem undispatched_undrifted (id : T) (actor : SchedulerActor T) (inputs : List (Input T))
    (fresh : actor.EntrySatisfies id fun activity => ∀ date,
      activity.spec.schedule = .scheduled date → activity.activationTarget = .date date)
    (undispatched : Runs.Along step (fun _ input =>
      input.command ≠ .setImmediate id ∧ ¬ Acknowledges id input) actor inputs) :
    (actor.run inputs).EntrySatisfies id fun activity => ∀ date reading,
      activity.spec.schedule = .scheduled date → ¬ TargetDrifted activity reading date := by
  have kept : (actor.run inputs).EntrySatisfies id fun activity => ∀ date,
      activity.spec.schedule = .scheduled date → activity.activationTarget = .date date := by
    apply entry_run _ _ fresh undispatched
    · intro _ _ spec _ _ date schedule
      change spec.schedule = .scheduled date at schedule
      simp [Activity.new, schedule, ActivationTarget.fromSchedule]
    · intro reached input before after admitted move same
      have undispatchedHere : reached.eventAt id input.command ≠ .setImmediate := fun event =>
        admitted.1 ((event_set_immediate_iff reached id input.command).mp event)
      have unfinished : ∀ ack, reached.eventAt id input.command ≠ .finish ack := fun ack event =>
        admitted.2 ((acknowledges_iff id input).mpr
          ⟨ack, (event_finish_iff reached id input.command ack).mp event⟩)
      rw [move.spec_eq, move.target_eq undispatchedHere unfinished]
      exact same
  intro activity present date reading schedule drifted
  have target := kept activity present date schedule
  simp only [TargetDrifted, target] at drifted
  exact absurd drifted.2 (not_le.mpr drifted.1)

/-- A one-shot for 1000 that is dispatched at 10 and then disabled is removed by
the tick at 11: the dispatch moved its target to 10. -/
theorem dispatched_reminder_collected :
    ¬ CollectsMissed (empty.run [⟨.register ⟨1, .scheduled 1000⟩, fun _ => .least 0 0⟩,
        ⟨.setImmediate 1, fun _ => .least 10 10⟩, ⟨.setEnabled 1 false, fun _ => .least 10 10⟩])
      (fun _ => .least 11 11) := by
  intro collects
  obtain ⟨_, date, schedule, past⟩ := collects 1 _ rfl (by decide)
  obtain rfl : 1000 = date := ActivitySchedule.scheduled.inj schedule
  exact absurd past (by decide)

/-! ### Runs in flight -/

/-- This tick removes no entry that is running, wrapped or not. -/
def SparesRuns (actor : SchedulerActor T) (readings : T → Reading) : Prop :=
  ∀ id activity, actor.activities.lookup id = some activity →
    activity.state.stripped = .running →
      (actor.step ⟨.tick, readings⟩).activities.lookup id ≠ none

/-- The entry of an id is a one-shot disabled in flight whose target is reached.
A claim at a date leaves that date as the target, so that disabling the run is
all it takes. -/
def Exposed (id : T) (actor : SchedulerActor T) (readings : T → Reading) : Prop :=
  ∃ activity, actor.activities.lookup id = some activity ∧
    activity.state = .disabled .running ∧ activity.spec.schedule.isOneShot = true ∧
    activity.isAtTarget (readings id) = true

omit [DecidableEq T] in
/-- A run in flight is collectable when it is a disabled one-shot at its target. -/
theorem in_flight_collectable_iff (activity : Activity T) (reading : Reading)
    (running : activity.state.stripped = .running) :
    activity.isCollectable reading = true ↔
      activity.state = .disabled .running ∧ activity.spec.schedule.isOneShot = true ∧
        activity.isAtTarget reading = true := by
  have wrapped : activity.state.isDisabled = true ↔ activity.state = .disabled .running := by
    cases state : activity.state with
    | disabled prevState =>
      rw [state, ActivityState.stripped] at running
      simp [ActivityState.isDisabled, running]
    | _ => simp [ActivityState.isDisabled]
  simp only [Activity.isCollectable, Bool.and_eq_true, wrapped]
  constructor
  · rintro ⟨⟨oneShot, disabled⟩, reached⟩
    exact ⟨disabled, oneShot, reached⟩
  · rintro ⟨disabled, oneShot, reached⟩
    exact ⟨⟨oneShot, disabled⟩, reached⟩

/-- A tick removes an entry in flight exactly when the entry is exposed. -/
theorem tick_removes_run_iff (id : T) (actor : SchedulerActor T) (readings : T → Reading)
    (activity : Activity T) (present : actor.activities.lookup id = some activity)
    (running : activity.state.stripped = .running) :
    (actor.step ⟨.tick, readings⟩).activities.lookup id = none ↔ Exposed id actor readings := by
  rw [tick_removes_iff id actor readings activity present (Or.inr (Or.inl running)),
    in_flight_collectable_iff activity _ running]
  constructor
  · intro exposed
    exact ⟨activity, present, exposed⟩
  · rintro ⟨found, held, exposed⟩
    obtain rfl : activity = found := Option.some.inj (present.symm.trans held)
    exact exposed

/-- The input is no tick, or one at which the id is not exposed. -/
def SparesRun (id : T) (actor : SchedulerActor T) (input : Input T) : Prop :=
  input.command = .tick → ¬ Exposed id actor input.readings

/-- An input that leaves a run in flight alone removes its entry exactly when it
is a tick at which the id is exposed. -/
theorem in_flight_removed_iff (id : T) (actor : SchedulerActor T) (input : Input T)
    (activity : Activity T) (present : actor.activities.lookup id = some activity)
    (running : activity.state.stripped = .running) (leaves : LeavesRun id actor input) :
    (actor.step input).activities.lookup id = none ↔ ¬ SparesRun id actor input := by
  by_cases ticks : input.command = .tick
  · obtain ⟨command, readings⟩ := input
    obtain rfl : command = .tick := ticks
    simpa [SparesRun] using tick_removes_run_iff id actor readings activity present running
  · have spared : SparesRun id actor input := fun isTick => absurd isTick ticks
    refine iff_of_false ?_ (not_not.mpr spared)
    intro removed
    rcases present_step present leaves.1 with ⟨after, held, _⟩ | ⟨_, ⟨event, _⟩ | ⟨ack, event, _⟩⟩
    · rw [removed] at held
      cases held
    · exact ticks ((event_tick_iff actor id input.command).mp event)
    · exact leaves.unfinished ack event

/-- A run in flight that nothing acknowledges or inserts anew still has its
entry at the end exactly when no tick on the way found it exposed.

The induction carries the running entry; an entry once removed stays absent. -/
theorem in_flight_kept_iff (id : T) (actor : SchedulerActor T) (inputs : List (Input T))
    (activity : Activity T) (present : actor.activities.lookup id = some activity)
    (inFlight : InFlight id actor) (leaves : Runs.Along step (LeavesRun id) actor inputs) :
    (∃ kept, (actor.run inputs).activities.lookup id = some kept ∧ kept.spec = activity.spec) ↔
      Runs.Along step (SparesRun id) actor inputs := by
  induction inputs generalizing actor activity with
  | nil => simpa using ⟨activity, present, rfl⟩
  | cons input rest inductionHypothesis =>
    have running := inFlight.2 activity present
    have removed := in_flight_removed_iff id actor input activity present running leaves.1
    have stillInFlight := in_flight_step id actor input inFlight leaves.1
    rcases present_step present leaves.1.1 with ⟨after, held, move⟩ | ⟨absent, _⟩
    · have spared : SparesRun id actor input := by
        by_contra exposed
        rw [removed.mpr exposed] at held
        cases held
      have tail := inductionHypothesis (actor.step input) after held stillInFlight leaves.2
      rw [move.spec_eq] at tail
      simpa [spared] using tail
    · refine iff_of_false ?_ (fun spares => removed.mp absent spares.1)
      have stillAbsent : ((actor.step input).run rest).activities.lookup id = none :=
        @Runs.invariant_after _ _ step (LeavesRun id)
          (fun reached => reached.activities.lookup id = none)
          (fun reached next gone admitted => absent_step gone admitted.1) _ rest absent leaves.2
      rintro ⟨kept, held, _⟩
      rw [run_cons, stillAbsent] at held
      cases held

/-- After the snooze of its run, an activity is present, snoozed under whatever
wrapper, and waits for the snooze to elapse. -/
def SnoozeHonoured (id : T) (actor : SchedulerActor T) (span : Duration)
    (readings : T → Reading) (spec : ActivitySpec T) : Prop :=
  ∃ snoozed, (actor.step ⟨.finish id (.snooze span), readings⟩).activities.lookup id = some snoozed ∧
    snoozed.spec = spec ∧ snoozed.state.stripped = .snoozed span ∧
    snoozed.activationTarget = .duration span

/-- A snooze is honoured exactly when its activity is still there. -/
theorem snooze_honoured_present_iff (id : T) (actor : SchedulerActor T) (span : Duration)
    (readings : T → Reading) (spec : ActivitySpec T) :
    SnoozeHonoured id actor span readings spec ↔
      ∃ kept, actor.activities.lookup id = some kept ∧ kept.spec = spec := by
  unfold SnoozeHonoured
  rw [lookup_step]
  cases held : actor.activities.lookup id with
  | none => simp [eventAt, Event.advance]
  | some kept => simp [eventAt, Event.advance, Activity.finish_snooze, ActivityState.stripped]

/-- A tick spares the runs in flight exactly when it finds no one-shot disabled
in flight at its target; and the snooze of a claimed activity is honoured
exactly when every tick since the claim spared it. -/
theorem snooze_honoured_iff (history : List (Input T)) :
    (∀ readings, SparesRuns (empty.run history) readings ↔
        ∀ id, ¬ Exposed id (empty.run history) readings) ∧
      ∀ id activity claiming between span snoozing,
        (empty.run history).activities.lookup id = some activity →
        id ∈ (empty.run history).claimed ⟨.claimDue, claiming⟩ →
        Runs.Along step (LeavesRun id) ((empty.run history).step ⟨.claimDue, claiming⟩) between →
          (SnoozeHonoured id (((empty.run history).step ⟨.claimDue, claiming⟩).run between)
              span snoozing activity.spec ↔
            Runs.Along step (SparesRun id)
              ((empty.run history).step ⟨.claimDue, claiming⟩) between) := by
  constructor
  · intro readings
    constructor
    · rintro spares id ⟨activity, present, wrapped, exposed⟩
      have running : activity.state.stripped = .running := by rw [wrapped]; rfl
      exact spares id activity present running
        ((tick_removes_run_iff id _ readings activity present running).mpr
          ⟨activity, present, wrapped, exposed⟩)
    · intro hidden id activity present running removed
      exact hidden id ((tick_removes_run_iff id _ readings activity present running).mp removed)
  · intro id activity claiming between span snoozing present reported leaves
    have inFlight := claim_in_flight id _ claiming (keyed_run history) reported
    have claimed : ((empty.run history).step ⟨.claimDue, claiming⟩).activities.lookup id =
        some (activity.claimIfDue (claiming id)).1 := by
      rw [lookup_step, present]
      rfl
    have sameSpec : (activity.claimIfDue (claiming id)).1.spec = activity.spec := by
      rw [Activity.claim_eq]
      split <;> rfl
    rw [snooze_honoured_present_iff, ← sameSpec]
    exact in_flight_kept_iff id _ between _ claimed inFlight leaves

/-- A one-shot for 100, due since the tick at 100. -/
def dueAt100 : List (Input Nat) :=
  [⟨.register ⟨1, .scheduled 100⟩, fun _ => .least 0 0⟩, ⟨.tick, fun _ => .least 100 100⟩]

/-- A reminder disabled and enabled again between two ticks is snoozed. -/
theorem snooze_honoured_enabled :
    SnoozeHonoured 1 (((empty.run dueAt100).step ⟨.claimDue, fun _ => .least 100 100⟩).run
        [⟨.tick, fun _ => .least 101 101⟩, ⟨.setEnabled 1 false, fun _ => .least 102 102⟩,
          ⟨.setEnabled 1 true, fun _ => .least 103 103⟩, ⟨.tick, fun _ => .least 104 104⟩])
      50 (fun _ => .least 110 110) ⟨1, .scheduled 100⟩ := by
  refine ((snooze_honoured_iff dueAt100).2 1 _ (fun _ => .least 100 100) _ 50
    (fun _ => .least 110 110) rfl (by decide) (by decide)).mpr ?_
  refine ⟨?_, ?_, ?_, ?_, trivial⟩
  · rintro _ ⟨activity, present, wrapped, _⟩
    obtain rfl := Option.some.inj present
    exact absurd wrapped (by decide)
  · intro ticks; cases ticks
  · intro ticks; cases ticks
  · rintro _ ⟨activity, present, wrapped, _⟩
    obtain rfl := Option.some.inj present
    exact absurd wrapped (by decide)

/-- A claimed reminder is disabled: the next tick removes it in flight, and its
snooze finds nothing. -/
theorem disabled_run_collected :
    ¬ SparesRuns (empty.run (dueAt100 ++ [⟨.claimDue, fun _ => .least 100 100⟩,
        ⟨.setEnabled 1 false, fun _ => .least 101 101⟩])) (fun _ => .least 102 102) ∧
      1 ∈ (empty.run dueAt100).claimed ⟨.claimDue, fun _ => .least 100 100⟩ ∧
      ¬ SnoozeHonoured 1 (((empty.run dueAt100).step ⟨.claimDue, fun _ => .least 100 100⟩).run
          [⟨.setEnabled 1 false, fun _ => .least 101 101⟩, ⟨.tick, fun _ => .least 102 102⟩])
        50 (fun _ => .least 110 110) ⟨1, .scheduled 100⟩ := by
  refine ⟨?_, by decide, ?_⟩
  · intro spares
    exact spares 1 _ rfl (by decide) (by decide)
  · rintro ⟨snoozed, present, _⟩
    cases present

end SchedulerActor

end Ritualist
