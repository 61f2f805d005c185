import Ritualist.Entries

/-!
# Disabling and the acknowledgements that undo it

A disabled activity is not claimed while it stays wrapped. Ticks, claims,
dispatches and further disabling keep the wrapper; enabling and insertion are
meant to end the pause. An acknowledgement overwrites the state without looking
at the wrapper, so one that arrives during the pause ends it too, unless it
completes a one-shot and removes the entry.

`pause_exact` says that this is the only exception: a pause without such an
acknowledgement lasts until it is ended, and each such acknowledgement can be
followed by a claim although nothing enabled or inserted the activity.
-/

namespace Ritualist

universe u
variable {T : Type u} [DecidableEq T]

namespace SchedulerActor

/-- The input neither inserts the activity anew nor enables it. -/
def LeavesPaused (id : T) (actor : SchedulerActor T) (input : Input T) : Prop :=
  ¬ actor.inserts id input ∧ input.command ≠ .setEnabled id true

instance leavesPausedDecidable (id : T) (actor : SchedulerActor T) (input : Input T) :
    Decidable (LeavesPaused id actor input) :=
  inferInstanceAs (Decidable (_ ∧ _))

/-- The input acknowledges a run of a disabled activity and restarts it: any
acknowledgement but the one that completes a one-shot. -/
def Revives (id : T) (actor : SchedulerActor T) (input : Input T) : Prop :=
  ∃ ack activity, input.command = .finish id ack ∧
    actor.activities.lookup id = some activity ∧ activity.state.isDisabled = true ∧
    ¬ (ack = .done ∧ activity.spec.schedule.isOneShot = true)

/-- The entry of an id is disabled, if there is one. -/
def Paused (id : T) (actor : SchedulerActor T) : Prop :=
  actor.Keyed ∧ actor.EntrySatisfies id fun activity => activity.state.isDisabled = true

/-- The actor after it disabled an id. -/
def disable (actor : SchedulerActor T) (id : T) (readings : T → Reading) : SchedulerActor T :=
  actor.step ⟨.setEnabled id false, readings⟩

/-- Disabling an id pauses its entry. -/
theorem disable_pauses (id : T) (actor : SchedulerActor T) (readings : T → Reading)
    (keyed : actor.Keyed) : Paused id (actor.disable id readings) := by
  refine ⟨keyed_step _ keyed, ?_⟩
  intro activity present
  rw [disable, lookup_step] at present
  obtain ⟨before, _, rfl⟩ : ∃ before, actor.activities.lookup id = some before ∧
      before.setEnabled false = activity := by
    simpa [eventAt, Event.advance] using present
  exact before.set_enabled_false

/-- A pause outlasts every input that does not end it. -/
theorem paused_step (id : T) (actor : SchedulerActor T) (input : Input T)
    (paused : Paused id actor) (leaves : LeavesPaused id actor input)
    (unrevived : ¬ Revives id actor input) : Paused id (actor.step input) := by
  refine ⟨keyed_step input paused.1, entry_step ?_ ?_ paused.2⟩
  · intro spec inserted
    exact absurd ⟨spec, inserted⟩ leaves.1
  · intro before after present move disabled
    generalize event : actor.eventAt id input.command = happened at move
    cases move with
    | tick _ survives => rw [Activity.tick_state_of_survives before _ survives]; exact disabled
    | setEnabled _ enabled =>
      cases enabled with
      | true => exact absurd ((event_set_enabled_iff actor id _ true).mp event) leaves.2
      | false => exact before.set_enabled_false
    | claimDue =>
      rw [Activity.claim_eq, Activity.should_run_disabled before _ disabled]
      exact disabled
    | setImmediate => rw [Activity.set_immediate_eq]; exact disabled
    | finish _ ack remains =>
      exfalso
      refine unrevived ⟨ack, before, (event_finish_iff actor id _ ack).mp event, present,
        disabled, ?_⟩
      rintro ⟨rfl, oneShot⟩
      exact remains (by simp [Activity.finish_done, oneShot])
    | skip => exact disabled

/-- No claim reports a paused id. -/
theorem paused_not_claimed (id : T) (actor : SchedulerActor T) (input : Input T)
    (paused : Paused id actor) : id ∉ actor.claimed input := by
  intro reported
  obtain ⟨_, activity, present, due⟩ := (mem_claimed_iff paused.1 input).mp reported
  rw [Activity.should_run_disabled activity _ (paused.2 activity present)] at due
  cases due

/-- After an acknowledgement that restarts it, an activity is enabled and waits
for a span. -/
theorem revived_entry (id : T) (actor : SchedulerActor T) (input : Input T)
    (revives : Revives id actor input) :
    ∃ activity span, (actor.step input).activities.lookup id = some activity ∧
      activity.state.isScheduled = true ∧ activity.activationTarget = .duration span := by
  obtain ⟨ack, before, command, present, _, restarts⟩ := revives
  have event : actor.eventAt id input.command = .finish ack :=
    (event_finish_iff actor id input.command ack).mpr command
  rw [lookup_step, event, present]
  cases ack with
  | snooze duration =>
    exact ⟨_, duration, by simp [Event.advance, Activity.finish_snooze]; rfl, rfl, rfl⟩
  | done =>
    have interval : before.spec.schedule.isOneShot = false := by
      simpa using restarts
    rcases from_schedule_kind (input.readings id).rng before.spec.schedule with
      ⟨date, scheduled, _⟩ | ⟨_, span, target⟩
    · simp [scheduled, ActivitySchedule.isOneShot] at interval
    · exact ⟨_, span, by simp [Event.advance, Activity.finish_done, interval]; rfl, rfl, target⟩

/-- The pause law for one run: while nothing inserts or enables the id after it
is disabled, no claim reports it. -/
def PauseHolds (actor : SchedulerActor T) (pausing : T → Reading) (id : T)
    (later : List (Input T)) : Prop :=
  Runs.Along step (LeavesPaused id) (actor.disable id pausing) later →
    Runs.Along step (fun reached input => id ∉ reached.claimed input)
      (actor.disable id pausing) later

instance pauseHoldsDecidable (actor : SchedulerActor T) (pausing : T → Reading) (id : T)
    (later : List (Input T)) : Decidable (PauseHolds actor pausing id later) :=
  inferInstanceAs (Decidable (_ → _))

/-- An acknowledgement restarts a disabled activity, and a dispatch makes the
restarted activity due: two more commands end the pause with a claim. -/
theorem revived_claimed (id : T) (actor : SchedulerActor T) (input : Input T)
    (keyed : actor.Keyed) (revives : Revives id actor input) (readings : T → Reading) :
    id ∈ ((actor.step input).step ⟨.setImmediate id, readings⟩).claimed ⟨.claimDue, readings⟩ := by
  obtain ⟨activity, span, present, waiting, target⟩ := revived_entry id actor input revives
  have dispatched : ((actor.step input).step ⟨.setImmediate id, readings⟩).activities.lookup id =
      some { activity with activationTarget := .duration 0 } := by
    rw [lookup_step, present]
    simp [eventAt, Event.advance, Activity.set_immediate_eq, target]
  refine (mem_claimed_iff (keyed_step _ (keyed_step _ keyed)) _).mpr ⟨rfl, _, dispatched, ?_⟩
  rw [Activity.should_run_iff]
  exact ⟨waiting, by simp [Activity.isAtTarget]⟩

/-- A run that reaches a reviving acknowledgement extends to one that breaks the
pause law, by a dispatch and a claim after the acknowledgement. -/
theorem revived_breaks (actor : SchedulerActor T) (pausing : T → Reading) (id : T)
    (later : List (Input T)) (input : Input T) (keyed : actor.Keyed)
    (leaves : Runs.Along step (LeavesPaused id) (actor.disable id pausing) later)
    (revives : Revives id ((actor.disable id pausing).run later) input) :
    ¬ PauseHolds actor pausing id
      (later ++ [input, ⟨.setImmediate id, pausing⟩, ⟨.claimDue, pausing⟩]) := by
  have keyedLater : ((actor.disable id pausing).run later).Keyed :=
    keyed_after (keyed_step _ keyed) later
  have reported := revived_claimed id _ input keyedLater revives pausing
  obtain ⟨ack, _, command, _⟩ := revives
  have admitted : LeavesPaused id ((actor.disable id pausing).run later) input := by
    simp [LeavesPaused, inserts, command, eventAt]
  intro holds
  have unreported := (Runs.along_append _ later _).mp (holds ((Runs.along_append _ later _).mpr
    ⟨leaves, admitted, by simp [LeavesPaused, inserts, eventAt]⟩))
  exact unreported.2.2.2.1 reported

/-- The pause law fails through acknowledgements only. A run without one that
restarts the disabled activity obeys the law, and every run that reaches one
extends to a run that breaks it.

The invariant of the first part is that the entry stays wrapped. For the second,
the acknowledged activity waits for a span, whatever its schedule, so that a
dispatch makes it due at once. -/
theorem pause_exact (history : List (Input T)) (pausing : T → Reading) (id : T) :
    (∀ later, Runs.Along step (fun actor input => ¬ Revives id actor input)
        ((empty.run history).disable id pausing) later →
      PauseHolds (empty.run history) pausing id later) ∧
    ∀ later input,
      Runs.Along step (LeavesPaused id) ((empty.run history).disable id pausing) later →
        Revives id (((empty.run history).disable id pausing).run later) input →
          ∃ more, ¬ PauseHolds (empty.run history) pausing id (later ++ input :: more) := by
  have keyed : (empty.run history : SchedulerActor T).Keyed := keyed_run history
  constructor
  · intro later unrevived leaves
    exact Runs.invariant_along (fun actor input paused admitted =>
        paused_step id actor input paused admitted.1 admitted.2)
      (fun actor input paused _ => paused_not_claimed id actor input paused)
      (disable_pauses id _ pausing keyed) (leaves.and unrevived)
  · intro later input leaves revives
    exact ⟨_, revived_breaks _ pausing id later input keyed leaves revives⟩

/-- A pause law instance: ticks, a dispatch and a claim during the pause. -/
theorem pause_exact_dispatched :
    PauseHolds (empty.run [⟨.register ⟨1, .fixedInterval 100⟩, fun _ => .least 0 0⟩])
      (fun _ => .least 5 5) 1
      [⟨.tick, fun _ => .least 200 200⟩, ⟨.setImmediate 1, fun _ => .least 200 200⟩,
        ⟨.claimDue, fun _ => .least 200 200⟩] :=
  (pause_exact _ _ 1).1 _ ⟨by simp [Revives], by simp [Revives], by simp [Revives], trivial⟩

/-- An activity with an interval of 100, claimed at 100. -/
def inFlightAt100 : SchedulerActor Nat :=
  empty.run [⟨.register ⟨1, .fixedInterval 100⟩, fun _ => .least 0 0⟩,
    ⟨.tick, fun _ => .least 100 100⟩, ⟨.claimDue, fun _ => .least 100 100⟩]

/-- An interval activity claimed at 100, disabled during its run and acknowledged
there, is claimed again at 200 although nothing enabled it. -/
theorem acknowledgement_ends_pause :
    1 ∈ (inFlightAt100.disable 1 fun _ => .least 100 100).activities ∧
      ¬ PauseHolds inFlightAt100 (fun _ => .least 100 100) 1
        [⟨.finish 1 .done, fun _ => .least 110 110⟩, ⟨.tick, fun _ => .least 200 200⟩,
          ⟨.claimDue, fun _ => .least 200 200⟩] := by decide

end SchedulerActor

end Ritualist
