import Ritualist.Driver

/-!
# Acknowledgements of runs whose activity was replaced

An acknowledgement carries the id of its run and nothing else. While it is under
way its activity can be reset, or collected and registered again; the actor then
applies it to the new activity, which has the same id. So the new activity stays
as it is exactly when it already is as the acknowledgement would leave it:
`stale_acknowledgement_iff`.
-/

namespace Ritualist

universe u
variable {T : Type u} [DecidableEq T]

namespace World

/-- An interleaving has reached a world in which the next command is the
acknowledgement of a run whose id was inserted again since its claim. -/
structure Stale (bufferSize : Nat) (world : World T) (run : Run T) (ack : AckMessage)
    (rest : List (Message T)) : Prop where
  reached : Reachable bufferSize world
  next : world.queue = .finish run ack :: rest
  replaced : run.birth < world.births run.id

/-- The entry of an id, if there is one, is not removed and keeps its state, its
target and its accumulated time. -/
def KeepsEntry (id : T) (before after : SchedulerActor T) : Prop :=
  before.EntrySatisfies id fun activity => ∃ kept, after.activities.lookup id = some kept ∧
    kept.state = activity.state ∧ kept.activationTarget = activity.activationTarget ∧
    kept.durationDelta = activity.durationDelta

/-- The activity already is as an acknowledgement would leave it. -/
def AlreadyAcknowledged (reading : Reading) (activity : Activity T) : AckMessage → Prop
  | .snooze span =>
    activity.state = .snoozed span ∧ activity.activationTarget = .duration span ∧
      activity.durationDelta = 0
  | .done =>
    activity.spec.schedule.isOneShot = false ∧ activity.state = .idle ∧
      activity.activationTarget = .fromSchedule reading.rng activity.spec.schedule ∧
      activity.durationDelta = 0

/-- What the actor does to the entry of the run acknowledged next. -/
theorem acknowledged_lookup {world : World T} {run : Run T} {ack : AckMessage}
    {rest : List (Message T)} (next : world.queue = .finish run ack :: rest)
    (readings : T → Reading) (activity : Activity T)
    (present : world.actor.activities.lookup run.id = some activity) :
    (world.processFirst readings).actor.activities.lookup run.id =
      if (activity.finish ack (readings run.id)).state = .completed then none
      else some (activity.finish ack (readings run.id)) := by
  rw [processFirst, next]
  change (world.actor.step ⟨.finish run.id ack, readings⟩).activities.lookup run.id = _
  rw [SchedulerActor.lookup_step, present]
  simp [SchedulerActor.eventAt, Event.advance]

omit [DecidableEq T] in
/-- An acknowledgement keeps an activity exactly when it already is as the
acknowledgement leaves it. -/
theorem finish_keeps_iff (activity : Activity T) (ack : AckMessage) (reading : Reading) :
    ((activity.finish ack reading).state ≠ .completed ∧
        (activity.finish ack reading).state = activity.state ∧
        (activity.finish ack reading).activationTarget = activity.activationTarget ∧
        (activity.finish ack reading).durationDelta = activity.durationDelta) ↔
      AlreadyAcknowledged reading activity ack := by
  cases ack with
  | snooze span =>
    simp only [Activity.finish_snooze, AlreadyAcknowledged, ne_eq, reduceCtorEq,
      not_false_eq_true, true_and]
    constructor
    · rintro ⟨state, target, delta⟩
      exact ⟨state.symm, target.symm, delta.symm⟩
    · rintro ⟨state, target, delta⟩
      exact ⟨state.symm, target.symm, delta.symm⟩
  | done =>
    rw [Activity.finish_done]
    cases oneShot : activity.spec.schedule.isOneShot with
    | true => simp [AlreadyAcknowledged, oneShot]
    | false =>
      simp only [AlreadyAcknowledged, oneShot, Bool.false_eq_true, if_false, ne_eq, reduceCtorEq,
        not_false_eq_true, true_and]
      constructor
      · rintro ⟨state, target, delta⟩
        exact ⟨state.symm, target.symm, delta.symm⟩
      · rintro ⟨state, target, delta⟩
        exact ⟨state.symm, target.symm, delta.symm⟩

/-- In every interleaving, the acknowledgement of a run whose activity was
replaced leaves the new activity as it was exactly when there is none, or when it
already is as the acknowledgement would leave it. -/
theorem stale_acknowledgement_iff (bufferSize : Nat) (world : World T) (run : Run T)
    (ack : AckMessage) (rest : List (Message T)) (stale : Stale bufferSize world run ack rest)
    (readings : T → Reading) :
    KeepsEntry run.id world.actor (world.processFirst readings).actor ↔
      world.actor.EntrySatisfies run.id fun activity =>
        AlreadyAcknowledged (readings run.id) activity ack := by
  constructor
  · intro keeps activity present
    obtain ⟨kept, held, same⟩ := keeps activity present
    rw [acknowledged_lookup stale.next readings activity present] at held
    split at held
    · cases held
    · obtain rfl := Option.some.inj held
      exact (finish_keeps_iff activity ack _).mp ⟨‹_›, same⟩
  · intro already activity present
    obtain ⟨remains, same⟩ := (finish_keeps_iff activity ack _).mpr (already activity present)
    refine ⟨_, ?_, same⟩
    rw [acknowledged_lookup stale.next readings activity present, if_neg remains]

/-- A client resets a one-shot while its run is handled, and then the run is
acknowledged: the new activity is in the map when the acknowledgement is next. -/
theorem reset_in_flight_reachable (schedule : ActivitySchedule)
    (valid : (⟨1, schedule⟩ : ActivitySpec Nat).validate = .ok ()) :
    ∃ world run, Stale 4 world run .done [] ∧ run.id = 1 ∧
      world.actor.activities.lookup 1 = some (Activity.new ⟨1, schedule⟩ (.least 110 110)) := by
  have registered : Reachable 4 _ := .tail (.tail .refl
      (.request World.initial (.register ⟨1, .scheduled 100⟩) _ rfl (by decide)))
    (.process _ _ _ rfl fun _ => .least 0 0)
  have claimed := (((registered.tail (.tick _ rfl (by decide))).tail
    (.process _ _ _ rfl fun _ => .least 100 100)).tail (.claimDue _ rfl (by decide))).tail
    (.process _ _ _ rfl fun _ => .least 100 100)
  have received := (((claimed.tail (.collect _ _ rfl)).tail (.spawn _ _ _ rfl)).tail
    (.deliver _ [] _ [] rfl rfl (by decide))).tail (.receive _ _ _ rfl)
  have reset := (received.tail (.request _ (.reset ⟨1, schedule⟩) (.reset ⟨1, schedule⟩)
      (by rw [Request.command, valid]; rfl) (by decide))).tail
    (.process _ _ _ rfl fun _ => .least 110 110)
  have acknowledged := (reset.tail (.acknowledge _ ⟨1, 0, 1⟩ .done List.mem_cons_self)).tail
    (.finish _ [] _ _ [] rfl (Nat.succ_pos 3))
  exact ⟨_, _, ⟨acknowledged, rfl, Nat.lt_succ_self 1⟩, rfl, rfl⟩

/-- An interval activity that is reset and not ticked since is kept by the late
acknowledgement of its predecessor. -/
theorem stale_acknowledgement_harmless :
    ∃ (world : World Nat) (run : Run Nat), Stale 4 world run .done [] ∧ run.id = 1 ∧
      KeepsEntry run.id world.actor (world.processFirst fun _ => .least 120 120).actor := by
  obtain ⟨world, run, stale, sameId, present⟩ := reset_in_flight_reachable (.fixedInterval 20) rfl
  refine ⟨world, run, stale, sameId, ?_⟩
  apply (stale_acknowledgement_iff 4 world run .done [] stale _).mpr
  intro activity held
  rw [sameId, present] at held
  obtain rfl := Option.some.inj held
  exact ⟨rfl, rfl, rfl, rfl⟩

/-- A client resets a reminder to a later date while its run is handled, and
acknowledges the run: the new reminder is removed. -/
theorem reset_reminder_removed :
    ∃ (world : World Nat) (run : Run Nat), Stale 4 world run .done [] ∧
      world.actor.activities.lookup run.id =
        some (Activity.new ⟨1, .scheduled 1000⟩ (.least 110 110)) ∧
      (world.processFirst fun _ => .least 120 120).actor.activities.lookup run.id = none ∧
      ¬ KeepsEntry run.id world.actor (world.processFirst fun _ => .least 120 120).actor := by
  obtain ⟨world, run, stale, sameId, present⟩ := reset_in_flight_reachable (.scheduled 1000) rfl
  have replacement : world.actor.activities.lookup run.id =
      some (Activity.new ⟨1, .scheduled 1000⟩ (.least 110 110)) := by
    rw [sameId]
    exact present
  have removed : (world.processFirst fun _ => .least 120 120).actor.activities.lookup run.id =
      none := by
    rw [acknowledged_lookup stale.next _ _ replacement]
    rfl
  refine ⟨world, run, stale, replacement, removed, fun keeps => ?_⟩
  obtain ⟨kept, held, _⟩ := keeps _ replacement
  rw [removed] at held
  cases held

end World

end Ritualist
