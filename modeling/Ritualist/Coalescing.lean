import Ritualist.Timing

/-!
# Ticks that coalesce

A tick reads the clock and never asks when it was last called. What it counts for
a waiting activity is the time since the last tick, so that two ticks count what
the later one alone would; and what it collects is still there to be collected
later, since a disabled activity accumulates nothing and the wall clock does not
go back. So of several ticks in a row only the last makes a difference.

The map after them is the same table, entry by entry and in the same order.
-/

namespace Ritualist

universe u
variable {T : Type u}

namespace Activity

/-- A disabled one-shot at its target is at its target later, by the wall clock. -/
theorem collectable_later (activity : Activity T) (first second : Reading)
    (inOrder : first.nowUtc ≤ second.nowUtc)
    (collectable : activity.isCollectable first = true) :
    activity.isCollectable second = true := by
  simp only [isCollectable, Bool.and_eq_true] at collectable ⊢
  refine ⟨collectable.1, ?_⟩
  have reached := collectable.2
  unfold isAtTarget at reached ⊢
  cases target : activity.activationTarget with
  | duration span => simpa [target] using reached
  | date moment =>
    have come : moment ≤ first.nowUtc := by simpa [target] using reached
    simpa using le_trans come inOrder

/-- A tick that does not collect an activity leaves what later ticks collect. -/
theorem tick_collectable (activity : Activity T) (first second : Reading)
    (uncollected : activity.isCollectable first = false) :
    (activity.tick first).isCollectable second = activity.isCollectable second := by
  have sameState : (activity.tick first).state = activity.state := by simp [tick_eq, uncollected]
  rw [isCollectable, isCollectable, tick_spec, sameState]
  by_cases disabled : activity.state.isDisabled = true
  · -- a disabled activity counts nothing, so its target is as far as it was
    have still : activity.state.isScheduled = false := by
      obtain ⟨prevState, wrapped⟩ := (ActivityState.disabled_iff activity.state).mp disabled
      rw [wrapped]; rfl
    have sameDelta : (activity.tick first).durationDelta = activity.durationDelta := by
      simp [tick_eq, still]
    rw [isAtTarget, isAtTarget, tick_target, sameDelta]
  · simp [disabled]

/-- Two ticks that collect nothing count what the second alone counts. -/
theorem tick_twice (activity : Activity T) (first second : Reading)
    (started : activity.lastTick ≤ first.now) (inOrder : first.now ≤ second.now)
    (uncollected : activity.isCollectable first = false) :
    (activity.tick first).tick second = activity.tick second := by
  have telescoped : first.now - activity.lastTick + (second.now - first.now) =
      second.now - activity.lastTick := by
    rw [Nat.add_comm]
    exact Nat.sub_add_sub_cancel inOrder started
  rw [tick_eq (activity.tick first), tick_collectable activity first second uncollected,
    tick_eq activity second, tick_eq activity first]
  by_cases waiting : activity.state.isScheduled = true
  · simp [uncollected, waiting, Nat.add_assoc, telescoped]
  · simp [uncollected, waiting]

/-- An earlier tick makes no difference to what a later one leaves of an entry. -/
theorem tick_absorbed (activity : Activity T) (first second : Reading)
    (started : activity.lastTick ≤ first.now) (inOrder : first.now ≤ second.now)
    (wallInOrder : first.nowUtc ≤ second.nowUtc) :
    Event.tick.advance second (Event.tick.advance first (some activity)) =
      Event.tick.advance second (some activity) := by
  by_cases collectable : activity.isCollectable first = true
  · have later := activity.collectable_later first second wallInOrder collectable
    simp [Event.advance, tick_eq, collectable, later]
  · have uncollected : activity.isCollectable first = false := by simpa using collectable
    have twice := activity.tick_twice first second started inOrder uncollected
    by_cases marked : activity.state = .gc
    · -- no tick leaves an entry in this state, so it is the second alone that drops it
      simp [Event.advance, tick_eq, uncollected, marked]
    · have kept : (activity.tick first).state ≠ .gc := by simpa [tick_eq, uncollected] using marked
      simp [Event.advance, kept, twice]

end Activity

variable [DecidableEq T]

namespace SchedulerActor

/-- Ticks whose readings never go back, in either view of time, and are not before
the last tick of any entry. -/
structure TicksInTime (actor : SchedulerActor T) (ticks : List (Input T)) : Prop where
  commands : ∀ input ∈ ticks, input.command = .tick
  clocked : ∀ id ∈ actor.activities, Clocked id ticks
  wallClocked : ∀ id ∈ actor.activities, WallClocked id ticks
  started : ∀ id, actor.EntrySatisfies id fun activity =>
    ∀ input ∈ ticks, activity.lastTick ≤ input.nowAt id

/-- The table after a tick. -/
theorem tick_activities (actor : SchedulerActor T) (readings : T → Reading) :
    (actor.step ⟨.tick, readings⟩).activities =
      Table.revise (fun id activity => Event.tick.advance (readings id) (some activity))
        actor.activities := rfl

/-- Of two ticks in order, the later leaves what both leave. -/
theorem step_tick_absorbed (actor : SchedulerActor T) (first second : T → Reading)
    (inOrder : ∀ id activity, actor.activities.lookup id = some activity →
      activity.lastTick ≤ (first id).now ∧ (first id).now ≤ (second id).now ∧
        (first id).nowUtc ≤ (second id).nowUtc) :
    (actor.step ⟨.tick, first⟩).step ⟨.tick, second⟩ = actor.step ⟨.tick, second⟩ := by
  have sameTable : ((actor.step ⟨.tick, first⟩).step ⟨.tick, second⟩).activities =
      (actor.step ⟨.tick, second⟩).activities := by
    rw [tick_activities, tick_activities, tick_activities, Table.revise_twice]
    apply Table.revise_congr
    intro id activity present
    obtain ⟨started, clocked, wallClocked⟩ := inOrder id activity present
    have absorbed := activity.tick_absorbed (first id) (second id) started clocked wallClocked
    simpa [Event.advance] using absorbed
  exact congrArg SchedulerActor.mk sameTable

/-- Ticks in time are pairwise absorbed by the later ones. -/
theorem TicksInTime.absorbed {actor : SchedulerActor T} {ticks : List (Input T)}
    (inTime : TicksInTime actor ticks) :
    ticks.Pairwise fun first second =>
      (actor.step first).step second = actor.step second := by
  rw [List.pairwise_iff_forall_sublist]
  intro first second inList
  have firstIn : first ∈ ticks := inList.subset (by simp)
  have secondIn : second ∈ ticks := inList.subset (by simp)
  obtain ⟨firstCommand, firstReadings⟩ := first
  obtain ⟨secondCommand, secondReadings⟩ := second
  obtain rfl : firstCommand = .tick := inTime.commands _ firstIn
  obtain rfl : secondCommand = .tick := inTime.commands _ secondIn
  apply step_tick_absorbed
  intro id activity held
  have present : id ∈ actor.activities := by
    rw [← AList.lookup_isSome, held]
    rfl
  have clocked := (inTime.clocked id present).sublist (inList.map (Input.nowAt id))
  have wallClocked := (inTime.wallClocked id present).sublist (inList.map (Input.wallAt id))
  refine ⟨inTime.started id activity held _ firstIn, ?_, ?_⟩
  · simpa [Input.nowAt] using clocked
  · simpa [Input.wallAt] using wallClocked

/-- Ticks coalesce. In every reachable map, a non-empty list of ticks in time leaves
exactly the map that the last of them leaves alone, whatever the states and the
targets of its entries; and a tick repeated at its own readings changes nothing. -/
theorem ticks_coalesce (history : List (Input T)) (ticks : List (Input T)) (final : Input T)
    (inTime : TicksInTime (empty.run history) (ticks ++ [final])) :
    (empty.run history).run (ticks ++ [final]) = (empty.run history).step final ∧
      ((empty.run history).step final).step final = (empty.run history).step final := by
  constructor
  · exact Runs.run_last (empty.run history) ticks final inTime.absorbed
  · have last : final ∈ ticks ++ [final] := by simp
    obtain ⟨command, readings⟩ := final
    obtain rfl : command = .tick := inTime.commands _ last
    apply step_tick_absorbed
    intro id activity held
    exact ⟨inTime.started id activity held _ last, le_rfl, le_rfl⟩

/-- An interval activity that waits, and a reminder for 100 that is disabled. -/
def intervalAndReminder : List (Input Nat) :=
  [⟨.register ⟨1, .fixedInterval 500⟩, fun _ => .least 0 0⟩,
    ⟨.register ⟨2, .scheduled 100⟩, fun _ => .least 0 0⟩,
    ⟨.setEnabled 2 false, fun _ => .least 10 10⟩]

/-- Ticks at 50 and 120, the second of which collects the reminder, make no
difference to the one at 130. -/
theorem burst_coalesces :
    (empty.run intervalAndReminder).run ([⟨.tick, fun _ => .least 50 50⟩,
        ⟨.tick, fun _ => .least 120 120⟩] ++ [⟨.tick, fun _ => .least 130 130⟩]) =
      (empty.run intervalAndReminder).step ⟨.tick, fun _ => .least 130 130⟩ := by
  refine (ticks_coalesce intervalAndReminder _ _ ⟨?_, ?_, ?_, ?_⟩).1
  · simp
  · intro id _
    simp [Input.nowAt, Reading.least]
  · intro id _
    simp [Input.wallAt, Reading.least]
  · intro id activity held input member
    have early : activity.lastTick ≤ 10 :=
      last_tick_le id intervalAndReminder 10 (by simp [intervalAndReminder, Input.nowAt,
        Reading.least]) activity held
    have late : 10 ≤ input.nowAt id := by
      simp only [List.mem_append, List.mem_cons, List.not_mem_nil, or_false] at member
      rcases member with (rfl | rfl) | rfl <;> exact Nat.le_of_ble_eq_true rfl
    exact early.trans late

end SchedulerActor

end Ritualist
