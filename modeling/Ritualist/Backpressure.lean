import Mathlib.Algebra.BigOperators.Group.Finset.Basic
import Mathlib.Algebra.Order.BigOperators.Group.Finset
import Mathlib.Data.Fintype.Basic
import Ritualist.Occupancy
import Ritualist.Turns

/-!
# What is under way is bounded

Consumers may be as slow as they like, and clients and tasks send whenever they can.
The two channels hold no more than the buffer size, as whoever would exceed it waits.
Nothing limits the number of dispatch tasks as such. But there is one for each
outstanding run at most, and an id has no more of these than times it was inserted, as
long as acknowledgements come from the tasks alone. So neither polling nor waiting for
consumers makes what is under way grow: while no activity is replaced, there is at most
one task for each.
-/

namespace Ritualist

universe u
variable {T : Type u} [DecidableEq T]

namespace World

/-- Neither channel holds more than its capacity. -/
structure Roomy (bufferSize : Nat) (world : World T) : Prop where
  queue : world.queue.length ≤ bufferSize
  channel : world.channel.length ≤ bufferSize

/-- Sending waits for room, and nothing else fills a channel. -/
theorem roomy_step {bufferSize : Nat} {before after : World T}
    (step : Step bufferSize before after) (roomy : before.Roomy bufferSize) :
    after.Roomy bufferSize := by
  obtain ⟨queue, channel⟩ := roomy
  have longer : ∀ message : Message T, before.queue.length < bufferSize →
      (before.queue ++ [message]).length ≤ bufferSize := by
    intro message room
    rw [List.length_append]
    exact room
  cases step with
  | request request command accepted room => exact ⟨longer _ room, channel⟩
  | tick selecting room => exact ⟨longer _ room, channel⟩
  | claimDue claiming room => exact ⟨longer _ room, channel⟩
  | finish front run ack back live room => exact ⟨longer _ room, channel⟩
  | deliver front run back live receiving room =>
    refine ⟨queue, ?_⟩
    simp only [put, setTasks, List.length_append]
    exact room
  | receive run rest oldest =>
    rw [oldest] at channel
    exact ⟨queue, Nat.le_of_succ_le channel⟩
  | dropReceiver receiving => exact ⟨queue, Nat.zero_le _⟩
  | process message rest first readings =>
    rw [first] at queue
    exact ⟨Nat.le_of_succ_le queue, channel⟩
  | _ => exact ⟨queue, channel⟩

/-- No interleaving fills a channel beyond its capacity. -/
theorem roomy_reachable {bufferSize : Nat} {world : World T} (reached : Reachable bufferSize world) :
    world.Roomy bufferSize := by
  induction reached with
  | refl => exact ⟨Nat.zero_le _, Nat.zero_le _⟩
  | tail _ step inductionHypothesis => exact roomy_step step inductionHypothesis

/-- The runs that are outstanding are no more than the insertions of their ids. -/
theorem outstanding_le {bufferSize : Nat} {world : World T} (reached : Reachable bufferSize world)
    (ids : Finset T) (inserted : ∀ id, world.births id ≠ 0 → id ∈ ids) :
    world.outstanding.length ≤ ∑ id ∈ ids, world.births id := by
  obtain ⟨_, housed⟩ := housed_reachable reached
  have counted : ∀ id, (world.outstanding.map Run.id).count id ≤ world.births id := by
    intro id
    have here := housed id
    have same : (world.outstanding.map Run.id).count id = world.runsOf id := by
      rw [runsOf, List.count, List.countP_map]
      rfl
    omega
  have covered : ∀ id ∈ (world.outstanding.map Run.id : Multiset T), id ∈ ids := by
    intro id member
    have positive : 0 < (world.outstanding.map Run.id).count id := List.count_pos_iff.mpr member
    exact inserted id (positive.trans_le (counted id)).ne'
  calc world.outstanding.length
      = Multiset.card (world.outstanding.map Run.id : Multiset T) := by simp
    _ = ∑ id ∈ ids, (world.outstanding.map Run.id : Multiset T).count id :=
        (Multiset.sum_count_eq_card covered).symm
    _ ≤ ∑ id ∈ ids, world.births id := by
        refine Finset.sum_le_sum fun id _ => ?_
        rw [Multiset.coe_count]
        exact counted id

/-- What is under way is bounded, however slow the consumers are. In every interleaving
neither channel exceeds the buffer size, and there are no more due ids to spawn and
dispatch tasks together than insertions. While nothing is cut, what lies on the
channel or is held by a consumer is no more than the tasks. -/
theorem under_way_bounded (bufferSize : Nat) (world : World T)
    (reached : Reachable bufferSize world) (ids : Finset T)
    (inserted : ∀ id, world.births id ≠ 0 → id ∈ ids) :
    world.queue.length ≤ bufferSize ∧ world.channel.length ≤ bufferSize ∧
      world.driver.runs.length + world.tasks.length ≤ ∑ id ∈ ids, world.births id ∧
      (world.Uncut → world.channel.length + world.held.length ≤ world.tasks.length) := by
  obtain ⟨queue, channel⟩ := roomy_reachable reached
  refine ⟨queue, channel, ?_, fun uncut => ?_⟩
  · have part : world.driver.runs.length + world.tasks.length ≤ world.outstanding.length := by
      simp only [outstanding, List.length_append, List.length_map]
      exact Nat.le_add_right _ _
    exact part.trans (outstanding_le reached ids inserted)
  · calc world.channel.length + world.held.length
        = (world.channel ++ world.held).length := List.length_append.symm
      _ = world.waitingRuns.length := (entrusted_reachable reached uncut).length_eq
      _ ≤ world.tasks.length := by
          rw [waitingRuns, List.length_map]
          exact List.length_filter_le _ _

/-- One of two ids is registered, and its run is delivered. -/
def oneOfTwo : List (Turn Bool) :=
  [Turn.request (.register ⟨true, .fixedInterval 10⟩), Turn.process fun _ => .least 0 0, Turn.tick,
    Turn.claimDue, Turn.process fun _ => .least 10 10, Turn.process fun _ => .least 10 10,
    Turn.collect, Turn.spawn, Turn.deliver 0]

/-- There is one task for the one insertion. -/
theorem one_of_two_bounded :
    (World.reached oneOfTwo).tasks.length = 1 ∧
      (World.reached oneOfTwo).tasks.length ≤ ∑ id, (World.reached oneOfTwo).births id := by
  obtain ⟨_, _, bounded, _⟩ := under_way_bounded 4 (World.reached oneOfTwo)
    (reached_reachable (by decide)) Finset.univ fun id _ => Finset.mem_univ id
  exact ⟨by decide, (Nat.le_add_left _ _).trans bounded⟩

example : ∑ id, (World.reached oneOfTwo).births id = 1 := by decide

end World

end Ritualist
