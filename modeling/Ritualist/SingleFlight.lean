import Ritualist.Entries

/-!
# One run of an activity at a time

From the claim that starts a run to the acknowledgement that ends it, the entry
stays running under whatever wrapper, or is absent: ticks, enabling and
disabling, dispatches and further claims may wrap it, unwrap it, collect it or
make its target immediate, but a running activity is not waiting, so none of
them lets a claim report it again. Only an acknowledgement for the id or a new
insertion of it can end that.
-/

namespace Ritualist

universe u
variable {T : Type u} [DecidableEq T]

namespace SchedulerActor

/-- The id whose run a command acknowledges. -/
def acknowledged : Command T → Option T
  | .finish id _ => some id
  | _ => none

/-- The input acknowledges a run of the id. -/
def Acknowledges (id : T) (input : Input T) : Prop := acknowledged input.command = some id

instance acknowledgesDecidable (id : T) (input : Input T) : Decidable (Acknowledges id input) :=
  inferInstanceAs (Decidable (acknowledged input.command = some id))

omit [DecidableEq T] in
/-- An acknowledgement is a command of that kind for the id. -/
theorem acknowledges_iff (id : T) (input : Input T) :
    Acknowledges id input ↔ ∃ ack, input.command = .finish id ack := by
  cases command : input.command <;> simp [Acknowledges, acknowledged, command]

/-- The input neither acknowledges a run of the id nor inserts it anew. -/
def LeavesRun (id : T) (actor : SchedulerActor T) (input : Input T) : Prop :=
  ¬ actor.inserts id input ∧ ¬ Acknowledges id input

instance leavesRunDecidable (id : T) (actor : SchedulerActor T) (input : Input T) :
    Decidable (LeavesRun id actor input) :=
  inferInstanceAs (Decidable (_ ∧ _))

/-- No acknowledgement leaves a run alone. -/
theorem LeavesRun.unfinished {id : T} {actor : SchedulerActor T} {input : Input T}
    (leaves : LeavesRun id actor input) (ack : AckMessage) :
    actor.eventAt id input.command ≠ .finish ack := by
  intro event
  have command := (event_finish_iff actor id input.command ack).mp event
  exact leaves.2 ((acknowledges_iff id input).mpr ⟨ack, command⟩)

/-- The entry of an id is running, wrapped or not, if there is one. -/
def InFlight (id : T) (actor : SchedulerActor T) : Prop :=
  actor.Keyed ∧ actor.EntrySatisfies id fun activity => activity.state.stripped = .running

/-- A claim that reports an id leaves it in flight. -/
theorem claim_in_flight (id : T) (actor : SchedulerActor T) (readings : T → Reading)
    (keyed : actor.Keyed) (reported : id ∈ actor.claimed ⟨.claimDue, readings⟩) :
    InFlight id (actor.step ⟨.claimDue, readings⟩) := by
  obtain ⟨_, activity, present, due⟩ := (mem_claimed_iff keyed _).mp reported
  refine ⟨keyed_step _ keyed, ?_⟩
  intro after held
  rw [lookup_step, present] at held
  obtain rfl : (activity.claimIfDue (readings id)).1 = after := Option.some.inj held
  rw [Activity.claim_eq, if_pos due]
  rfl

/-- A run in flight outlasts every input that neither acknowledges it nor
inserts its id anew. -/
theorem in_flight_step (id : T) (actor : SchedulerActor T) (input : Input T)
    (inFlight : InFlight id actor) (leaves : LeavesRun id actor input) :
    InFlight id (actor.step input) := by
  refine ⟨keyed_step input inFlight.1, entry_step ?_ ?_ inFlight.2⟩
  · intro spec inserted
    exact absurd ⟨spec, inserted⟩ leaves.1
  · intro before after _ move running
    generalize event : actor.eventAt id input.command = happened at move
    cases move with
    | tick _ survives => rw [before.tick_state_of_survives _ survives]; exact running
    | setEnabled _ enabled =>
      have bare : before.state.stripped.isDisabled = false := by rw [running]; rfl
      exact (before.set_enabled_stripped enabled bare).trans running
    | claimDue =>
      have notDue : before.shouldRun (input.readings id) ≠ true := fun due => by
        have waiting := ((before.should_run_iff _).mp due).1
        rw [ActivityState.in_flight_not_scheduled before.state running] at waiting
        cases waiting
      rw [Activity.claim_eq, if_neg notDue]
      exact running
    | setImmediate => rw [Activity.set_immediate_eq]; exact running
    | finish _ ack remains => exact absurd event (leaves.unfinished ack)
    | skip => exact running

/-- No claim reports an id in flight. -/
theorem in_flight_not_claimed (id : T) (actor : SchedulerActor T) (input : Input T)
    (inFlight : InFlight id actor) : id ∉ actor.claimed input := by
  intro reported
  obtain ⟨_, activity, present, due⟩ := (mem_claimed_iff inFlight.1 input).mp reported
  have waiting := ((activity.should_run_iff _).mp due).1
  rw [ActivityState.in_flight_not_scheduled activity.state (inFlight.2 activity present)] at waiting
  cases waiting

/-- A run in flight is not reported again before it is acknowledged or its id
inserted anew. -/
theorem in_flight_along (id : T) (actor : SchedulerActor T) (inputs : List (Input T))
    (inFlight : InFlight id actor) (leaves : Runs.Along step (LeavesRun id) actor inputs) :
    Runs.Along step (fun reached input => id ∉ reached.claimed input) actor inputs :=
  Runs.invariant_along (in_flight_step id)
    (fun reached input flying _ => in_flight_not_claimed id reached input flying) inFlight leaves

/-- Single flight. Between two claims that both report an id, a run of it is
acknowledged or it is inserted anew; and a running activity of any reachable
map, wrapped or not, is not reported while neither happens.

The invariant is that the entry stays running under its wrapper. The first part
is the second from the state the first claim leaves, read contrapositively. -/
theorem single_flight (history : List (Input T)) (id : T) :
    (∀ first between second,
      id ∈ (empty.run history).claimed ⟨.claimDue, first⟩ →
      id ∈ (((empty.run history).step ⟨.claimDue, first⟩).run between).claimed
          ⟨.claimDue, second⟩ →
        Runs.Sometime step (fun reached input =>
            Acknowledges id input ∨ reached.inserts id input)
          ((empty.run history).step ⟨.claimDue, first⟩) between) ∧
      ∀ activity between,
        (empty.run history).activities.lookup id = some activity →
        activity.state.stripped = .running →
        Runs.Along step (LeavesRun id) (empty.run history) between →
          Runs.Along step (fun reached input => id ∉ reached.claimed input)
            (empty.run history) between := by
  have keyed : (empty.run history : SchedulerActor T).Keyed := keyed_run history
  constructor
  · intro first between second claimedFirst claimedAgain
    by_contra never
    have leaves : Runs.Along step (LeavesRun id)
        ((empty.run history).step ⟨.claimDue, first⟩) between := by
      by_contra broken
      obtain ⟨before, input, later, split, disturbs⟩ := (Runs.not_along_iff _ between).mp broken
      refine never ⟨before, input, later, split, ?_⟩
      by_contra neither
      exact disturbs ⟨fun inserted => neither (Or.inr inserted),
        fun acknowledged => neither (Or.inl acknowledged)⟩
    have flying : InFlight id (((empty.run history).step ⟨.claimDue, first⟩).run between) :=
      Runs.invariant_after (in_flight_step id) (claim_in_flight id _ first keyed claimedFirst) leaves
    exact in_flight_not_claimed id _ _ flying claimedAgain
  · intro activity between present running leaves
    exact in_flight_along id _ between ⟨keyed, (entry_satisfies_iff present).mpr running⟩ leaves

/-- Two claims of an interval activity, with its acknowledgement between them. -/
theorem single_flight_acknowledged :
    Runs.Sometime step (fun reached input => Acknowledges 1 input ∨ reached.inserts 1 input)
      ((empty.run [⟨.register ⟨1, .fixedInterval 10⟩, fun _ => .least 0 0⟩,
        ⟨.tick, fun _ => .least 10 10⟩]).step ⟨.claimDue, fun _ => .least 10 10⟩)
      [⟨.setEnabled 1 false, fun _ => .least 11 11⟩, ⟨.finish 1 .done, fun _ => .least 12 12⟩,
        ⟨.tick, fun _ => .least 20 20⟩] :=
  (single_flight _ 1).1 (fun _ => .least 10 10) _ (fun _ => .least 20 20) (by decide) (by decide)

end SchedulerActor

end Ritualist
