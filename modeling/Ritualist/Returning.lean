import Mathlib.Algebra.GroupWithZero.Nat
import Ritualist.Library.Rest
import Ritualist.Requests

/-!
# Every call comes to an end

A call of a client may wait for room in the queue, for the reply to its command, or for
the end of the task. None of these waits for ever. Whatever the order in which the task
and the calls that were made take their turns, each turn lowers a cost, in which a
command that waits to be sent weighs more than one that is queued. And nothing waits
for itself: the task waits for no call, so that the queue has room again, and a shutdown
has cancelled the token before it waits for the task.

New calls, an abort and a future that is dropped are no such turns, as they start
something or cut it short. Left to themselves, the task and the calls end with an empty
queue and every call over: it returned, or it panicked on a reply that never came.
-/

namespace Ritualist

universe u
variable {T : Type u}

/-- The action carries a call on, or the task. The others start something, or cut it
short. -/
def Action.carriesOn : Action T → Bool
  | .send _ | .refuse _ | .process _ | .stop _ | .cancel _ | .take _ | .join _ => true
  | _ => false

/-- The cost of where a call is. -/
def CallPhase.cost : CallPhase T → Nat
  | .sending _ => 3
  | .awaiting _ => 1
  | .cancelling => 3
  | .taking => 2
  | .joining => 1
  | _ => 0

namespace CallPhase

/-- The call is a shutdown that has cancelled the token. -/
def isStopping : CallPhase T → Bool
  | .taking => true
  | .joining => true
  | _ => false

/-- Nothing that happens to commands makes a call such a shutdown. -/
theorem stopping_kept (phase : CallPhase T) :
    phase.sent.isStopping = phase.isStopping ∧ phase.refused.isStopping = phase.isStopping ∧
      (∀ reply, (phase.answered reply).isStopping = phase.isStopping) ∧
        phase.dropped.isStopping = phase.isStopping := by
  cases phase with
  | sending cmd => cases cmd <;> exact ⟨rfl, rfl, fun _ => rfl, rfl⟩
  | awaiting cmd => cases cmd <;> exact ⟨rfl, rfl, fun _ => rfl, rfl⟩
  | _ => exact ⟨rfl, rfl, fun _ => rfl, rfl⟩

/-- Sending a command lowers the cost of its call by more than a place in the queue. -/
theorem sent_cost (cmd : Command T) : (CallPhase.sending cmd).sent.cost + 1 < (sending cmd).cost := by
  cases reply : cmd.hasReply <;> simp [sent, reply, cost]

/-- An answer, and the end of the task, raise no cost. -/
theorem answered_cost (phase : CallPhase T) :
    (∀ reply, (phase.answered reply).cost ≤ phase.cost) ∧ phase.dropped.cost ≤ phase.cost := by
  cases phase <;> simp [answered, dropped, cost]

/-- Taking the join handle, or finding none, lowers the cost. -/
theorem took_cost (present : Bool) : ((taking : CallPhase T).took present).cost < 2 := by
  cases present <;> simp [took, cost]

end CallPhase

namespace Service

/-- What the calls cost. -/
def callsCost (service : Service T) : Nat := (service.calls.map fun call => call.phase.cost).sum

/-- What is left to do costs. -/
def cost (service : Service T) : Nat :=
  service.callsCost + service.queue.length + if service.ended.isNone then 1 else 0

/-- Moving calls so that no cost rises raises no sum. -/
theorem calls_cost_le (service : Service T) (move : Nat → CallPhase T → CallPhase T)
    (lower : ∀ number phase, (move number phase).cost ≤ phase.cost) :
    (service.moveCalls move).callsCost ≤ service.callsCost := by
  simp only [callsCost, moveCalls]
  generalize service.calls = calls
  induction calls generalizing move with
  | nil => exact Nat.le_refl 0
  | cons call rest inductionHypothesis =>
    simp only [List.mapIdx_cons, List.map_cons, List.sum_cons]
    exact Nat.add_le_add (lower 0 call.phase)
      (inductionHypothesis (fun number => move (number + 1)) fun number => lower (number + 1))

/-- Moving one call changes the sum by what it changes the cost of the call. -/
theorem calls_cost_moved (service : Service T) {number : Nat} {phase : CallPhase T}
    (here : service.phase number = some phase) (move : CallPhase T → CallPhase T) :
    (service.moveCall number move).callsCost + phase.cost =
      service.callsCost + (move phase).cost := by
  simp only [Service.phase] at here
  simp only [callsCost, moveCall, moveCalls]
  generalize service.calls = calls at here
  induction calls generalizing number with
  | nil => simp at here
  | cons call rest inductionHypothesis =>
    cases number with
    | zero =>
      obtain rfl : call.phase = phase := by simpa using here
      have others : (rest.mapIdx fun place (call : Call T) =>
          { call with phase := if place + 1 = 0 then move call.phase else call.phase }) = rest :=
        List.mapIdx_eq_iff.mpr fun place => by simp
      simp only [List.mapIdx_cons, others, List.map_cons, List.sum_cons, if_true]
      omega
    | succ number =>
      have tail := inductionHypothesis (by simpa using here)
      simp only [List.mapIdx_cons, List.map_cons, List.sum_cons, Nat.zero_ne_add_one, if_false,
        Nat.add_right_cancel_iff]
      omega

/-- The cost of a service whose calls have been moved, with another queue. -/
theorem cost_eq (service : Service T) {after : Service T} (ended : after.ended = service.ended) :
    after.cost + service.callsCost + service.queue.length =
      service.cost + after.callsCost + after.queue.length := by
  rw [cost, cost, ended]
  omega

/-- A call that is moved on, with nothing else, lowers the cost. -/
theorem moved_falls {service : Service T} {number : Nat} {phase : CallPhase T}
    (here : service.phase number = some phase) (move : CallPhase T → CallPhase T)
    (lower : (move phase).cost < phase.cost) : (service.moveCall number move).cost < service.cost := by
  have calls := service.calls_cost_moved here move
  have total := service.cost_eq (show (service.moveCall number move).ended = service.ended from rfl)
  have queue : (service.moveCall number move).queue.length = service.queue.length := rfl
  omega

/-- The end of the task lowers the cost. -/
theorem terminate_falls {service : Service T} (running : service.ended = none) (ending : Ending) :
    (service.terminate ending).cost < service.cost := by
  have calls : (service.terminate ending).callsCost ≤ service.callsCost := by
    refine service.calls_cost_le (fun number phase =>
      if number ∈ service.queue.map Prod.fst then phase.dropped else phase) fun number phase => ?_
    split
    · exact phase.answered_cost.2
    · exact Nat.le_refl _
  have queue : (service.terminate ending).queue.length = 0 := rfl
  have ended : (service.terminate ending).ended = some ending := rfl
  simp only [cost, running, ended, Option.isNone_none, Option.isNone_some, if_true, queue,
    Bool.false_eq_true, if_false]
  omega

variable [DecidableEq T]

/-- The action carries a call or the task on and can be taken. -/
def Carries (bufferSize : Nat) (service : Service T) (action : Action T) : Prop :=
  service.enabled bufferSize action = true ∧ action.carriesOn = true

/-- Whatever carries a call or the task on lowers the cost. -/
theorem carrying_falls {bufferSize : Nat} (service : Service T) (action : Action T)
    (carries : Carries bufferSize service action) : (service.step action).cost < service.cost := by
  obtain ⟨taken, carrying⟩ := carries
  cases action with
  | call method | abort | abandon number | release => cases carrying
  | send number =>
    simp only [enabled] at taken
    split at taken
    case h_1 cmd here =>
      have calls := (service.enqueue number cmd).calls_cost_moved here CallPhase.sent
      have lower := CallPhase.sent_cost cmd
      have total := service.cost_eq
        (show ((service.enqueue number cmd).moveCall number CallPhase.sent).ended = _ from rfl)
      have queue : ((service.enqueue number cmd).moveCall number CallPhase.sent).queue.length =
          service.queue.length + 1 := List.length_append
      have same : (service.enqueue number cmd).callsCost = service.callsCost := rfl
      simp only [step, here]
      omega
    case h_2 => cases taken
  | refuse number =>
    simp only [enabled] at taken
    split at taken
    case h_1 cmd here =>
      exact moved_falls here CallPhase.refused (by simp [CallPhase.refused, CallPhase.cost])
    case h_2 => cases taken
  | cancel number =>
    simp only [enabled] at taken
    split at taken
    case h_1 here => exact moved_falls here (fun _ => .taking) (by simp [CallPhase.cost])
    case h_2 => cases taken
  | take number =>
    simp only [enabled] at taken
    split at taken
    case h_1 here =>
      exact moved_falls here (CallPhase.took service.handle) (CallPhase.took_cost service.handle)
    case h_2 => cases taken
  | join number =>
    simp only [enabled] at taken
    split at taken
    case h_1 here =>
      obtain ⟨ending, ended⟩ := Option.isSome_iff_exists.mp taken
      simp only [step, ended]
      exact moved_falls here _ (by simp [CallPhase.cost])
    case h_2 => cases taken
  | stop ending =>
    have running : service.ended = none := by
      cases ending <;> simp [enabled] at taken <;> exact taken.1
    exact terminate_falls running ending
  | process readings =>
    obtain ⟨running, waiting⟩ := Bool.and_eq_true_iff.mp taken
    cases first : service.queue with
    | nil => simp [first] at waiting
    | cons head rest =>
      obtain ⟨number, cmd⟩ := head
      cases outcome : service.actor.sendOrPanic cmd readings with
      | error range =>
        simp only [step, first, outcome]
        exact terminate_falls (Option.isNone_iff_eq_none.mp running) .panicked
      | ok result =>
        obtain ⟨after, reply⟩ := result
        have calls : (service.complete number cmd rest after reply).callsCost ≤ service.callsCost := by
          refine service.calls_cost_le (fun other phase =>
            if other = number then phase.answered reply else phase) fun other phase => ?_
          split
          · exact phase.answered_cost.1 reply
          · exact Nat.le_refl _
        have total := service.cost_eq
          (show (service.complete number cmd rest after reply).ended = service.ended from rfl)
        have queue : service.queue.length =
            (service.complete number cmd rest after reply).queue.length + 1 := by
          rw [first]
          rfl
        simp only [step, first, outcome]
        omega

/-- A shutdown cancels the token before it takes the join handle or awaits it. -/
def Announced (service : Service T) : Prop :=
  ∀ (number : Nat) (call : Call T), service.calls[number]? = some call →
    call.phase.isStopping = true → service.cancelled = true

/-- No action takes a cancellation back. -/
theorem cancelled_step (service : Service T) (action : Action T)
    (cancelled : service.cancelled = true) :
    (service.step action).cancelled = true := by
  cases action with
  | cancel number => rfl
  | abort => exact cancelled
  | _ => exact (means_kept service _ rfl).1.trans cancelled

/-- Every action keeps shutdowns announced. -/
theorem announced_step (service : Service T) (action : Action T) (announced : service.Announced) :
    (service.step action).Announced := by
  intro number call found
  rcases get_step_cases service action number found with ⟨method, _, _, rfl⟩ | ⟨before, earlier, rfl⟩
  · intro stops
    cases method with
    | request asked =>
      cases validated : asked.command <;>
        simp [Method.start, validated, CallPhase.isStopping] at stops
    | _ => simp [Method.start, CallPhase.isStopping] at stops
  · have kept : before.phase.isStopping = true → (service.step action).cancelled = true :=
      fun stops => service.cancelled_step action (announced number before earlier stops)
    obtain ⟨sent, refused, answered, dropped⟩ := before.phase.stopping_kept
    refine call_move_elim service action number
      (fun phase => phase.isStopping = true → (service.step action).cancelled = true) kept
      (sent ▸ kept) (refused ▸ kept) (fun reply => answered reply ▸ kept) (dropped ▸ kept) ?_ ?_ ?_ ?_
    · rintro caller rfl _
      rfl
    · intro caller _ stops
      rcases before.phase.took_cases service.handle with same | ⟨taking, _⟩
      · exact kept (same ▸ stops)
      · exact kept (by rw [taking]; rfl)
    · intro caller ending _ stops
      cases stops
    · intro caller _ stops
      cases stops

/-- What carries a call on drops no future. -/
theorem carried_on (service : Service T) {action : Action T} (carrying : action.carriesOn = true)
    (number : Nat) {phase : CallPhase T} (kept : phase ≠ .abandoned) :
    service.callMove action number phase ≠ .abandoned := by
  refine call_move_elim service action number (· ≠ .abandoned) kept ?_ ?_ ?_ ?_ ?_ ?_ ?_ ?_
  · cases phase with
    | sending cmd => cases cmd <;> simp [CallPhase.sent, Command.hasReply]
    | _ => exact kept
  · cases phase with
    | sending cmd => simp [CallPhase.refused]
    | _ => exact kept
  · intro reply
    cases phase with
    | awaiting cmd => simp [CallPhase.answered]
    | _ => exact kept
  · cases phase with
    | awaiting cmd => simp [CallPhase.dropped]
    | _ => exact kept
  · simp
  · intro caller _
    rcases phase.took_cases service.handle with same | ⟨_, ⟨_, joins⟩ | ⟨_, returns⟩⟩
    · exact fun dropped => kept (same.symm.trans dropped)
    · simp [joins]
    · simp [returns]
  · simp
  · rintro caller rfl
    cases carrying

omit [DecidableEq T] in
/-- A service that nothing carries on has an empty queue, and every call is over. -/
theorem rest_returned {bufferSize : Nat} {service : Service T} (room : 0 < bufferSize)
    (consistent : service.Consistent) (announced : service.Announced)
    (resting : Runs.AtRest (Carries bufferSize) service) :
    service.queue = [] ∧ ∀ (number : Nat) (call : Call T), service.calls[number]? = some call →
      call.phase.isActive = false := by
  have never : ∀ action : Action T, action.carriesOn = true →
      service.enabled bufferSize action = false := by
    intro action carrying
    by_contra possible
    exact resting action ⟨by simpa using possible, carrying⟩
  have empty : service.queue = [] := by
    cases ended : service.ended with
    | some ending => exact consistent.closed (by rw [ended]; rfl)
    | none => simpa [enabled, ended] using never (.process fun _ => .least 0 0) rfl
  refine ⟨empty, fun number call found => ?_⟩
  have here : service.phase number = some call.phase := by simp [phase, found]
  cases place : call.phase with
  | returned outcome | abandoned => rfl
  | sending cmd =>
    rw [place] at here
    cases ended : service.ended with
    | some ending => simpa [enabled, here, ended] using never (.refuse number) rfl
    | none =>
      have full := never (.send number) rfl
      simp [enabled, here, ended, empty] at full
      omega
  | awaiting cmd =>
    have queued := ((consistent.fits number call found).awaiting cmd place).2.2
    rw [empty] at queued
    cases queued
  | cancelling =>
    rw [place] at here
    simpa [enabled, here] using never (.cancel number) rfl
  | taking =>
    rw [place] at here
    simpa [enabled, here] using never (.take number) rfl
  | joining =>
    rw [place] at here
    cases ended : service.ended with
    | some ending => simpa [enabled, here, ended] using never (.join number) rfl
    | none =>
      have cancelled := announced number call found (by rw [place]; rfl)
      simpa [enabled, ended, cancelled] using never (.stop .finished) rfl

/-- The service that a list of actions leads to. -/
def reached (actions : List (Action T)) : Service T := actions.foldl step spawned

/-- Along what carries calls on, a call keeps its method, and its future is not dropped. -/
theorem call_carried {bufferSize : Nat} {service : Service T} {later : List (Action T)}
    (carried : Runs.Along step (Carries bufferSize) service later) {number : Nat} {call : Call T}
    (found : service.calls[number]? = some call) (kept : call.phase ≠ .abandoned) :
    ∃ phase, (later.foldl step service).calls[number]? = some ⟨call.method, phase⟩ ∧
      phase ≠ .abandoned := by
  have preserved : ∀ (service : Service T) (action : Action T),
      (∃ phase, service.calls[number]? = some ⟨call.method, phase⟩ ∧ phase ≠ .abandoned) →
      Carries bufferSize service action →
      ∃ phase, (service.step action).calls[number]? = some ⟨call.method, phase⟩ ∧
        phase ≠ .abandoned := by
    rintro service action ⟨phase, here, kept⟩ ⟨_, carrying⟩
    have moved := get_step service action number here
    exact ⟨_, moved, service.carried_on carrying number kept⟩
  exact Runs.invariant_after preserved ⟨call.phase, found, kept⟩ carried

/-- No call waits for ever. From every service that clients' calls, the task and its end
reach, the task and the calls can carry on what was begun only finitely often, in
whatever order. A service in which none can has an empty queue, and every call made
before is over, with a value or a panic, but for those whose future was dropped; and they
get there. -/
theorem calls_return (bufferSize : Nat) (room : 0 < bufferSize) (actions : List (Action T))
    (taken : Interleaving bufferSize actions) :
    (∀ supply : ℕ → Action T, ∃ count,
        ¬ Carries bufferSize (Runs.stateAt step (reached actions) supply count) (supply count)) ∧
      (∀ later : List (Action T), Runs.Along step (Carries bufferSize) (reached actions) later →
        Runs.AtRest (Carries bufferSize) (reached (actions ++ later)) →
          (reached (actions ++ later)).queue = [] ∧
          ∀ (number : Nat) (call : Call T), (reached actions).calls[number]? = some call →
            call.phase ≠ .abandoned → ∃ outcome,
              (reached (actions ++ later)).calls[number]? = some ⟨call.method, .returned outcome⟩) ∧
      ∃ later : List (Action T), Runs.Along step (Carries bufferSize) (reached actions) later ∧
        Runs.AtRest (Carries bufferSize) (reached (actions ++ later)) := by
  have further : ∀ later, reached (actions ++ later) = later.foldl step (reached actions) :=
    fun later => List.foldl_append
  have kept : ∀ (service : Service T) (action : Action T),
      service.Consistent ∧ service.Announced → service.enabled bufferSize action = true →
        (service.step action).Consistent ∧ (service.step action).Announced :=
    fun service action holds able =>
      ⟨consistent_step service action holds.1 able, service.announced_step action holds.2⟩
  have sound : (reached actions).Consistent ∧ (reached actions).Announced := by
    refine Runs.invariant_after kept ⟨spawned_consistent, ?_⟩ taken
    intro number call found
    simp [spawned] at found
  have carrying : ∀ (service : Service T) (action : Action T),
      service.Consistent ∧ service.Announced → Carries bufferSize service action →
        (service.step action).Consistent ∧ (service.step action).Announced :=
    fun service action holds able => kept service action holds able.1
  refine ⟨Runs.ends carrying (fun service action _ => carrying_falls service action) sound, ?_, ?_⟩
  · intro later carried resting
    rw [further] at resting ⊢
    obtain ⟨consistent, announced⟩ := Runs.invariant_after carrying sound carried
    obtain ⟨empty, settled⟩ := rest_returned room consistent announced resting
    refine ⟨empty, fun number call found undropped => ?_⟩
    obtain ⟨phase, here, alive⟩ := call_carried carried found undropped
    have ended := settled number _ here
    cases phase with
    | returned outcome => exact ⟨outcome, here⟩
    | abandoned => exact absurd rfl alive
    | _ => cases ended
  · obtain ⟨later, carried, resting⟩ := Runs.comes_to_rest carrying
      (fun service action _ => carrying_falls service action) sound
    exact ⟨later, carried, further later ▸ resting⟩

/-- A registration and a snapshot wait for the one place in the queue when the token is
cancelled. -/
def cancelledEarly : List (Action Nat) :=
  [Action.call (.request (.register ⟨1, .fixedInterval 10⟩)), Action.call (.command .snapshot),
    Action.call .shutdown, Action.cancel 2]

/-- All three calls come to return. -/
theorem cancelled_calls_return : ∃ later : List (Action Nat),
    Runs.Along step (Carries 1) (reached cancelledEarly) later ∧
      ∀ number < 3, ∃ method outcome,
        (reached (cancelledEarly ++ later)).calls[number]? = some ⟨method, .returned outcome⟩ := by
  obtain ⟨_, returned, later, carried, resting⟩ := calls_return 1 (by decide) cancelledEarly (by decide)
  refine ⟨later, carried, fun number bounded => ?_⟩
  have made : ∀ number < 3, ∃ call, (reached cancelledEarly).calls[number]? = some call ∧
      call.phase ≠ .abandoned := by
    intro number bounded
    match number, bounded with
    | 0, _ => exact ⟨_, rfl, nofun⟩
    | 1, _ => exact ⟨_, rfl, nofun⟩
    | 2, _ => exact ⟨_, rfl, nofun⟩
  obtain ⟨call, found, kept⟩ := made number bounded
  obtain ⟨outcome, here⟩ := (returned later carried resting).2 number call found kept
  exact ⟨call.method, outcome, here⟩

end Service

end Ritualist
