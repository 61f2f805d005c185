import Ritualist.Sampling

/-!
# Clients, the command queue and the actor's task

Clients hold clones of one `Scheduler`: a sender of the bounded command queue,
the cancellation token, and the slot of the task's join handle, which all clones
share. The actor's task selects between the token and the queue until it ends,
and the end of the task drops the queue. Here is every interleaving of the
calls with one another and with the task.

A service is the state of all of these, and an action is one indivisible move of
one of them. `enabled` says when an action can be taken and `step` what it does;
an interleaving is a list of actions, each enabled where it is taken. A call
that waits for room or for a reply is one whose next action is not enabled yet.
A call whose reply channel resolves returns in the action that resolves it.

Two things are assumed of the channel. Taking a permit and pushing the command is one
action, so that the queue keeps the order in which senders got their room. And closing
the queue at the end of the task and draining it is one action: no sender gets in
between, and every reply sender in the queue is dropped with its command.

The handler is the panicking one, so that a command sent by `Scheduler::register`
with a specification that was never validated may end the task. Requests are
numbered by their calls, and the commands processed are recorded; the source has
neither, and no action reads them.
-/

namespace Ritualist

universe u

/-- The ways the actor's task ends. -/
inductive Ending where
  /-- The loop breaks: the token is cancelled, or no sender is left. -/
  | finished
  /-- The join handle's `abort` takes effect. -/
  | aborted
  /-- A command panics. -/
  | panicked
  deriving DecidableEq, Repr

/-- What the join handle yields; the error is a `JoinError`. -/
def Ending.result : Ending → Except Ending Unit
  | .finished => .ok ()
  | .aborted => .error .aborted
  | .panicked => .error .panicked

/-- The methods of a client. -/
inductive Method (T : Type u) where
  /-- The method of `Scheduler` that sends this command. -/
  | command (cmd : Command T)
  /-- A method of `WithScheduler`, which validates and then calls `Scheduler`. -/
  | request (request : Request T)
  /-- `Scheduler::shutdown`. -/
  | shutdown

/-- How a call ends for its caller. -/
inductive Outcome (T : Type u) where
  /-- An ordinary value, from the reply if the method has one. -/
  | value (reply : Option (Reply T))
  /-- A specification was refused before anything was sent. -/
  | invalid (error : ActivitySpecError)
  /-- The result of a shutdown. -/
  | joined (result : Except Ending Unit)
  /-- An `unwrap` failed. -/
  | panicked

/-- Where a call is. -/
inductive CallPhase (T : Type u) where
  /-- At `actor_tx.send`, with the command. -/
  | sending (cmd : Command T)
  /-- At `rx.await`, for the reply of the command. -/
  | awaiting (cmd : Command T)
  /-- Before `cancellation_token.cancel()`. -/
  | cancelling
  /-- Before `handle.lock().unwrap().take()`. -/
  | taking
  /-- At `handle.await`. -/
  | joining
  | returned (outcome : Outcome T)
  /-- Its future was dropped. -/
  | abandoned

variable {T : Type u}

namespace Command

/-- The command carries a reply channel. -/
def hasReply : Command T → Bool
  | .register _ => true
  | .registerMany _ => true
  | .claimDue => true
  | .snapshot => true
  | _ => false

/-- The command's method unwraps its reply. -/
def isRegistration : Command T → Bool
  | .register _ => true
  | .registerMany _ => true
  | _ => false

/-- What a method does when its command was refused or dropped: registrations
unwrap the closed reply channel, `claim_due` and `snapshot` return a default, and
the methods without a reply return. -/
def unanswered : Command T → Outcome T
  | .register _ => .panicked
  | .registerMany _ => .panicked
  | .claimDue => .value (some (.due []))
  | .snapshot => .value (some (.activities []))
  | _ => .value none

end Command

namespace Method

/-- Where a call of the method begins: a method of `WithScheduler` returns at once
when validation refuses its specifications. -/
def start : Method T → CallPhase T
  | .command cmd => .sending cmd
  | .request asked =>
    match asked.command with
    | .ok cmd => .sending cmd
    | .error error => .returned (.invalid error)
  | .shutdown => .cancelling

/-- The command the method sends, if any. -/
def sends : Method T → Option (Command T)
  | .command cmd => some cmd
  | .request asked => asked.command.toOption
  | .shutdown => none

/-- `WithScheduler::reset` and `WithScheduler::reset_many`. -/
def isReset : Method T → Bool
  | .request (.reset _) => true
  | .request (.resetMany _) => true
  | _ => false

/-- A call that begins by sending sends the method's command. -/
theorem sends_of_start (method : Method T) (cmd : Command T) (starts : method.start = .sending cmd) :
    method.sends = some cmd := by
  cases method with
  | command sent =>
    obtain rfl := CallPhase.sending.inj starts
    rfl
  | request asked =>
    cases validated : asked.command with
    | ok sent =>
      simp only [start, validated] at starts
      obtain rfl := CallPhase.sending.inj starts
      simp [sends, validated, Except.toOption]
    | error error => simp [start, validated] at starts
  | shutdown => cases starts

/-- No call begins by awaiting a reply. -/
theorem start_not_awaiting (method : Method T) (cmd : Command T) :
    method.start ≠ .awaiting cmd := by
  cases method with
  | request asked => cases validated : asked.command <;> simp [start, validated]
  | _ => simp [start]

end Method

namespace CallPhase

/-- The command is in the queue: a method without a reply returns. -/
def sent : CallPhase T → CallPhase T
  | .sending cmd => if cmd.hasReply then .awaiting cmd else .returned (.value none)
  | phase => phase

/-- The queue is closed: `actor_tx.send` fails and drops the command. -/
def refused : CallPhase T → CallPhase T
  | .sending cmd => .returned cmd.unanswered
  | phase => phase

/-- The actor processed the command and sent its reply. -/
def answered (reply : Option (Reply T)) : CallPhase T → CallPhase T
  | .awaiting _ => .returned (.value reply)
  | phase => phase

/-- The command was dropped with the queue, and its reply channel with it. -/
def dropped : CallPhase T → CallPhase T
  | .awaiting cmd => .returned cmd.unanswered
  | phase => phase

/-- The call takes the join handle out of its slot; it returns at once when the
slot is empty. -/
def took (present : Bool) : CallPhase T → CallPhase T
  | .taking => if present then .joining else .returned (.joined (.ok ()))
  | phase => phase

/-- The call has a move left. -/
def isActive : CallPhase T → Bool
  | .returned _ => false
  | .abandoned => false
  | _ => true

/-- The caller waits to send its command, or for the reply. -/
def isWaiting : CallPhase T → Bool
  | .sending _ => true
  | .awaiting _ => true
  | _ => false

/-- The call ended in a failed `unwrap`. -/
def hasPanicked : CallPhase T → Bool
  | .returned .panicked => true
  | _ => false

/-- The call was a shutdown and returned `Ok`. -/
def hasShutDown : CallPhase T → Bool
  | .returned (.joined (.ok _)) => true
  | _ => false

/-- The call returned an ordinary value. -/
def hasValue : CallPhase T → Bool
  | .returned (.value _) => true
  | _ => false

/-- A call that sends awaits its reply, or returns without one; no other is moved. -/
theorem sent_cases (phase : CallPhase T) :
    phase.sent = phase ∨ ∃ cmd, phase = .sending cmd ∧
      (cmd.hasReply = true ∧ phase.sent = .awaiting cmd ∨
        cmd.hasReply = false ∧ phase.sent = .returned (.value none)) := by
  cases phase with
  | sending cmd =>
    right
    refine ⟨cmd, rfl, ?_⟩
    cases reply : cmd.hasReply <;> simp [sent, reply]
  | _ => exact Or.inl rfl

/-- A call that sends is refused; no other is moved. -/
theorem refused_cases (phase : CallPhase T) :
    phase.refused = phase ∨
      ∃ cmd, phase = .sending cmd ∧ phase.refused = .returned cmd.unanswered := by
  cases phase with
  | sending cmd => exact Or.inr ⟨cmd, rfl, rfl⟩
  | _ => exact Or.inl rfl

/-- A call that awaits is answered; no other is moved. -/
theorem answered_cases (reply : Option (Reply T)) (phase : CallPhase T) :
    phase.answered reply = phase ∨
      ∃ cmd, phase = .awaiting cmd ∧ phase.answered reply = .returned (.value reply) := by
  cases phase with
  | awaiting cmd => exact Or.inr ⟨cmd, rfl, rfl⟩
  | _ => exact Or.inl rfl

/-- A call that awaits goes unanswered; no other is moved. -/
theorem dropped_cases (phase : CallPhase T) :
    phase.dropped = phase ∨
      ∃ cmd, phase = .awaiting cmd ∧ phase.dropped = .returned cmd.unanswered := by
  cases phase with
  | awaiting cmd => exact Or.inr ⟨cmd, rfl, rfl⟩
  | _ => exact Or.inl rfl

/-- A call that takes joins, or returns from an empty slot; no other is moved. -/
theorem took_cases (present : Bool) (phase : CallPhase T) :
    phase.took present = phase ∨ phase = .taking ∧
      (present = true ∧ phase.took present = .joining ∨
        present = false ∧ phase.took present = .returned (.joined (.ok ()))) := by
  cases phase with
  | taking =>
    right
    cases present <;> simp [took]
  | _ => exact Or.inl rfl

end CallPhase

/-- One call of a method. -/
structure Call (T : Type u) where
  method : Method T
  phase : CallPhase T

/-- The state of the actor's task, its queue, and the clients' calls. -/
structure Service (T : Type u) where
  actor : SchedulerActor T
  /-- How the task ended, once it has. -/
  ended : Option Ending
  /-- The cancellation token. -/
  cancelled : Bool
  /-- `abort` was called on the join handle. -/
  aborting : Bool
  /-- The join handle is in the slot the clones share. -/
  handle : Bool
  /-- Every clone has been dropped. -/
  released : Bool
  /-- The queue, oldest first; a command is numbered by its call. -/
  queue : List (Nat × Command T)
  /-- The calls, numbered from zero in the order in which they were made. -/
  calls : List (Call T)
  /-- The commands processed, oldest first. -/
  processed : List (Nat × Command T)

/-- One move of the task or of a client; a call is meant by its number. -/
inductive Action (T : Type u) where
  /-- A client calls a method of some clone. -/
  | call (method : Method T)
  /-- `actor_tx.send` puts the command into the queue. -/
  | send (number : Nat)
  /-- `actor_tx.send` fails. -/
  | refuse (number : Nat)
  /-- The task receives a command and processes it. -/
  | process (readings : T → Reading)
  /-- The task ends other than by a panic. -/
  | stop (ending : Ending)
  /-- `cancellation_token.cancel()`. -/
  | cancel (number : Nat)
  /-- `handle.lock().unwrap().take()`. -/
  | take (number : Nat)
  /-- `handle.await` yields. -/
  | join (number : Nat)
  /-- `Scheduler::abort`. -/
  | abort
  /-- The future of a call is dropped. -/
  | abandon (number : Nat)
  /-- The last clone is dropped. -/
  | release

/-- The action asks for the end of the task. -/
def Action.interrupts : Action T → Bool
  | .cancel _ | .abort => true
  | _ => false

namespace Service

/-- The service as it is spawned. -/
def spawned [DecidableEq T] : Service T where
  actor := .empty
  ended := none
  cancelled := false
  aborting := false
  handle := true
  released := false
  queue := []
  calls := []
  processed := []

/-- Where the call of a number is. -/
def phase (service : Service T) (number : Nat) : Option (CallPhase T) :=
  service.calls[number]?.map Call.phase

/-- Move every call. -/
def moveCalls (service : Service T) (move : Nat → CallPhase T → CallPhase T) : Service T :=
  { service with
    calls := service.calls.mapIdx fun number call =>
      { call with phase := move number call.phase } }

/-- Move one call. -/
def moveCall (service : Service T) (number : Nat) (move : CallPhase T → CallPhase T) : Service T :=
  service.moveCalls fun other phase => if other = number then move phase else phase

/-- Append the command of a call to the queue. -/
def enqueue (service : Service T) (number : Nat) (cmd : Command T) : Service T :=
  { service with queue := service.queue ++ [(number, cmd)] }

/-- The task ends and drops the queue, with the reply channels in it. -/
def terminate (service : Service T) (ending : Ending) : Service T :=
  { service.moveCalls fun number phase =>
      if number ∈ service.queue.map Prod.fst then phase.dropped else phase with
    ended := some ending
    queue := [] }

/-- The first command has been processed. -/
def complete (service : Service T) (number : Nat) (cmd : Command T)
    (rest : List (Nat × Command T)) (after : SchedulerActor T) (reply : Option (Reply T)) :
    Service T :=
  { service.moveCall number (CallPhase.answered reply) with
    actor := after
    queue := rest
    processed := service.processed ++ [(number, cmd)] }

/-- What an action does. -/
def step [DecidableEq T] (service : Service T) : Action T → Service T
  | .call method => { service with calls := service.calls ++ [⟨method, method.start⟩] }
  | .send number =>
    match service.phase number with
    | some (.sending cmd) => (service.enqueue number cmd).moveCall number CallPhase.sent
    | _ => service
  | .refuse number => service.moveCall number CallPhase.refused
  | .process readings =>
    match service.queue with
    | [] => service
    | (number, cmd) :: rest =>
      match service.actor.sendOrPanic cmd readings with
      | .ok (after, reply) => service.complete number cmd rest after reply
      | .error _ => service.terminate .panicked
  | .stop ending => service.terminate ending
  | .cancel number =>
    { service.moveCall number (fun _ => .taking) with cancelled := true }
  | .take number =>
    { service.moveCall number (CallPhase.took service.handle) with handle := false }
  | .join number =>
    match service.ended with
    | some ending => service.moveCall number fun _ => .returned (.joined ending.result)
    | none => service
  | .abort =>
    { service with aborting := service.aborting || service.handle, handle := false }
  | .abandon number => service.moveCall number fun _ => .abandoned
  | .release => { service with released := true }

/-- When an action can be taken. `bufferSize` is the capacity of the queue. The
selection of the task is fair to neither branch: it may process a command after
the token is cancelled. -/
def enabled (bufferSize : Nat) (service : Service T) : Action T → Bool
  | .call _ => !service.released
  | .send number =>
    match service.phase number with
    | some (.sending _) => service.ended.isNone && decide (service.queue.length < bufferSize)
    | _ => false
  | .refuse number =>
    match service.phase number with
    | some (.sending _) => service.ended.isSome
    | _ => false
  | .process _ => service.ended.isNone && !service.queue.isEmpty
  | .stop .finished =>
    service.ended.isNone && (service.cancelled || service.released && service.queue.isEmpty)
  | .stop .aborted => service.ended.isNone && service.aborting
  | .stop .panicked => false
  | .cancel number =>
    match service.phase number with
    | some .cancelling => true
    | _ => false
  | .take number =>
    match service.phase number with
    | some .taking => true
    | _ => false
  | .join number =>
    match service.phase number with
    | some .joining => service.ended.isSome
    | _ => false
  | .abort => !service.released
  | .abandon number =>
    match service.phase number with
    | some phase => phase.isActive
    | none => false
  | .release => !service.released && service.calls.all fun call => !call.phase.isActive

/-- Every action of an interleaving is enabled where it is taken. -/
abbrev Interleaving [DecidableEq T] (bufferSize : Nat) (actions : List (Action T)) : Prop :=
  Runs.Along step (fun service action => service.enabled bufferSize action = true)
    spawned actions

@[simp] theorem get_moveCalls (service : Service T) (move : Nat → CallPhase T → CallPhase T)
    (number : Nat) : (service.moveCalls move).calls[number]? =
      service.calls[number]?.map fun call => { call with phase := move number call.phase } :=
  List.getElem?_mapIdx

@[simp] theorem get_moveCall (service : Service T) (moved : Nat)
    (move : CallPhase T → CallPhase T) (number : Nat) :
    (service.moveCall moved move).calls[number]? =
      service.calls[number]?.map fun call =>
        { call with phase := if number = moved then move call.phase else call.phase } :=
  get_moveCalls service _ number

/-- The commands an action disposes of without processing them: the one the
closed queue refuses, and all in the queue when the task ends. -/
def discarded [DecidableEq T] (service : Service T) : Action T → List (Nat × Command T)
  | .refuse number =>
    match service.phase number with
    | some (.sending cmd) => [(number, cmd)]
    | _ => []
  | .process readings =>
    match service.queue with
    | [] => []
    | (_, cmd) :: _ =>
      match service.actor.sendOrPanic cmd readings with
      | .ok _ => []
      | .error _ => service.queue
  | .stop _ => service.queue
  | _ => []

/-- How an action moves the call of a number. -/
def callMove [DecidableEq T] (service : Service T) (action : Action T) (number : Nat)
    (phase : CallPhase T) : CallPhase T :=
  match action with
  | .send caller => if number = caller then phase.sent else phase
  | .refuse caller => if number = caller then phase.refused else phase
  | .process readings =>
    match service.queue with
    | [] => phase
    | (caller, cmd) :: _ =>
      match service.actor.sendOrPanic cmd readings with
      | .ok (_, reply) => if number = caller then phase.answered reply else phase
      | .error _ => if number ∈ service.queue.map Prod.fst then phase.dropped else phase
  | .stop _ => if number ∈ service.queue.map Prod.fst then phase.dropped else phase
  | .cancel caller => if number = caller then .taking else phase
  | .take caller => if number = caller then phase.took service.handle else phase
  | .join caller =>
    match service.ended with
    | some ending => if number = caller then .returned (.joined ending.result) else phase
    | none => phase
  | .abandon caller => if number = caller then .abandoned else phase
  | _ => phase

section Steps

variable [DecidableEq T] (service : Service T) (action : Action T) (number : Nat)

/-- A call that was made is moved by every action, and keeps its method. -/
theorem get_step {before : Call T} (found : service.calls[number]? = some before) :
    (service.step action).calls[number]? =
      some { before with phase := service.callMove action number before.phase } := by
  cases action with
  | call method =>
    obtain ⟨made, _⟩ := List.getElem?_eq_some_iff.mp found
    simp [step, callMove, List.getElem?_append_left made, found]
  | send caller =>
    by_cases same : number = caller
    · subst same
      obtain ⟨method, place⟩ := before
      have here : service.phase number = some place := by simp [phase, found]
      cases place with
      | sending cmd => simp [step, here, enqueue, callMove, found]
      | _ => simp [step, here, callMove, CallPhase.sent, found]
    · simp only [step, callMove, same, if_false]
      split <;> simp [enqueue, found, same]
  | process readings =>
    cases waiting : service.queue with
    | nil => simp [step, callMove, waiting, found]
    | cons head rest =>
      obtain ⟨caller, cmd⟩ := head
      cases processed : service.actor.sendOrPanic cmd readings with
      | ok result => simp [step, callMove, waiting, processed, complete, found]
      | error range => simp [step, callMove, waiting, processed, terminate, found]
  | stop ending => simp [step, callMove, terminate, found]
  | join caller => cases ending : service.ended <;> simp [step, callMove, ending, found]
  | _ => simp [step, callMove, found]

/-- The only new call is the one the action makes. -/
theorem get_step_cases {after : Call T}
    (found : (service.step action).calls[number]? = some after) :
    (∃ method, action = .call method ∧ number = service.calls.length ∧
        after = ⟨method, method.start⟩) ∨
      ∃ before, service.calls[number]? = some before ∧
        after = { before with phase := service.callMove action number before.phase } := by
  cases present : service.calls[number]? with
  | some before =>
    rw [get_step service action number present] at found
    exact Or.inr ⟨before, rfl, (Option.some.inj found).symm⟩
  | none =>
    left
    have beyond : service.calls.length ≤ number := List.getElem?_eq_none_iff.mp present
    cases action with
    | call method =>
      rw [step, List.getElem?_append_right beyond] at found
      obtain ⟨bounded, same⟩ := List.getElem?_eq_some_iff.mp found
      simp only [List.length_singleton] at bounded
      refine ⟨method, rfl, by omega, ?_⟩
      rw [← same]
      simp
    | send caller =>
      simp only [step] at found
      split at found <;> simp [enqueue, present] at found
    | process readings =>
      simp only [step] at found
      split at found
      · simp [present] at found
      · split at found <;> simp [complete, terminate, present] at found
    | join caller =>
      simp only [step] at found
      split at found <;> simp [present] at found
    | _ => simp [step, terminate, present] at found

/-- The moves of a call, each with what the action that makes it is known by. -/
inductive Moves (phase : CallPhase T) : CallPhase T → Prop
  | stay : Moves phase phase
  | send (own : action = .send number) : Moves phase phase.sent
  | refuse (own : action = .refuse number) : Moves phase phase.refused
  | answer (reply : Option (Reply T)) : Moves phase (phase.answered reply)
  | drop (all : service.discarded action = service.queue)
      (member : number ∈ service.queue.map Prod.fst) : Moves phase phase.dropped
  | cancel : Moves phase .taking
  | take (own : action = .take number) : Moves phase (phase.took service.handle)
  | join (own : action = .join number) (ending : Ending) (ended : service.ended = some ending) :
      Moves phase (.returned (.joined ending.result))
  | abandon : Moves phase .abandoned

/-- Every action makes one of the moves. -/
theorem moves (phase : CallPhase T) :
    Moves service action number phase (service.callMove action number phase) := by
  cases action with
  | call method | abort | release => exact .stay
  | send caller =>
    simp only [callMove]
    split
    case isTrue own => exact .send (own ▸ rfl)
    case isFalse => exact .stay
  | refuse caller =>
    simp only [callMove]
    split
    case isTrue own => exact .refuse (own ▸ rfl)
    case isFalse => exact .stay
  | process readings =>
    cases first : service.queue with
    | nil =>
      simp only [callMove, first]
      exact .stay
    | cons head rest =>
      obtain ⟨caller, received⟩ := head
      cases outcome : service.actor.sendOrPanic received readings with
      | ok result =>
        simp only [callMove, first, outcome]
        split
        · exact .answer result.2
        · exact .stay
      | error range =>
        simp only [callMove, first, outcome]
        split
        case isTrue member =>
          exact .drop (by simp only [discarded, first, outcome]) (first ▸ member)
        case isFalse => exact .stay
  | stop ending =>
    simp only [callMove]
    split
    case isTrue member => exact .drop rfl member
    case isFalse => exact .stay
  | cancel caller =>
    simp only [callMove]
    split
    · exact .cancel
    · exact .stay
  | take caller =>
    simp only [callMove]
    split
    case isTrue own => exact .take (own ▸ rfl)
    case isFalse => exact .stay
  | join caller =>
    cases hasEnded : service.ended with
    | none =>
      simp only [callMove, hasEnded]
      exact .stay
    | some ending =>
      simp only [callMove, hasEnded]
      split
      case isTrue own => exact .join (own ▸ rfl) ending hasEnded
      case isFalse => exact .stay
  | abandon caller =>
    simp only [callMove]
    split
    · exact .abandon
    · exact .stay

/-- What every move of a phase leads to is where any action leads it. The calls' own moves
are asked about only if the action is one. -/
theorem call_move_elim (goal : CallPhase T → Prop) {phase : CallPhase T} (stay : goal phase)
    (sent : goal phase.sent) (refused : goal phase.refused)
    (answered : ∀ reply, goal (phase.answered reply)) (dropped : goal phase.dropped)
    (cancel : ∀ caller, action = .cancel caller → goal .taking)
    (take : ∀ caller, action = .take caller → goal (phase.took service.handle))
    (join : ∀ caller (ending : Ending), action = .join caller →
      goal (.returned (.joined ending.result)))
    (abandon : ∀ caller, action = .abandon caller → goal .abandoned) :
    goal (service.callMove action number phase) := by
  cases action with
  | call method | abort | release => exact stay
  | send caller =>
    simp only [callMove]
    split
    · exact sent
    · exact stay
  | refuse caller =>
    simp only [callMove]
    split
    · exact refused
    · exact stay
  | process readings =>
    simp only [callMove]
    split
    · exact stay
    · split
      · split
        · exact answered _
        · exact stay
      · split
        · exact dropped
        · exact stay
  | stop ending =>
    simp only [callMove]
    split
    · exact dropped
    · exact stay
  | cancel caller =>
    simp only [callMove]
    split
    · exact cancel caller rfl
    · exact stay
  | take caller =>
    simp only [callMove]
    split
    · exact take caller rfl
    · exact stay
  | join caller =>
    simp only [callMove]
    split
    case h_1 ending ended =>
      split
      · exact join caller ending rfl
      · exact stay
    case h_2 => exact stay
  | abandon caller =>
    simp only [callMove]
    split
    · exact abandon caller rfl
    · exact stay

/-- The means to end the task are moved by the actions that are about them alone. -/
theorem means_kept (uninterrupted : action.interrupts = false) :
    (service.step action).cancelled = service.cancelled ∧
      (service.step action).aborting = service.aborting ∧
      ((service.step action).handle = service.handle ∨ ∃ caller, action = .take caller) ∧
      ((service.step action).released = service.released ∨ action = .release) := by
  cases action with
  | cancel caller | abort => cases uninterrupted
  | send caller | join caller =>
    simp only [step]
    split <;> exact ⟨rfl, rfl, Or.inl rfl, Or.inl rfl⟩
  | process readings =>
    simp only [step]
    split
    · exact ⟨rfl, rfl, Or.inl rfl, Or.inl rfl⟩
    · split <;> exact ⟨rfl, rfl, Or.inl rfl, Or.inl rfl⟩
  | take caller => exact ⟨rfl, rfl, Or.inr ⟨caller, rfl⟩, Or.inl rfl⟩
  | release => exact ⟨rfl, rfl, Or.inl rfl, Or.inr rfl⟩
  | _ => exact ⟨rfl, rfl, Or.inl rfl, Or.inl rfl⟩

end Steps

end Service

end Ritualist
