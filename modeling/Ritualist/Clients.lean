import Ritualist.Library.Simulation
import Ritualist.Conservation
import Ritualist.Linearization
import Ritualist.Turns

/-!
# The driver and its tasks are clients

The driver, its dispatch tasks and the clients share one scheduler. A turn in which
one of them sends a command is two actions at the scheduler: a call of the method that
sends it, and its command entering the queue. The actor's turn is the scheduler's own
action, and the other turns do not concern it. So an interleaving of the driver, its
tasks and the consumers is, seen from the scheduler, an interleaving of clients, with
the same commands in its queue and the same ones processed.

The claim that the driver awaits is a call of `claim_due` there, and the reply that
reaches the driver is the one the call returns. And as clients validate what they
send, the actor does not panic, and no call does.
-/

namespace Ritualist

universe u
variable {T : Type u} [DecidableEq T]

/-- A service that does for a world what its scheduler does. The driver's latest claim
is the call of a number. -/
structure Serves (bufferSize : Nat) (world : World T) (asked : Nat) (service : Service T) : Prop where
  reached : Reachable bufferSize world
  calm : service.Calm
  quiet : service.NoPanic
  running : service.ended = none ∧ service.released = false
  actor : service.actor = world.actor
  queue : service.queue.map Prod.snd = world.queue.map Message.command
  own : world.driver = .awaiting → ∀ number, (number, .claimDue) ∈ service.queue → number = asked
  awaits : world.driver = .awaiting →
    service.calls[asked]? = some ⟨.command .claimDue, .awaiting .claimDue⟩
  replied : ∀ runs, world.driver = .replied runs → service.calls[asked]? =
    some ⟨.command .claimDue, .returned (.value (some (.due (runs.map Run.id))))⟩

omit [DecidableEq T] in
/-- Nothing that happens to commands moves a call that neither sends nor awaits one. -/
theorem settled_kept {phase : CallPhase T} (settled : phase.isWaiting = false) :
    phase.sent = phase ∧ phase.refused = phase ∧ phase.dropped = phase ∧
      ∀ reply, phase.answered reply = phase := by
  cases phase with
  | sending cmd | awaiting cmd => cases settled
  | _ => exact ⟨rfl, rfl, rfl, fun _ => rfl⟩

/-- The action passes commands on, or ends the task. -/
def Action.isTraffic : Action T → Bool
  | .call _ | .send _ | .refuse _ | .process _ | .stop _ => true
  | _ => false

namespace Service

/-- What passing commands on leaves alone: the means to end the task, and the calls
that neither send nor await a command. -/
structure Spared (service after : Service T) : Prop where
  cancelled : after.cancelled = service.cancelled
  aborting : after.aborting = service.aborting
  handle : after.handle = service.handle
  calls : ∀ (number : Nat) (call : Call T), service.calls[number]? = some call →
    call.phase.isWaiting = false → after.calls[number]? = some call

omit [DecidableEq T] in
theorem Spared.refl (service : Service T) : service.Spared service :=
  ⟨rfl, rfl, rfl, fun _ _ found _ => found⟩

omit [DecidableEq T] in
theorem Spared.trans {first second third : Service T} (early : first.Spared second)
    (late : second.Spared third) : first.Spared third where
  cancelled := late.cancelled.trans early.cancelled
  aborting := late.aborting.trans early.aborting
  handle := late.handle.trans early.handle
  calls number call found settled :=
    late.calls number call (early.calls number call found settled) settled

/-- A call that neither sends nor awaits stays where it is. -/
theorem traffic_stays (service : Service T) {action : Action T} (traffic : action.isTraffic = true)
    (number : Nat) {phase : CallPhase T} (settled : phase.isWaiting = false) :
    service.callMove action number phase = phase := by
  obtain ⟨sent, refused, dropped, answered⟩ := settled_kept settled
  refine call_move_elim service action number (· = phase) rfl sent refused answered dropped ?_ ?_ ?_ ?_
  all_goals
    intros
    subst action
    cases traffic

/-- Passing commands on and ending the task leave the rest alone. -/
theorem spared_step (service : Service T) {action : Action T} (traffic : action.isTraffic = true) :
    service.Spared (service.step action) := by
  have uninterrupted : action.interrupts = false := by
    cases action with
    | cancel caller | abort => cases traffic
    | _ => rfl
  obtain ⟨cancelled, aborting, handle, _⟩ := means_kept service action uninterrupted
  have handle : (service.step action).handle = service.handle := by
    refine handle.resolve_right ?_
    rintro ⟨caller, rfl⟩
    cases traffic
  refine ⟨cancelled, aborting, handle, fun number call found settled => ?_⟩
  rw [get_step service action number found, service.traffic_stays traffic number settled]

/-- What calling a method and sending its command leaves. -/
structure Posted (service after : Service T) (method : Method T) (cmd : Command T) : Prop where
  spared : service.Spared after
  calm : after.Calm
  quiet : after.NoPanic
  running : after.ended = none ∧ after.released = false
  actor : after.actor = service.actor
  queue : after.queue = service.queue ++ [(service.calls.length, cmd)]
  made : after.calls[service.calls.length]? = some ⟨method, (CallPhase.sending cmd).sent⟩
  kept : ∀ (number : Nat) (call : Call T), service.calls[number]? = some call →
    after.calls[number]? = some call

/-- A command that is sent enters the queue, and its call moves on. -/
theorem step_send {service : Service T} {number : Nat} {cmd : Command T}
    (here : service.phase number = some (.sending cmd)) : service.step (.send number) =
      (service.enqueue number cmd).moveCall number CallPhase.sent := by
  simp [step, here]

/-- While the task runs and there is room, a client can call a method and send its
command. -/
theorem post {bufferSize : Nat} {service : Service T} {method : Method T} {cmd : Command T}
    (calm : service.Calm) (quiet : service.NoPanic)
    (running : service.ended = none ∧ service.released = false)
    (room : service.queue.length < bufferSize) (starts : method.start = .sending cmd)
    (issued : Issued cmd) :
    ∃ actions, Runs.Along step (fun reached action => reached.enabled bufferSize action = true)
        service actions ∧ service.Posted (actions.foldl step service) method cmd ∧
      Runs.outputs step serving service actions = [] := by
  have callable : service.enabled bufferSize (.call method) = true := by simp [enabled, running.2]
  have calls : CallsIssued (.call method) := by
    intro other sent same sends
    obtain rfl := Action.call.inj same
    rw [method.sends_of_start cmd starts] at sends
    exact Option.some.inj sends ▸ issued
  obtain ⟨calledCalm, calledQuiet⟩ := no_panic_kept calm quiet callable calls rfl
  have place : (service.step (.call method)).phase service.calls.length = some (.sending cmd) := by
    simp [step, phase, starts]
  have sendable :
      (service.step (.call method)).enabled bufferSize (.send service.calls.length) = true := by
    have running' : (service.step (.call method)).ended = none := running.1
    have room' : (service.step (.call method)).queue.length < bufferSize := room
    simp [enabled, place, running', room']
  obtain ⟨sentCalm, sentQuiet⟩ := no_panic_kept calledCalm calledQuiet sendable
    (fun _ _ same => by cases same) rfl
  have sent := step_send place
  refine ⟨[.call method, .send service.calls.length], ⟨callable, sendable, trivial⟩, ?_, rfl⟩
  change service.Posted ((service.step (.call method)).step (.send service.calls.length)) method cmd
  constructor
  case spared => exact (spared_step _ rfl).trans (spared_step _ rfl)
  case calm => exact sentCalm
  case quiet => exact sentQuiet
  case running => rw [sent]; exact running
  case actor => rw [sent]; rfl
  case queue => rw [sent]; rfl
  case made =>
    rw [sent, get_moveCall]
    simp [enqueue, step, starts]
  case kept =>
    intro number call found
    obtain ⟨bounded, _⟩ := List.getElem?_eq_some_iff.mp found
    have other : number ≠ service.calls.length := bounded.ne
    rw [sent, get_moveCall]
    simp [enqueue, step, other, List.getElem?_append_left bounded, found]

end Service

/-- The turn does not concern the scheduler. -/
def Turn.isAside : Turn T → Bool
  | .request _ | .tick | .claimDue | .finish _ | .process _ => false
  | _ => true

namespace World

/-- What some actions of a service do for a turn of a world. -/
def Matched (bufferSize : Nat) (world : World T) (turn : Turn T) (service : Service T) : Prop :=
  ∃ actions, Runs.Along Service.step
      (fun reached action => reached.enabled bufferSize action = true) service actions ∧
    (∃ asked, Serves bufferSize (world.perform turn) asked (actions.foldl Service.step service)) ∧
      service.Spared (actions.foldl Service.step service) ∧
        (Runs.outputs Service.step Service.serving service actions).map Prod.snd =
          (world.processedInput turn).toList

/-- What a turn that does not concern the scheduler leaves alone. -/
structure Aside (world after : World T) : Prop where
  actor : after.actor = world.actor
  queue : after.queue = world.queue
  awaits : after.driver = .awaiting → world.driver = .awaiting
  replied : ∀ runs, after.driver = .replied runs → world.driver = .replied runs

/-- The turns that neither send a command nor process one do not concern it. -/
theorem aside_perform (world : World T) {turn : Turn T} (aside : turn.isAside = true) :
    world.Aside (world.perform turn) := by
  cases turn with
  | request request | tick | claimDue | finish place | process readings => cases aside
  | collect | spawn =>
    simp only [perform]
    split
    · exact ⟨rfl, rfl, fun here => (by cases here), fun _ here => (by cases here)⟩
    · exact ⟨rfl, rfl, id, fun _ => id⟩
  | resume | drain | stop | expire | abort =>
    exact ⟨rfl, rfl, fun here => (by cases here), fun _ here => (by cases here)⟩
  | deliver place | refuse place | receive =>
    simp only [perform]
    split <;> exact ⟨rfl, rfl, id, fun _ => id⟩
  | cancel | dropTask place | acknowledge run ack | dropSender run | dropReceiver =>
    exact ⟨rfl, rfl, id, fun _ => id⟩

section Turns

variable {bufferSize : Nat} {world : World T} {turn : Turn T} {service : Service T} {asked : Nat}
  (serves : Serves bufferSize world asked service)
  (permitted : world.permits bufferSize turn = true)
include serves permitted

/-- A turn that does not concern the scheduler is matched by nothing. -/
theorem serves_aside (aside : turn.isAside = true) :
    Serves bufferSize (world.perform turn) asked service := by
  obtain ⟨actor, queue, awaits, replied⟩ := world.aside_perform aside
  constructor
  case reached => exact serves.reached.tail (step_of_permitted world turn permitted)
  case calm => exact serves.calm
  case quiet => exact serves.quiet
  case running => exact serves.running
  case actor => rw [actor]; exact serves.actor
  case queue => rw [queue]; exact serves.queue
  case own => exact fun awaiting => serves.own (awaits awaiting)
  case awaits => exact fun awaiting => serves.awaits (awaits awaiting)
  case replied => exact fun runs here => serves.replied runs (replied runs here)

/-- A turn that sends a command is a client's call, and its command in the queue. The
driver awaits the reply of a claim it sends, and stays where it is otherwise. -/
theorem matched_post (idle : world.processedInput turn = none) (message : Message T)
    (method : Method T) (room : world.queue.length < bufferSize)
    (starts : method.start = .sending message.command) (issued : Issued message.command)
    (actor : (world.perform turn).actor = world.actor)
    (queue : (world.perform turn).queue = world.queue ++ [message])
    (driver : message.command ≠ .claimDue ∧
        ((world.perform turn).driver = .awaiting → world.driver = .awaiting) ∧
          (∀ runs, (world.perform turn).driver = .replied runs → world.driver = .replied runs) ∨
      message.command = .claimDue ∧ method = .command .claimDue ∧
        (world.perform turn).driver = .awaiting ∧
          ∀ number, (number, .claimDue) ∉ service.queue) :
    Matched bufferSize world turn service := by
  have room' : service.queue.length < bufferSize := by
    have lengths := congrArg List.length serves.queue
    rw [List.length_map, List.length_map] at lengths
    rw [lengths]
    exact room
  obtain ⟨actions, taken, posted, silent⟩ :=
    Service.post serves.calm serves.quiet serves.running room' starts issued
  have entries : (actions.foldl Service.step service).queue.map Prod.snd =
      (world.perform turn).queue.map Message.command := by
    rw [posted.queue, queue, List.map_append, List.map_append, serves.queue]
    rfl
  have reached := serves.reached.tail (step_of_permitted world turn permitted)
  refine ⟨actions, taken, ?_, posted.spared, by rw [idle, silent]; rfl⟩
  rcases driver with ⟨other, awaits, replied⟩ | ⟨claims, rfl, awaiting, unasked⟩
  · refine ⟨asked, reached, posted.calm, posted.quiet, posted.running, ?_, entries, ?_, ?_, ?_⟩
    · rw [posted.actor, serves.actor, actor]
    · intro here number queued
      rw [posted.queue] at queued
      rcases List.mem_append.mp queued with earlier | last
      · exact serves.own (awaits here) number earlier
      · exact absurd (Prod.mk.inj (List.mem_singleton.mp last)).2.symm other
    · exact fun here => posted.kept asked _ (serves.awaits (awaits here))
    · exact fun runs here => posted.kept asked _ (serves.replied runs (replied runs here))
  · refine ⟨service.calls.length, reached, posted.calm, posted.quiet, posted.running, ?_, entries,
      ?_, ?_, ?_⟩
    · rw [posted.actor, serves.actor, actor]
    · intro _ number queued
      rw [posted.queue] at queued
      rcases List.mem_append.mp queued with earlier | last
      · exact absurd earlier (unasked number)
      · exact (Prod.mk.inj (List.mem_singleton.mp last)).1
    · intro _
      rw [posted.made, claims]
      rfl
    · intro runs here
      rw [awaiting] at here
      cases here

omit permitted in
/-- While the driver awaits no reply and is not cut, no claim is queued. -/
theorem unasked (uncut : world.Uncut) (claiming : world.driver = .claiming) (number : Nat) :
    (number, .claimDue) ∉ service.queue := by
  intro queued
  have member : Command.claimDue ∈ world.queue.map Message.command := by
    rw [← serves.queue]
    exact List.mem_map.mpr ⟨_, queued, rfl⟩
  obtain ⟨message, inQueue, claims⟩ := List.mem_map.mp member
  have asks : message.asks = true := by
    cases message with
    | plain command =>
      obtain rfl : command = .claimDue := claims
      rfl
    | finish run ack => cases claims
  have asked := (accounted_reachable serves.reached uncut).asked
  have some := List.countP_pos_iff.mpr ⟨message, inQueue, asks⟩
  rw [Asked, claiming] at asked
  rw [asked] at some
  exact Nat.lt_irrefl 0 some

/-- The actor's turn is the task's, and its reply reaches the driver that awaits it. -/
theorem matched_process {readings : T → Reading} (acts : turn = .process readings) :
    Matched bufferSize world turn service := by
  subst acts
  obtain ⟨message, rest, first, performed⟩ := process_found permitted
  have reached := serves.reached.tail (step_of_permitted world _ permitted)
  have commands := serves.queue
  rw [first, List.map_cons] at commands
  obtain ⟨⟨number, cmd⟩, remaining, queue, same, others⟩ := List.map_eq_cons_iff.mp commands
  obtain rfl : cmd = message.command := same
  obtain ⟨handled, _⟩ := Service.calm_received serves.calm queue readings
  have enabled : service.enabled bufferSize (.process readings) = true := by
    simp [Service.enabled, serves.running.1, queue]
  have kept : service.discarded (.process readings) = [] := by
    simp [Service.discarded, queue, handled]
  obtain ⟨calm, quiet⟩ := Service.no_panic_kept serves.calm serves.quiet enabled
    (fun _ _ same => by cases same) kept
  have stepped : service.step (.process readings) =
      service.complete number message.command remaining
        (service.actor.send message.command readings).1
        (service.actor.send message.command readings).2 := by
    simp [Service.step, queue, handled]
  have served : service.serving (.process readings) = some (number, ⟨message.command, readings⟩) := by
    simp [Service.serving, queue, handled]
  have input : world.processedInput (.process readings) = some ⟨message.command, readings⟩ := by
    simp [processedInput, first]
  have spared : service.Spared (service.step (.process readings)) := Service.spared_step service rfl
  refine ⟨[.process readings], ⟨enabled, trivial⟩, ⟨asked, ?_⟩, spared, ?_⟩
  · change Serves bufferSize _ asked (service.step (.process readings))
    rw [performed] at reached ⊢
    rw [stepped] at calm quiet ⊢
    constructor
    case reached => exact reached
    case calm => exact calm
    case quiet => exact quiet
    case running => exact serves.running
    case actor => exact congrArg (fun actor => (actor.send message.command readings).1) serves.actor
    case queue => exact others
    case own =>
      intro awaiting other queued
      rcases receive_cases (world.issue (world.actor.claimed ⟨message.command, readings⟩))
        message.command world.driver with ⟨_, _, replies⟩ | ⟨stays, _⟩
      · cases replies.symm.trans awaiting
      · exact serves.own (stays.symm.trans awaiting) other (queue ▸ List.mem_cons_of_mem _ queued)
    case awaits =>
      intro awaiting
      rcases receive_cases (world.issue (world.actor.claimed ⟨message.command, readings⟩))
        message.command world.driver with ⟨_, _, replies⟩ | ⟨stays, unanswered⟩
      · cases replies.symm.trans awaiting
      · have here := stays.symm.trans awaiting
        have found := serves.awaits here
        have other : asked ≠ number := by
          rintro rfl
          have own := Service.awaits_own serves.calm.consistent found
            (queue ▸ List.mem_cons_self) rfl
          exact unanswered ⟨(CallPhase.awaiting.inj own).symm, here⟩
        rw [Service.complete, Service.get_moveCall, found]
        simp [other]
    case replied =>
      intro runs replied
      rcases receive_cases (world.issue (world.actor.claimed ⟨message.command, readings⟩))
        message.command world.driver with ⟨claims, here, replies⟩ | ⟨stays, _⟩
      · obtain rfl := DriverPoint.replied.inj (replies.symm.trans replied)
        have found := serves.awaits here
        have own : number = asked :=
          serves.own here number (queue ▸ claims ▸ List.mem_cons_self)
        rw [Service.complete, Service.get_moveCall, found, issue_ids, own, claims, serves.actor]
        simp [CallPhase.answered]
        rfl
      · have found := serves.replied runs (stays.symm.trans replied)
        rw [Service.complete, Service.get_moveCall, found]
        simp [CallPhase.answered]
  · rw [input]
    simp [Runs.outputs, served]

/-- Every permitted turn is matched by actions of the service. -/
theorem matched_perform : Matched bufferSize world turn service := by
  cases turn with
  | request request =>
    obtain ⟨command, accepted, room, performed⟩ := request_found permitted
    have asks := request_silent request command accepted
    refine matched_post serves permitted rfl (.plain command) (.request request) room ?_
      (.request request command accepted) (performed ▸ rfl) (performed ▸ rfl) (Or.inl ⟨?_, ?_, ?_⟩)
    · simp [Method.start, accepted, Message.command]
    · rintro (rfl : command = .claimDue)
      cases asks
    · exact performed ▸ id
    · exact performed ▸ fun _ => id
  | tick =>
    obtain ⟨_, room⟩ := of_decide_eq_true permitted
    refine matched_post serves permitted rfl (.plain .tick) (.command .tick) room rfl .tick rfl rfl
      (Or.inl ⟨?_, ?_, ?_⟩)
    · intro asks
      cases asks
    · intro here
      cases here
    · intro runs here
      cases here
  | claimDue =>
    obtain ⟨claiming, room⟩ := of_decide_eq_true permitted
    have uncut : world.Uncut := by simp [Uncut, claiming]
    exact matched_post serves permitted rfl (.plain .claimDue) (.command .claimDue) room rfl .claimDue
      rfl rfl (Or.inr ⟨rfl, rfl, rfl, unasked serves uncut claiming⟩)
  | finish place =>
    obtain ⟨front, run, ack, back, _, room, performed⟩ := finish_found permitted
    refine matched_post serves permitted rfl (.finish run ack) (.command (.finish run.id ack)) room rfl
      (.finish run.id ack) (performed ▸ rfl) (performed ▸ rfl)
      (Or.inl ⟨?_, performed ▸ id, performed ▸ fun _ => id⟩)
    intro asks
    cases asks
  | process readings => exact matched_process serves permitted rfl
  | _ => exact ⟨[], trivial, ⟨asked, serves_aside serves permitted rfl⟩, .refl service, rfl⟩

end Turns

/-- A spawned service serves the world as it starts. -/
theorem initial_serves (bufferSize : Nat) :
    Serves bufferSize (initial : World T) 0 Service.spawned := by
  have calm : (Service.spawned : Service T).Calm := by
    refine ⟨Service.spawned_consistent, ?_, SchedulerActor.empty_stores_valid,
      by simp [Service.spawned]⟩
    intro number call found
    simp [Service.spawned] at found
  have quiet : (Service.spawned : Service T).NoPanic := by
    intro number call found
    simp [Service.spawned] at found
  exact ⟨.refl, calm, quiet, ⟨rfl, rfl⟩, rfl, rfl, by simp [initial], by simp [initial],
    by simp [initial]⟩

/-- The driver and its tasks are clients of the scheduler. Every interleaving of them
with clients and consumers is matched by an interleaving of calls: the actor is in the
same state, the queue holds the same commands, and the actor has processed the same
commands and read the same. The task has not ended and no call has panicked. And the
reply that the driver has is what a call of `claim_due` returned. -/
theorem driver_is_client (bufferSize : Nat) (turns : List (Turn T))
    (taken : Interleaving bufferSize turns) :
    ∃ actions : List (Action T), Service.Interleaving bufferSize actions ∧
      (Service.served actions).map Prod.snd = history turns ∧
      ∃ service, actions.foldl Service.step Service.spawned = service ∧
        service.actor = (reached turns).actor ∧
        service.queue.map Prod.snd = (reached turns).queue.map Message.command ∧
        service.ended = none ∧ service.NoPanic ∧
        ∀ runs, (reached turns).driver = .replied runs → ∃ number : Nat, service.calls[number]? =
          some ⟨.command .claimDue, .returned (.value (some (.due (runs.map Run.id))))⟩ := by
  have simulates : Runs.Simulates perform (fun world turn => world.permits bufferSize turn = true)
      processedInput Service.step (fun service action => service.enabled bufferSize action = true)
      Service.serving Prod.snd
      (fun (world : World T) service => ∃ asked, Serves bufferSize world asked service) := by
    rintro world service turn ⟨asked, serves⟩ permitted
    obtain ⟨actions, followed, related, _, same⟩ := matched_perform serves permitted
    exact ⟨actions, followed, related, same⟩
  obtain ⟨actions, followed, ⟨asked, serves⟩, same⟩ :=
    simulates.run ⟨0, initial_serves bufferSize⟩ taken
  exact ⟨actions, followed, same, _, rfl, serves.actor, serves.queue, serves.running.1, serves.quiet,
    fun runs replied => ⟨asked, serves.replied runs replied⟩⟩

/-- A run from registration to snooze is matched by calls, with the same commands. -/
theorem driver_is_client_snoozing :
    (history snoozing).map Input.command = [.register ⟨1, .fixedInterval 10⟩, .tick, .claimDue,
        .finish 1 (.snooze 5)] ∧
      ∃ actions : List (Action Nat), Service.Interleaving 4 actions ∧
        (Service.served actions).map Prod.snd = history snoozing := by
  obtain ⟨actions, followed, same, _⟩ := driver_is_client 4 snoozing (by decide)
  exact ⟨by decide, actions, followed, same⟩

end World

end Ritualist
