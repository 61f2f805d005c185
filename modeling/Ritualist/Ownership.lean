import Ritualist.Clients
import Ritualist.Lifecycle

/-!
# The owner is a client too

A ritual is the driver, its tasks, the consumers and clients together with an owner who
ends it; its clients use `WithScheduler` and leave the end to the owner. At the
scheduler the owner's shutdown is one more call, made once the driver's task has ended,
and its abort is the scheduler's. What the parties send after the end of the actor's
task is a call that is refused, and the claim that the driver awaits at that moment is
dropped with the queue and reports nothing.

So the ritual, with its end, is an interleaving of clients of the scheduler. There the
call that the owner's shutdown makes returns without an error: the task had broken out
of its loop, neither aborted nor panicked.
-/

namespace Ritualist

universe u
variable {T : Type u}

/-- How the owner has the actor's task end. -/
def Owner.ending : Owner → Ending
  | .aborted => .aborted
  | _ => .finished

namespace Service

/-- A service in which the owner has done what it has done: it holds the join handle
until it stops the scheduler, and its shutdown is a call. -/
structure Owned (service : Service T) (owner : Owner) : Prop where
  holds : owner.stopsScheduler = false → service.handle = true
  joins : owner = .joiningScheduler →
    service.cancelled = true ∧ ∃ number : Nat, service.calls[number]? = some ⟨.shutdown, .joining⟩
  aborts : owner = .aborted → service.aborting = true
  returned : owner = .returned →
    ∃ number : Nat, service.calls[number]? = some ⟨.shutdown, .returned (.joined (.ok ()))⟩

/-- Commands do not concern the owner. -/
theorem Owned.spared {service after : Service T} {owner : Owner} (owned : service.Owned owner)
    (spared : service.Spared after) : after.Owned owner where
  holds holding := spared.handle.trans (owned.holds holding)
  joins joining := by
    obtain ⟨cancelled, number, found⟩ := owned.joins joining
    exact ⟨spared.cancelled.trans cancelled, number, spared.calls number _ found rfl⟩
  aborts aborted := spared.aborting.trans (owned.aborts aborted)
  returned returns := by
    obtain ⟨number, found⟩ := owned.returned returns
    exact ⟨number, spared.calls number _ found rfl⟩

end Service

/-- A service whose task has ended, for a world that goes on without it. -/
structure Outlived (world : World T) (asked : Nat) (service : Service T) (ending : Ending) : Prop where
  ended : service.ended = some ending
  unreleased : service.released = false
  actor : service.actor = world.actor
  queue : service.queue = []
  replied : ∀ runs, world.driver = .replied runs → service.calls[asked]? =
    some ⟨.command .claimDue, .returned (.value (some (.due (runs.map Run.id))))⟩

namespace Service

variable [DecidableEq T]

/-- What calling a method leaves whose command is refused. -/
structure Rebuffed (service after : Service T) (method : Method T) (cmd : Command T) : Prop where
  spared : service.Spared after
  ended : after.ended = service.ended
  unreleased : after.released = service.released
  actor : after.actor = service.actor
  queue : after.queue = service.queue
  made : after.calls[service.calls.length]? = some ⟨method, .returned cmd.unanswered⟩

/-- After the end of the task a client can call a method, and its command is refused. -/
theorem rebuff {service : Service T} {method : Method T} {cmd : Command T} (bufferSize : Nat)
    (ended : service.ended.isSome = true) (unreleased : service.released = false)
    (starts : method.start = .sending cmd) :
    ∃ actions, Runs.Along step (fun reached action => reached.enabled bufferSize action = true)
        service actions ∧ service.Rebuffed (actions.foldl step service) method cmd ∧
      Runs.outputs step serving service actions = [] := by
  have callable : service.enabled bufferSize (.call method) = true := by
    simp [enabled, unreleased]
  have made : (service.step (.call method)).calls[service.calls.length]? =
      some ⟨method, .sending cmd⟩ := by
    simp [step, starts]
  have refusable : (service.step (.call method)).enabled bufferSize
      (.refuse service.calls.length) = true := by
    have ended' : (service.step (.call method)).ended.isSome = true := ended
    simp [enabled, phase, made, ended']
  have spared : service.Spared
      ((service.step (.call method)).step (.refuse service.calls.length)) :=
    (spared_step service rfl).trans (spared_step _ rfl)
  refine ⟨[.call method, .refuse service.calls.length], ⟨callable, refusable, trivial⟩, ?_, rfl⟩
  refine ⟨spared, rfl, rfl, rfl, rfl, ?_⟩
  rw [show [Action.call method, .refuse service.calls.length].foldl step service =
    (service.step (.call method)).step (.refuse service.calls.length) from rfl,
    get_step _ _ _ made]
  simp [callMove, CallPhase.refused]

end Service

namespace World

variable [DecidableEq T]

section Closed

variable {bufferSize : Nat} {world : World T} {turn : Turn T} {service : Service T} {asked : Nat}
  {ending : Ending}

/-- What some actions of a service whose task has ended do for a turn of a world. -/
def Answered (bufferSize : Nat) (world : World T) (turn : Turn T) (service : Service T)
    (ending : Ending) : Prop :=
  ∃ actions, Runs.Along Service.step
      (fun reached action => reached.enabled bufferSize action = true) service actions ∧
    (∃ asked, Outlived (world.performClosed turn) asked (actions.foldl Service.step service) ending) ∧
      service.Spared (actions.foldl Service.step service) ∧
        Runs.outputs Service.step Service.serving service actions = []

/-- A turn that sends a command is a call that is refused. The driver takes the refusal
of its claim for an empty reply, and has no reply otherwise but one it had. -/
theorem answered_rebuff (outlived : Outlived world asked service ending) (method : Method T)
    (cmd : Command T) (starts : method.start = .sending cmd)
    (actor : (world.performClosed turn).actor = world.actor)
    (driver : (∀ runs, (world.performClosed turn).driver = .replied runs →
        world.driver = .replied runs) ∨
      method = .command .claimDue ∧ cmd = .claimDue ∧
        (world.performClosed turn).driver = .replied []) :
    Answered bufferSize world turn service ending := by
  obtain ⟨actions, taken, rebuffed, silent⟩ := Service.rebuff bufferSize
    (by rw [outlived.ended]; rfl) outlived.unreleased starts
  have ended := rebuffed.ended.trans outlived.ended
  have unreleased := rebuffed.unreleased.trans outlived.unreleased
  have same := rebuffed.actor.trans (outlived.actor.trans actor.symm)
  have queue := rebuffed.queue.trans outlived.queue
  refine ⟨actions, taken, ?_, rebuffed.spared, silent⟩
  rcases driver with replied | ⟨rfl, rfl, replies⟩
  · refine ⟨asked, ended, unreleased, same, queue, fun runs here => ?_⟩
    exact rebuffed.spared.calls asked _ (outlived.replied runs (replied runs here)) rfl
  · refine ⟨service.calls.length, ended, unreleased, same, queue, fun runs here => ?_⟩
    obtain rfl := DriverPoint.replied.inj (replies.symm.trans here)
    exact rebuffed.made

/-- A turn that does not concern the scheduler is as it was while the task ran. -/
theorem answered_aside (outlived : Outlived world asked service ending)
    (aside : turn.isAside = true) : Answered bufferSize world turn service ending := by
  have same : world.performClosed turn = world.perform turn := by
    cases turn with
    | request request | tick | claimDue | finish place | process readings => cases aside
    | _ => rfl
  obtain ⟨actor, _, _, replied⟩ := world.aside_perform aside
  refine ⟨[], trivial, ⟨asked, ?_⟩, .refl service, rfl⟩
  rw [same]
  exact ⟨outlived.ended, outlived.unreleased, outlived.actor.trans actor.symm, outlived.queue,
    fun runs here => outlived.replied runs (replied runs here)⟩

/-- Every turn after the end of the actor's task is matched by actions of the service. -/
theorem answered_perform (outlived : Outlived world asked service ending)
    (permitted : world.permitsClosed bufferSize turn = true) :
    Answered bufferSize world turn service ending := by
  cases turn with
  | request request =>
    cases accepted : request.command with
    | error error =>
      simp [permitsClosed, accepted, Except.isOk, Except.toBool] at permitted
    | ok command =>
      exact answered_rebuff outlived (.request request) command (by simp [Method.start, accepted])
        rfl (Or.inl fun _ => id)
  | tick =>
    refine answered_rebuff outlived (.command .tick) .tick rfl rfl (Or.inl fun runs here => ?_)
    cases here
  | claimDue =>
    exact answered_rebuff outlived (.command .claimDue) .claimDue rfl rfl (Or.inr ⟨rfl, rfl, rfl⟩)
  | finish place =>
    cases finishing : world.phaseAt place with
    | none => simp [permitsClosed, finishing] at permitted
    | some phase =>
      obtain ⟨⟨run, _⟩, _, _⟩ := Option.map_eq_some_iff.mp finishing
      cases phase with
      | finishing ack =>
        exact answered_rebuff outlived (.command (.finish run.id ack)) (.finish run.id ack) rfl rfl
          (Or.inl fun _ => id)
      | _ => simp [permitsClosed, finishing] at permitted
  | process readings => cases permitted
  | _ => exact answered_aside outlived rfl

end Closed

/-- The end of the task drops the queue, and with it the claim that the driver awaits. -/
theorem outlived_stop {bufferSize : Nat} {world : World T} {asked : Nat} {service : Service T}
    (serves : Serves bufferSize world asked service) (ending : Ending) :
    Outlived world.dropQueue asked (service.step (.stop ending)) ending := by
  refine ⟨rfl, serves.running.2, serves.actor, rfl, fun runs here => ?_⟩
  have spared : service.Spared (service.step (.stop ending)) := Service.spared_step service rfl
  cases driver : world.driver with
  | awaiting =>
    have dropped : world.dropQueue.driver = .replied [] := by simp [dropQueue, driver]
    obtain rfl := DriverPoint.replied.inj (dropped.symm.trans here)
    have found := serves.awaits driver
    have queued := ((serves.calm.consistent.fits asked _ found).awaiting .claimDue rfl).2.2
    have member : asked ∈ service.queue.map Prod.fst := List.mem_map.mpr ⟨_, queued, rfl⟩
    rw [Service.get_step _ _ _ found]
    simp [Service.callMove, member, CallPhase.dropped, Command.unanswered]
  | replied earlier =>
    have same : world.dropQueue.driver = .replied earlier := by simp [dropQueue, driver]
    obtain rfl := DriverPoint.replied.inj (same.symm.trans here)
    exact spared.calls asked _ (serves.replied _ driver) rfl
  | _ => simp [dropQueue, driver] at here

end World

namespace Service

variable [DecidableEq T]

/-- What a shutdown leaves that waits for the task to end. -/
structure Joining (service after : Service T) : Prop where
  calm : after.Calm
  quiet : after.NoPanic
  running : after.ended = none ∧ after.released = false
  actor : after.actor = service.actor
  queue : after.queue = service.queue
  kept : ∀ (number : Nat) (call : Call T), service.calls[number]? = some call →
    after.calls[number]? = some call
  owned : after.Owned .joiningScheduler

/-- While the task runs, a client that finds the join handle can call a shutdown, which
cancels the token and awaits the end of the task. -/
theorem shut_down {service : Service T} (bufferSize : Nat) (calm : service.Calm)
    (quiet : service.NoPanic) (running : service.ended = none ∧ service.released = false)
    (holds : service.handle = true) :
    ∃ actions, Runs.Along step (fun reached action => reached.enabled bufferSize action = true)
        service actions ∧ service.Joining (actions.foldl step service) ∧
      Runs.outputs step serving service actions = [] := by
  let number := service.calls.length
  let called := service.step (.call .shutdown)
  let cancelled := called.step (.cancel number)
  have silent : ∀ action : Action T, action.isTraffic = false → CallsIssued action := by
    intro action aside method cmd same
    cases same.symm ▸ aside
  have made : called.calls[number]? = some ⟨.shutdown, .cancelling⟩ := by
    simp [called, number, step, Method.start]
  have taking : cancelled.calls[number]? = some ⟨.shutdown, .taking⟩ := by
    simp [cancelled, get_step _ _ _ made, callMove]
  have joining : (cancelled.step (.take number)).calls[number]? = some ⟨.shutdown, .joining⟩ := by
    have present : cancelled.handle = true := holds
    simp [get_step _ _ _ taking, callMove, CallPhase.took, present]
  have callable : service.enabled bufferSize (.call .shutdown) = true := by
    simp [enabled, running.2]
  have cancellable : called.enabled bufferSize (.cancel number) = true := by
    simp [enabled, phase, made]
  have takable : cancelled.enabled bufferSize (.take number) = true := by
    simp [enabled, phase, taking]
  obtain ⟨calm, quiet⟩ := no_panic_kept calm quiet callable (fun method cmd same sends => by
    obtain rfl := Action.call.inj same
    cases sends) rfl
  obtain ⟨calm, quiet⟩ := no_panic_kept calm quiet cancellable (silent _ rfl) rfl
  obtain ⟨calm, quiet⟩ := no_panic_kept calm quiet takable (silent _ rfl) rfl
  refine ⟨[.call .shutdown, .cancel number, .take number],
    ⟨callable, cancellable, takable, trivial⟩, ?_, rfl⟩
  change service.Joining (cancelled.step (.take number))
  constructor
  case calm => exact calm
  case quiet => exact quiet
  case running => exact running
  case actor => rfl
  case queue => rfl
  case kept =>
    intro other call found
    obtain ⟨bounded, _⟩ := List.getElem?_eq_some_iff.mp found
    have different : other ≠ number := bounded.ne
    have first : called.calls[other]? = some call := by
      simp [called, step, List.getElem?_append_left bounded, found]
    have second : cancelled.calls[other]? = some call := by
      simp [cancelled, get_step _ _ _ first, callMove, different]
    simp [get_step _ _ _ second, callMove, different]
  case owned =>
    constructor
    case joins => exact fun _ => ⟨rfl, number, joining⟩
    all_goals
      intro impossible
      cases impossible

end Service

namespace RunningRitualist

variable [DecidableEq T]

/-- What the actor processes in a move. -/
def processedInput (ritual : RunningRitualist T) : Move T → Option (Input T)
  | .turn turn => if ritual.ended then none else ritual.world.processedInput turn
  | _ => none

/-- The commands that the actor processes in a list of moves, with what is read. -/
def history (moves : List (Move T)) : List (Input T) :=
  Runs.outputs perform processedInput started moves

/-- A service that does for a ritual what its scheduler does, until it ends and after. -/
structure Attended (bufferSize : Nat) (ritual : RunningRitualist T) (asked : Nat)
    (service : Service T) : Prop where
  orderly : ritual.Orderly bufferSize
  serves : ritual.ended = false → Serves bufferSize ritual.world asked service
  outlived : ritual.ended = true → Outlived ritual.world asked service ritual.owner.ending
  owned : service.Owned ritual.owner

/-- What some actions of a service do for a move of a ritual. -/
def Matched (bufferSize : Nat) (ritual : RunningRitualist T) (move : Move T) (service : Service T) :
    Prop :=
  ∃ actions, Runs.Along Service.step
      (fun reached action => reached.enabled bufferSize action = true) service actions ∧
    (∃ asked, Attended bufferSize (ritual.perform move) asked
        (actions.foldl Service.step service)) ∧
      (Runs.outputs Service.step Service.serving service actions).map Prod.snd =
        (ritual.processedInput move).toList

section Moves

variable {bufferSize : Nat} {ritual : RunningRitualist T} {service : Service T} {asked : Nat}
  (attended : Attended bufferSize ritual asked service)
include attended

/-- A turn of a party is matched, before the end of the actor's task and after it. -/
theorem matched_turn {turn : Turn T} (permitted : ritual.permits bufferSize (.turn turn) = true) :
    Matched bufferSize ritual (.turn turn) service := by
  obtain ⟨_, sees⟩ := turn_permitted permitted
  have orderly := orderly_perform attended.orderly permitted
  cases ended : ritual.ended with
  | false =>
    rw [ended, if_neg Bool.false_ne_true] at sees
    obtain ⟨actions, taken, ⟨asked, serves⟩, spared, same⟩ :=
      World.matched_perform (attended.serves ended) sees
    have performed : ritual.perform (.turn turn) =
        { ritual with world := ritual.world.perform turn } := by simp [perform, ended]
    refine ⟨actions, taken, ⟨asked, ?_⟩, by simp [processedInput, ended, same]⟩
    rw [performed] at orderly ⊢
    refine ⟨orderly, fun _ => serves, fun hasEnded => ?_, attended.owned.spared spared⟩
    cases ended.symm.trans hasEnded
  | true =>
    rw [ended, if_pos rfl] at sees
    obtain ⟨actions, taken, ⟨asked, outlived⟩, spared, silent⟩ :=
      World.answered_perform (attended.outlived ended) sees
    have performed : ritual.perform (.turn turn) =
        { ritual with
          world := ritual.world.performClosed turn
          lost := ritual.world.unsent turn ++ ritual.lost } := by simp [perform, ended]
    refine ⟨actions, taken, ⟨asked, ?_⟩, by simp [processedInput, ended, silent]⟩
    rw [performed] at orderly ⊢
    refine ⟨orderly, fun runs => ?_, fun _ => outlived, attended.owned.spared spared⟩
    cases ended.symm.trans runs

/-- The owner begins a shutdown, of which the scheduler sees nothing. -/
theorem matched_shutdown (permitted : ritual.permits bufferSize .shutdown = true) :
    Matched bufferSize ritual .shutdown service := by
  have holding : ritual.owner = .holding := of_decide_eq_true permitted
  have running := attended.orderly.runs_while (by rw [holding]; rfl)
  have serves : Serves bufferSize (ritual.world.perform .cancel) asked service :=
    World.serves_aside (attended.serves running) rfl rfl
  refine ⟨[], trivial, ⟨asked, orderly_perform attended.orderly permitted, fun _ => serves, ?_, ?_⟩,
    rfl⟩
  · intro hasEnded
    cases running.symm.trans hasEnded
  · constructor
    case holds => exact fun _ => attended.owned.holds (by rw [holding]; rfl)
    all_goals
      intro impossible
      cases impossible

/-- The driver's task has ended, and the owner calls the scheduler's shutdown. -/
theorem matched_join_driver (permitted : ritual.permits bufferSize .joinDriver = true) :
    Matched bufferSize ritual .joinDriver service := by
  have joining : ritual.owner = .joiningDriver :=
    of_decide_eq_true (Bool.and_eq_true_iff.mp permitted).1
  have running := attended.orderly.runs_while (by rw [joining]; rfl)
  have serves := attended.serves running
  obtain ⟨actions, taken, joins, silent⟩ := Service.shut_down bufferSize serves.calm serves.quiet
    serves.running (attended.owned.holds (by rw [joining]; rfl))
  refine ⟨actions, taken, ⟨asked, orderly_perform attended.orderly permitted, fun _ => ?_, ?_,
    joins.owned⟩, by rw [silent]; rfl⟩
  · constructor
    case reached => exact serves.reached
    case calm => exact joins.calm
    case quiet => exact joins.quiet
    case running => exact joins.running
    case actor => exact joins.actor.trans serves.actor
    case queue => rw [joins.queue]; exact serves.queue
    case own => rw [joins.queue]; exact serves.own
    case awaits => exact fun here => joins.kept asked _ (serves.awaits here)
    case replied => exact fun runs here => joins.kept asked _ (serves.replied runs here)
  · intro hasEnded
    cases running.symm.trans hasEnded

/-- The actor's task has ended, and the owner's shutdown returns. -/
theorem matched_join_scheduler (permitted : ritual.permits bufferSize .joinScheduler = true) :
    Matched bufferSize ritual .joinScheduler service := by
  obtain ⟨joins, ended⟩ := Bool.and_eq_true_iff.mp permitted
  have joining : ritual.owner = .joiningScheduler := of_decide_eq_true joins
  have outlived := attended.outlived ended
  have finished : service.ended = some .finished := by rw [outlived.ended, joining]; rfl
  obtain ⟨_, number, found⟩ := attended.owned.joins joining
  have joinable : service.enabled bufferSize (.join number) = true := by
    simp [Service.enabled, Service.phase, found, finished]
  have stepped : service.step (.join number) =
      service.moveCall number fun _ => .returned (.joined (.ok ())) := by
    simp [Service.step, finished, Ending.result]
  refine ⟨[.join number], ⟨joinable, trivial⟩, ⟨asked,
    orderly_perform attended.orderly permitted, fun runs => ?_, fun _ => ?_, ?_⟩, rfl⟩
  · cases ended.symm.trans runs
  · change Outlived _ asked (service.step (.join number)) _
    rw [stepped]
    refine ⟨finished, outlived.unreleased, outlived.actor, outlived.queue, fun runs here => ?_⟩
    have replied := outlived.replied runs here
    have other : asked ≠ number := by
      rintro rfl
      cases found.symm.trans replied
    rw [Service.get_moveCall, replied]
    simp [other]
  · change (service.step (.join number)).Owned _
    rw [stepped]
    constructor
    case returned =>
      refine fun _ => ⟨number, ?_⟩
      rw [Service.get_moveCall, found]
      simp
    all_goals
      intro impossible
      cases impossible

/-- The owner aborts the actor's task. -/
theorem matched_abort (permitted : ritual.permits bufferSize .abort = true) :
    Matched bufferSize ritual .abort service := by
  have holding : ritual.owner = .holding := of_decide_eq_true permitted
  have running := attended.orderly.runs_while (by rw [holding]; rfl)
  have serves := attended.serves running
  have abortable : service.enabled bufferSize .abort = true := by
    simp [Service.enabled, serves.running.2]
  obtain ⟨calm, quiet⟩ := Service.no_panic_kept serves.calm serves.quiet abortable
    (fun _ _ same => by cases same) rfl
  refine ⟨[.abort], ⟨abortable, trivial⟩, ⟨asked, orderly_perform attended.orderly permitted,
    fun _ => ?_, ?_, ?_⟩, rfl⟩
  · exact ⟨serves.reached, calm, quiet, serves.running, serves.actor, serves.queue, serves.own,
      serves.awaits, serves.replied⟩
  · intro hasEnded
    cases running.symm.trans hasEnded
  · have holds := attended.owned.holds (by rw [holding]; rfl)
    constructor
    case aborts => exact fun _ => by simp [Service.step, holds]
    all_goals
      intro impossible
      cases impossible

/-- The actor's task ends as its owner has it end. -/
theorem matched_end_actor (permitted : ritual.permits bufferSize .endActor = true) :
    Matched bufferSize ritual .endActor service := by
  obtain ⟨stops, unended⟩ := Bool.and_eq_true_iff.mp permitted
  have running : ritual.ended = false := by simpa using unended
  have serves := attended.serves running
  have stoppable : service.enabled bufferSize (.stop ritual.owner.ending) = true := by
    cases owner : ritual.owner with
    | holding | joiningDriver => rw [owner] at stops; cases stops
    | joiningScheduler =>
      obtain ⟨cancelled, _⟩ := attended.owned.joins owner
      simp [Owner.ending, Service.enabled, serves.running.1, cancelled]
    | returned => cases running.symm.trans (attended.orderly.returned owner)
    | aborted =>
      simp [Owner.ending, Service.enabled, serves.running.1, attended.owned.aborts owner]
  have spared : service.Spared (service.step (.stop ritual.owner.ending)) :=
    Service.spared_step service rfl
  refine ⟨[.stop ritual.owner.ending], ⟨stoppable, trivial⟩, ⟨asked,
    orderly_perform attended.orderly permitted, fun runs => ?_, fun _ => ?_, ?_⟩, rfl⟩
  · cases runs
  · exact World.outlived_stop serves ritual.owner.ending
  · exact attended.owned.spared spared

/-- Every move of a ritual is matched by actions of the service. -/
theorem matched_perform {move : Move T} (permitted : ritual.permits bufferSize move = true) :
    Matched bufferSize ritual move service := by
  cases move with
  | turn turn => exact matched_turn attended permitted
  | shutdown => exact matched_shutdown attended permitted
  | joinDriver => exact matched_join_driver attended permitted
  | joinScheduler => exact matched_join_scheduler attended permitted
  | abort => exact matched_abort attended permitted
  | endActor => exact matched_end_actor attended permitted

end Moves

end RunningRitualist

end Ritualist
