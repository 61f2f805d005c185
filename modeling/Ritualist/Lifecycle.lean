import Ritualist.Completion

/-!
# Shutdown and abort of a running ritualist

The owner of a running ritualist may shut it down: it cancels the driver and awaits
the end of its task, and only then cancels the scheduler and awaits the end of that.
Or it may abort both at once. The end of the actor's task drops its queue; what is
sent afterwards is refused, and refusals go unnoticed in the driver and its tasks.

A ritual is a world with its owner and the end of the actor's task, and a move is a
turn of a party of the world or one of these. Only the owner ends the scheduler here. A
client that shut it down or aborted it, through a clone from `get_scheduler`, would take
the join handle that the owner is to await; `Service` has clients that do.

When a shutdown has returned, everything has stopped, and nothing starts again:
`returned_means_stopped`. If the grace period was enough, every run had been handed
to a consumer or refused, and had sent its acknowledgement.
-/

namespace Ritualist

universe u

/-- Where the owner of a running ritualist is. -/
inductive Owner where
  /-- It holds the handle. -/
  | holding
  /-- In `shutdown`, at `self.driver.shutdown().await`. -/
  | joiningDriver
  /-- In `shutdown`, at `self.scheduler.shutdown().await`. -/
  | joiningScheduler
  /-- `shutdown` has returned. -/
  | returned
  /-- `abort` has returned. -/
  | aborted
  deriving DecidableEq, Repr

/-- The owner has cancelled the scheduler's token, or aborted its task. -/
def Owner.stopsScheduler : Owner → Bool
  | .holding => false
  | .joiningDriver => false
  | _ => true

/-- The owner has seen the driver's task end. -/
def Owner.JoinedDriver (owner : Owner) : Prop := owner = .joiningScheduler ∨ owner = .returned

/-- The state of a running ritualist and of all that it spawned. -/
structure RunningRitualist (T : Type u) where
  world : World T
  owner : Owner
  /-- The actor's task has ended. -/
  ended : Bool
  /-- The runs whose acknowledgement was dropped with the queue, or refused. -/
  lost : List (Run T)

/-- A move of one party, or of the owner. -/
inductive Move (T : Type u) where
  | turn (turn : Turn T)
  | shutdown
  /-- The driver's task has ended, and the owner goes on. -/
  | joinDriver
  /-- The actor's task has ended, and the owner goes on. -/
  | joinScheduler
  | abort
  /-- The actor's task ends and drops its queue. -/
  | endActor

variable {T : Type u}

namespace World

/-- The driver's task has ended: all of its own tasks are joined. -/
def driverEnded (world : World T) : Bool :=
  match world.driver with
  | .stopped => true
  | .expired => world.tasks.isEmpty
  | _ => false

/-- The queue is dropped, and with it the claim that the driver awaits:
`rx.await.unwrap_or_default()`. -/
def dropQueue (world : World T) : World T :=
  { world with
    queue := []
    driver := match world.driver with
      | .awaiting => .replied []
      | point => point }

variable [DecidableEq T]

/-- When a turn can be taken after the actor's task has ended. Sending does not wait
for room, as it fails at once. -/
def permitsClosed (bufferSize : Nat) (world : World T) : Turn T → Bool
  | .request request => request.command.isOk
  | .tick => decide (world.driver = .selecting)
  | .claimDue => decide (world.driver = .claiming)
  | .finish place =>
    match world.phaseAt place with
    | some (.finishing _) => true
    | _ => false
  | .process _ => false
  | turn => world.permits bufferSize turn

/-- What a turn does after the actor's task has ended. A claim that cannot be sent
reports nothing. -/
def performClosed (world : World T) : Turn T → World T
  | .request _ => world
  | .tick => world.moveTo .claiming
  | .claimDue => world.moveTo (.replied [])
  | .finish place => world.setTasks (world.tasks.eraseIdx place)
  | .process _ => world
  | turn => world.perform turn

/-- The run whose acknowledgement a turn cannot send, if any. -/
def unsent (world : World T) : Turn T → List (Run T)
  | .finish place => (world.tasks[place]?.map Task.run).toList
  | _ => []

end World

namespace RunningRitualist

variable [DecidableEq T]

/-- A ritualist as it starts to run. -/
def started : RunningRitualist T where
  world := .initial
  owner := .holding
  ended := false
  lost := []

/-- When a move can be taken. The driver's token is cancelled by its owner's shutdown
alone, and its task is aborted by the owner's abort, from which on that takes effect
at any time. -/
def permits (bufferSize : Nat) (ritual : RunningRitualist T) : Move T → Bool
  | .turn .cancel => false
  | .turn .abort => decide (ritual.owner = .aborted ∧ ritual.world.driver ≠ .aborted)
  | .turn turn =>
    if ritual.ended then ritual.world.permitsClosed bufferSize turn
    else ritual.world.permits bufferSize turn
  | .shutdown => decide (ritual.owner = .holding)
  | .joinDriver => decide (ritual.owner = .joiningDriver) && ritual.world.driverEnded
  | .joinScheduler => decide (ritual.owner = .joiningScheduler) && ritual.ended
  | .abort => decide (ritual.owner = .holding)
  | .endActor => ritual.owner.stopsScheduler && !ritual.ended

/-- What a move does. -/
def perform (ritual : RunningRitualist T) : Move T → RunningRitualist T
  | .turn turn =>
    if ritual.ended then
      { ritual with
        world := ritual.world.performClosed turn
        lost := ritual.world.unsent turn ++ ritual.lost }
    else { ritual with world := ritual.world.perform turn }
  | .shutdown => { ritual with world := ritual.world.requestCancel, owner := .joiningDriver }
  | .joinDriver => { ritual with owner := .joiningScheduler }
  | .joinScheduler => { ritual with owner := .returned }
  | .abort => { ritual with owner := .aborted }
  | .endActor =>
    { ritual with
      world := ritual.world.dropQueue
      ended := true
      lost := ritual.world.queue.flatMap Message.runs ++ ritual.lost }

/-- Every move of an interleaving is permitted where it is taken. -/
abbrev Interleaving (bufferSize : Nat) (moves : List (Move T)) : Prop :=
  Runs.Along perform (fun ritual move => ritual.permits bufferSize move = true) started moves

/-- The ritual that a list of moves leads to. -/
def reached (moves : List (Move T)) : RunningRitualist T := moves.foldl perform started

end RunningRitualist

/-! ### A driver that has ended -/

namespace World

variable [DecidableEq T]

/-- The driver's task has ended, and so have its dispatch tasks. -/
def Gone (world : World T) : Prop :=
  world.tasks = [] ∧ (world.driver = .stopped ∨ world.driver = .expired)

/-- What neither starts nor finishes anything leaves as it is. -/
structure Still (before after : World T) : Prop where
  actor : after.actor = before.actor
  driver : after.driver = before.driver
  tasks : after.tasks = before.tasks
  queue : after.queue = before.queue
  claimed : after.claimed = before.claimed
  finished : after.finished = before.finished
  delivered : after.delivered = before.delivered
  refused : after.refused = before.refused

omit [DecidableEq T] in
theorem Still.refl (world : World T) : Still world world := ⟨rfl, rfl, rfl, rfl, rfl, rfl, rfl, rfl⟩

omit [DecidableEq T] in
theorem Still.trans {first second third : World T} (early : Still first second)
    (late : Still second third) : Still first third where
  actor := late.actor.trans early.actor
  driver := late.driver.trans early.driver
  tasks := late.tasks.trans early.tasks
  queue := late.queue.trans early.queue
  claimed := late.claimed.trans early.claimed
  finished := late.finished.trans early.finished
  delivered := late.delivered.trans early.delivered
  refused := late.refused.trans early.refused

/-- A driver that has stopped has joined its tasks. -/
theorem stopped_step {bufferSize : Nat} {before after : World T}
    (step : Step bufferSize before after)
    (joined : before.driver = .stopped → before.tasks = []) (stopped : after.driver = .stopped) :
    after.tasks = [] := by
  cases step with
  | tick | claimDue | collect | spawn | resume | drain | expire | abort => cases stopped
  | stop draining empty => exact empty
  | dropTask front task back live cut =>
    rcases cut with expired | aborted
    · cases expired.symm.trans stopped
    · cases aborted.symm.trans stopped
  | deliver front run back live | refuse front run back live | finish front run ack back live =>
    simp [live] at joined
    exact absurd stopped joined
  | acknowledge run ack holds | dropSender run holds | dropReceiver holds =>
    simp [answer, closeChannel, resolve, joined stopped]
  | process message rest first readings =>
    apply joined
    rcases receive_cases (before.issue (before.actor.claimed ⟨message.command, readings⟩))
      message.command before.driver with ⟨_, _, replies⟩ | ⟨stays, _⟩
    · cases replies.symm.trans stopped
    · exact stays.symm.trans stopped
  | _ => exact joined stopped

/-- The driver's task has ended in a reachable world exactly when it is gone. -/
theorem driver_ended_iff {bufferSize : Nat} {world : World T} (reached : Reachable bufferSize world) :
    world.driverEnded = true ↔ world.Gone := by
  have joined : world.driver = .stopped → world.tasks = [] := by
    induction reached with
    | refl => exact fun _ => rfl
    | tail _ step inductionHypothesis => exact stopped_step step inductionHypothesis
  unfold driverEnded Gone
  split
  case h_1 stopped => simp [stopped, joined stopped]
  case h_2 expired => simp [expired]
  case h_3 running unexpired =>
    simp only [Bool.false_eq_true, false_iff, not_and, not_or]
    exact fun _ => ⟨running, unexpired⟩

/-- Nothing but an abort brings a driver back that is gone, or gives it tasks. -/
theorem gone_perform {bufferSize : Nat} {world : World T} {turn : Turn T} (gone : world.Gone)
    (permitted : world.permits bufferSize turn = true) (unaborted : turn ≠ .abort) :
    (world.perform turn).Gone := by
  obtain ⟨tasks, driver⟩ := gone
  cases turn with
  | abort => exact absurd rfl unaborted
  | tick | claimDue | drain | stop =>
    rcases driver with here | here <;> simp [permits, here] at permitted
  | collect | spawn | resume | expire =>
    rcases driver with here | here <;> simp [permits, here] at permitted
  | dropTask place | deliver place | refuse place | finish place =>
    simp [permits, phaseAt, tasks] at permitted
  | request request =>
    obtain ⟨command, _, _, performed⟩ := request_found permitted
    rw [performed]
    exact ⟨tasks, driver⟩
  | receive =>
    obtain ⟨run, rest, _, performed⟩ := receive_found permitted
    rw [performed]
    exact ⟨tasks, driver⟩
  | cancel => exact ⟨tasks, driver⟩
  | acknowledge run ack | dropSender run | dropReceiver =>
    refine ⟨?_, driver⟩
    simp [perform, answer, closeChannel, resolve, tasks]
  | process readings =>
    obtain ⟨message, rest, _, performed⟩ := process_found permitted
    rw [performed]
    refine ⟨tasks, ?_⟩
    rcases driver with here | here <;> simp [process, here, DriverPoint.receive]

/-- No turn takes a cancellation back. -/
theorem perform_cancelled (world : World T) (turn : Turn T) (cancelled : world.cancelled = true) :
    (world.perform turn).cancelled = true := by
  cases turn with
  | request | collect | spawn | deliver | refuse | receive | finish =>
    simp only [perform]
    split <;> exact cancelled
  | process readings =>
    simp only [perform, processFirst]
    split <;> exact cancelled
  | cancel => rfl
  | _ => exact cancelled

/-- Only an abort aborts the driver. -/
theorem perform_aborted (world : World T) (turn : Turn T)
    (aborted : (world.perform turn).driver = .aborted) :
    turn = .abort ∨ world.driver = .aborted := by
  cases turn with
  | abort => exact Or.inl rfl
  | request | deliver | refuse | receive | finish | collect | spawn =>
    simp only [perform] at aborted
    split at aborted
    all_goals first | exact Or.inr aborted | cases aborted
  | process readings =>
    right
    cases first : world.queue with
    | nil => simpa [perform, processFirst, first] using aborted
    | cons message rest =>
      simp only [perform, processFirst, first] at aborted
      rcases receive_cases (world.issue (world.actor.claimed ⟨message.command, readings⟩))
        message.command world.driver with ⟨_, _, replies⟩ | ⟨stays, _⟩
      · cases replies.symm.trans aborted
      · exact stays.symm.trans aborted
  | tick | claimDue | resume | drain | stop | expire => cases aborted
  | _ => exact Or.inr aborted

/-- After the end of the actor's task nothing is queued, and only an abort aborts the
driver. -/
theorem closed_kept (world : World T) (turn : Turn T) :
    (world.performClosed turn).queue = world.queue ∧
      ((world.performClosed turn).driver = .aborted → turn = .abort ∨ world.driver = .aborted) := by
  cases turn with
  | tick | claimDue =>
    refine ⟨rfl, fun aborted => ?_⟩
    cases aborted
  | request request | process readings | finish place => exact ⟨rfl, Or.inr⟩
  | collect | spawn | deliver | refuse | receive =>
    refine ⟨?_, world.perform_aborted _⟩
    simp only [performClosed, perform]
    split <;> rfl
  | _ => exact ⟨rfl, world.perform_aborted _⟩

/-- When the task of the actor has ended too, nothing happens any more. -/
theorem gone_closed {bufferSize : Nat} {world : World T} {turn : Turn T} (gone : world.Gone)
    (permitted : world.permitsClosed bufferSize turn = true) (unaborted : turn ≠ .abort) :
    Still world (world.performClosed turn) ∧ world.unsent turn = [] := by
  obtain ⟨tasks, driver⟩ := gone
  cases turn with
  | abort => exact absurd rfl unaborted
  | tick | claimDue => rcases driver with here | here <;> simp [permitsClosed, here] at permitted
  | drain | stop | collect | spawn | resume | expire =>
    rcases driver with here | here <;> simp [permitsClosed, permits, here] at permitted
  | dropTask place | deliver place | refuse place | finish place =>
    simp [permitsClosed, permits, phaseAt, tasks] at permitted
  | process readings => cases permitted
  | request request | cancel => exact ⟨⟨rfl, rfl, rfl, rfl, rfl, rfl, rfl, rfl⟩, rfl⟩
  | receive =>
    obtain ⟨run, rest, _, performed⟩ :=
      receive_found (show world.permits bufferSize .receive = true from permitted)
    have closed : world.performClosed .receive = _ := performed
    rw [closed]
    exact ⟨⟨rfl, rfl, rfl, rfl, rfl, rfl, rfl, rfl⟩, rfl⟩
  | acknowledge run ack | dropSender run | dropReceiver =>
    refine ⟨⟨rfl, rfl, ?_, rfl, rfl, rfl, rfl, rfl⟩, rfl⟩
    simp [performClosed, perform, answer, closeChannel, resolve, tasks]

end World

namespace RunningRitualist

variable [DecidableEq T]

/-- Every run was handed over or refused, and has sent its acknowledgement. -/
def Complete (ritual : RunningRitualist T) : Prop :=
  ritual.world.claimed.Perm
      (ritual.world.finished ++ (ritual.lost ++ ritual.world.queue.flatMap Message.runs)) ∧
    ritual.world.claimed.Perm (ritual.world.delivered ++ ritual.world.refused)

/-- What every move of a ritual keeps. -/
structure Orderly (bufferSize : Nat) (ritual : RunningRitualist T) : Prop where
  alive : ritual.ended = false → Reachable bufferSize ritual.world ∧ ritual.lost = []
  closed : ritual.ended = true → ritual.world.queue = [] ∧ ritual.owner.stopsScheduler = true
  cancelled : ritual.owner = .joiningDriver → ritual.world.cancelled = true
  aborted : ritual.world.driver = .aborted → ritual.owner = .aborted
  joined : ritual.owner.JoinedDriver → ritual.world.Gone
  returned : ritual.owner = .returned → ritual.ended = true
  complete : ritual.owner.JoinedDriver →
    ritual.world.driver = .stopped → ritual.Complete

/-- A ritual starts in order. -/
theorem started_orderly (bufferSize : Nat) : (started : RunningRitualist T).Orderly bufferSize := by
  constructor
  case alive => exact fun _ => ⟨.refl, rfl⟩
  all_goals simp [started, World.initial, Owner.JoinedDriver]

/-- While the actor's task runs, the accounts say what is complete. -/
theorem complete_of_gone {bufferSize : Nat} {ritual : RunningRitualist T}
    (reached : Reachable bufferSize ritual.world) (unlost : ritual.lost = [])
    (gone : ritual.world.Gone) (stopped : ritual.world.driver = .stopped) : ritual.Complete := by
  have uncut : ritual.world.Uncut := by simp [World.Uncut, stopped]
  have accounted := World.accounted_reachable reached uncut
  have outstanding : ritual.world.outstanding = ritual.world.queue.flatMap Message.runs := by
    simp [World.outstanding, stopped, DriverPoint.runs, gone.1]
  have undelivered : ritual.world.undelivered = [] := by
    simp [World.undelivered, stopped, DriverPoint.runs, gone.1]
  constructor
  · rw [unlost, List.nil_append, ← outstanding]
    exact accounted.runs.conserved
  · have conserved := accounted.deliveries.conserved
    rwa [show ritual.world.deliveries.held = [] from undelivered, List.append_nil] at conserved

/-- What permits a turn: it is the owner's to abort the driver, and for any other the
world decides. -/
theorem turn_permitted {bufferSize : Nat} {ritual : RunningRitualist T} {turn : Turn T}
    (permitted : ritual.permits bufferSize (.turn turn) = true) :
    (turn = .abort → ritual.owner = .aborted) ∧
      (if ritual.ended then ritual.world.permitsClosed bufferSize turn
        else ritual.world.permits bufferSize turn) = true := by
  cases turn with
  | cancel => cases permitted
  | abort =>
    refine ⟨fun _ => (of_decide_eq_true permitted).1, ?_⟩
    simp [World.permitsClosed, World.permits]
  | _ =>
    refine ⟨fun aborts => ?_, permitted⟩
    cases aborts

/-- The actor's task runs until the owner stops it. -/
theorem Orderly.runs_while {bufferSize : Nat} {ritual : RunningRitualist T}
    (orderly : ritual.Orderly bufferSize) (unstopped : ritual.owner.stopsScheduler = false) :
    ritual.ended = false := by
  cases ended : ritual.ended with
  | false => rfl
  | true => cases unstopped.symm.trans (orderly.closed ended).2

section Moves

variable {bufferSize : Nat} {ritual : RunningRitualist T} {move : Move T}
  (orderly : ritual.Orderly bufferSize)
include orderly

/-- A turn that a running actor's task sees. -/
theorem orderly_open {turn : Turn T} (running : ritual.ended = false)
    (permitted : ritual.world.permits bufferSize turn = true)
    (aborting : turn = .abort → ritual.owner = .aborted) :
    ({ ritual with world := ritual.world.perform turn } : RunningRitualist T).Orderly bufferSize := by
  obtain ⟨reached, unlost⟩ := orderly.alive running
  have next : Reachable bufferSize (ritual.world.perform turn) :=
    reached.tail (World.step_of_permitted _ turn permitted)
  have gone : ritual.owner.JoinedDriver →
      (ritual.world.perform turn).Gone := by
    intro joins
    refine World.gone_perform (orderly.joined joins) permitted fun aborts => ?_
    have owner := aborting aborts
    rcases joins with here | here <;> cases here.symm.trans owner
  constructor
  case alive => exact fun _ => ⟨next, unlost⟩
  case closed =>
    intro ended
    cases running.symm.trans ended
  case cancelled => exact fun joins => World.perform_cancelled _ turn (orderly.cancelled joins)
  case aborted =>
    intro aborted
    exact (World.perform_aborted _ turn aborted).elim aborting orderly.aborted
  case joined => exact gone
  case returned => exact orderly.returned
  case complete =>
    intro joins stopped
    exact complete_of_gone next unlost (gone joins) stopped

/-- A turn after the actor's task has ended. -/
theorem orderly_closed {turn : Turn T} (ended : ritual.ended = true)
    (permitted : ritual.world.permitsClosed bufferSize turn = true)
    (aborting : turn = .abort → ritual.owner = .aborted) :
    ({ ritual with
      world := ritual.world.performClosed turn
      lost := ritual.world.unsent turn ++ ritual.lost } : RunningRitualist T).Orderly bufferSize := by
  obtain ⟨empty, stops⟩ := orderly.closed ended
  have still : ritual.owner.JoinedDriver →
      World.Still ritual.world (ritual.world.performClosed turn) ∧ ritual.world.unsent turn = [] := by
    intro joins
    refine World.gone_closed (orderly.joined joins) permitted fun aborts => ?_
    have owner := aborting aborts
    rcases joins with here | here <;> cases here.symm.trans owner
  constructor
  case alive =>
    intro running
    cases ended.symm.trans running
  case closed => exact fun _ => ⟨(World.closed_kept _ turn).1.trans empty, stops⟩
  case cancelled =>
    intro joins
    rw [show ritual.owner = .joiningDriver from joins] at stops
    cases stops
  case aborted =>
    intro aborted
    exact ((World.closed_kept _ turn).2 aborted).elim aborting orderly.aborted
  case joined =>
    intro joins
    obtain ⟨⟨_, driver, tasks, _, _, _, _, _⟩, _⟩ := still joins
    rw [World.Gone, tasks, driver]
    exact orderly.joined joins
  case returned => exact orderly.returned
  case complete =>
    intro joins stopped
    obtain ⟨⟨_, driver, _, queue, claimed, finished, delivered, refused⟩, unsent⟩ := still joins
    have complete := orderly.complete joins (driver.symm.trans stopped)
    simpa only [Complete, queue, claimed, finished, delivered, refused, unsent, List.nil_append]
      using complete

/-- The end of the actor's task. -/
theorem orderly_end (running : ritual.ended = false) (stops : ritual.owner.stopsScheduler = true) :
    (ritual.perform .endActor).Orderly bufferSize := by
  have gone : ritual.owner.JoinedDriver → (ritual.world.dropQueue).Gone := by
    intro joins
    obtain ⟨tasks, driver⟩ := orderly.joined joins
    refine ⟨tasks, ?_⟩
    rcases driver with here | here <;> simp [World.dropQueue, here]
  constructor
  case alive =>
    intro running
    cases running
  case closed => exact fun _ => ⟨rfl, stops⟩
  case cancelled =>
    intro joins
    rw [show ritual.owner = .joiningDriver from joins] at stops
    cases stops
  case aborted =>
    intro aborted
    apply orderly.aborted
    cases here : ritual.world.driver <;> simp [perform, World.dropQueue, here] at aborted
    rfl
  case joined => exact gone
  case returned => exact fun _ => rfl
  case complete =>
    intro joins stopped
    have before : ritual.world.driver = .stopped := by
      cases here : ritual.world.driver <;> simp [perform, World.dropQueue, here] at stopped
      rfl
    obtain ⟨runs, deliveries⟩ := orderly.complete joins before
    refine ⟨?_, deliveries⟩
    have unlost := (orderly.alive running).2
    simpa [perform, World.dropQueue, unlost] using runs

/-- Every permitted move keeps a ritual in order. -/
theorem orderly_perform (permitted : ritual.permits bufferSize move = true) :
    (ritual.perform move).Orderly bufferSize := by
  cases move with
  | turn turn =>
    obtain ⟨aborting, sees⟩ := turn_permitted permitted
    cases ended : ritual.ended with
    | true =>
      rw [ended, if_pos rfl] at sees
      simpa only [perform, ended, if_true] using orderly_closed orderly ended sees aborting
    | false =>
      rw [ended, if_neg Bool.false_ne_true] at sees
      simpa only [perform, ended, Bool.false_eq_true, if_false] using
        orderly_open orderly ended sees aborting
  | shutdown =>
    have holding : ritual.owner = .holding := of_decide_eq_true permitted
    have running := orderly.runs_while (by rw [holding]; rfl)
    obtain ⟨reached, unlost⟩ := orderly.alive running
    constructor
    case alive => exact fun _ => ⟨reached.tail (.cancel _), unlost⟩
    case closed =>
      intro ended
      cases running.symm.trans ended
    case cancelled => exact fun _ => rfl
    case aborted =>
      intro aborted
      cases holding.symm.trans (orderly.aborted aborted)
    all_goals simp [perform, Owner.JoinedDriver]
  | joinDriver =>
    obtain ⟨joins, seen⟩ := Bool.and_eq_true_iff.mp permitted
    have joining : ritual.owner = .joiningDriver := of_decide_eq_true joins
    have running := orderly.runs_while (by rw [joining]; rfl)
    obtain ⟨reached, unlost⟩ := orderly.alive running
    have gone := (World.driver_ended_iff reached).mp seen
    constructor
    case alive => exact fun _ => ⟨reached, unlost⟩
    case closed =>
      intro ended
      cases running.symm.trans ended
    case aborted =>
      intro aborted
      cases joining.symm.trans (orderly.aborted aborted)
    case joined => exact fun _ => gone
    case complete => exact fun _ stopped => complete_of_gone reached unlost gone stopped
    all_goals simp [perform]
  | joinScheduler =>
    obtain ⟨joins, ended⟩ := Bool.and_eq_true_iff.mp permitted
    have joining : ritual.owner = .joiningScheduler := of_decide_eq_true joins
    have joined : ritual.owner.JoinedDriver := Or.inl joining
    constructor
    case alive => exact orderly.alive
    case closed => exact fun _ => ⟨(orderly.closed ended).1, rfl⟩
    case aborted =>
      intro aborted
      cases joining.symm.trans (orderly.aborted aborted)
    case joined => exact fun _ => orderly.joined joined
    case returned => exact fun _ => ended
    case complete => exact fun _ => orderly.complete joined
    case cancelled => simp [perform]
  | abort =>
    have holding : ritual.owner = .holding := of_decide_eq_true permitted
    have running := orderly.runs_while (by rw [holding]; rfl)
    constructor
    case alive => exact orderly.alive
    case closed =>
      intro ended
      cases running.symm.trans ended
    case aborted => exact fun _ => rfl
    all_goals simp [perform, Owner.JoinedDriver]
  | endActor =>
    obtain ⟨stops, running⟩ := Bool.and_eq_true_iff.mp permitted
    exact orderly_end orderly (by simpa using running) stops

end Moves

/-- Every interleaving keeps a ritual in order. -/
theorem orderly_run {bufferSize : Nat} {moves : List (Move T)}
    (taken : Interleaving bufferSize moves) : (reached moves).Orderly bufferSize := by
  have kept : ∀ (ritual : RunningRitualist T) (move : Move T), ritual.Orderly bufferSize →
      ritual.permits bufferSize move = true → (ritual.perform move).Orderly bufferSize :=
    fun _ _ orderly permitted => orderly_perform orderly permitted
  exact Runs.invariant_after kept (started_orderly bufferSize) taken

/-! ### After the shutdown -/

/-- Nothing of what a returned shutdown has stopped moves again. -/
theorem returned_perform {bufferSize : Nat} {ritual : RunningRitualist T} {move : Move T}
    (orderly : ritual.Orderly bufferSize) (returned : ritual.owner = .returned)
    (permitted : ritual.permits bufferSize move = true) :
    World.Still ritual.world (ritual.perform move).world ∧
      (ritual.perform move).owner = .returned := by
  have ended := orderly.returned returned
  cases move with
  | turn turn =>
    obtain ⟨aborting, sees⟩ := turn_permitted permitted
    rw [ended, if_pos rfl] at sees
    have unaborted : turn ≠ .abort := by
      intro aborts
      cases returned.symm.trans (aborting aborts)
    obtain ⟨still, _⟩ := World.gone_closed (orderly.joined (Or.inr returned)) sees unaborted
    simp only [perform, ended, if_true]
    exact ⟨still, returned⟩
  | shutdown | abort => cases returned.symm.trans (of_decide_eq_true permitted)
  | joinDriver | joinScheduler =>
    cases returned.symm.trans (of_decide_eq_true (Bool.and_eq_true_iff.mp permitted).1)
  | endActor => simp [permits, ended] at permitted

/-- When a shutdown has returned, the tasks of the actor, of the driver and of every
dispatch have ended, whatever the order of the moves before. If the driver stopped
within its grace period, every run ever claimed was handed to the consumers or refused
by a closed channel, and its acknowledgement was processed or was left behind in the
queue. And nothing that any party does later starts a run, delivers one or changes an
activity. -/
theorem returned_means_stopped (bufferSize : Nat) (moves later : List (Move T))
    (taken : Interleaving bufferSize moves)
    (returned : (reached moves).owner = .returned)
    (goesOn : Runs.Along perform (fun ritual move => ritual.permits bufferSize move = true)
      (reached moves) later) :
    (reached moves).ended = true ∧ (reached moves).world.Gone ∧
      ((reached moves).world.driver = .stopped →
        (reached moves).world.claimed.Perm
            ((reached moves).world.finished ++ (reached moves).lost) ∧
          (reached moves).world.claimed.Perm
            ((reached moves).world.delivered ++ (reached moves).world.refused)) ∧
      World.Still (reached moves).world (reached (moves ++ later)).world := by
  have orderly := orderly_run taken
  have further : reached (moves ++ later) = later.foldl perform (reached moves) :=
    List.foldl_append
  rw [further]
  generalize reached moves = ritual at *
  have joined : ritual.owner.JoinedDriver := Or.inr returned
  have ended := orderly.returned returned
  refine ⟨ended, orderly.joined joined, fun stopped => ?_, ?_⟩
  · obtain ⟨runs, deliveries⟩ := orderly.complete joined stopped
    refine ⟨?_, deliveries⟩
    simpa [(orderly.closed ended).1] using runs
  · have kept : ∀ (reached : RunningRitualist T) (move : Move T),
        (reached.Orderly bufferSize ∧ reached.owner = .returned ∧
          World.Still ritual.world reached.world) →
        reached.permits bufferSize move = true →
        (reached.perform move).Orderly bufferSize ∧ (reached.perform move).owner = .returned ∧
          World.Still ritual.world (reached.perform move).world := by
      rintro reached move ⟨inOrder, hasReturned, still⟩ permitted
      obtain ⟨stays, owner⟩ := returned_perform inOrder hasReturned permitted
      exact ⟨orderly_perform inOrder permitted, owner, still.trans stays⟩
    exact (Runs.invariant_after kept ⟨orderly, returned, .refl _⟩ goesOn).2.2

/-- A consumer snoozes its run, the owner shuts the ritual down, and the acknowledgement
of the run is still queued when the actor's task ends. -/
def shutDown : List (Move Nat) :=
  (World.snoozing.take 12).map .turn ++
    [.turn .resume, .shutdown, .turn .drain, .turn .stop, .joinDriver, .endActor, .joinScheduler]

/-- The run of `shutDown` is left behind in the queue, and a dispatch sent afterwards
does nothing. -/
theorem shut_down_means_stopped :
    (reached shutDown).world.claimed.Perm
        ((reached shutDown).world.finished ++ (reached shutDown).lost) ∧
      World.Still (reached shutDown).world
        (reached (shutDown ++ [Move.turn (.request (.dispatch 1)), .turn .dropReceiver])).world := by
  obtain ⟨_, _, complete, still⟩ := returned_means_stopped 4 shutDown
    [.turn (.request (.dispatch 1)), .turn .dropReceiver] (by decide) (by decide) (by decide)
  exact ⟨(complete (by decide)).1, still⟩

example : (reached shutDown).lost = [⟨1, 0, 1⟩] := by decide

end RunningRitualist

end Ritualist
