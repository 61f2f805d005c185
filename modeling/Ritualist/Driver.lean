import Mathlib.Logic.Relation
import Ritualist.Entries

/-!
# The driver, its dispatch tasks and their consumers

One loop ticks the scheduler and claims what is due. For every id claimed it
spawns a dispatch task, which delivers the id with an acknowledgement sender on
the activity channel, waits for the answer, and sends it to the scheduler.
Clients send commands of their own, by the operations of `WithScheduler`: ticks,
claims and acknowledgements are sent by the loop and its tasks only. The public
methods of the `Scheduler` that `get_scheduler` returns would let a client send these
as well; `Service` has them all. Clients, loop and tasks share the scheduler's bounded
queue, from which one actor processes a command at a time.

A world is the state of all of these; a step is one indivisible action of one of
them, so that a run of steps is an interleaving. Waiting for room in a channel is
a step that is not yet enabled. Every action between two awaits of the source is
one step here, except that spawning the tasks of one reply takes one step each.

An aborted driver and an expired grace period drop tasks wherever they are; the
worlds in which neither has happened are `Uncut`. The actor's own shutdown is left
to `Service`: a run of the source up to it is a run here.

A claim gives every run it reports an identity, which the source does not have.
No step reads it; statements use it to tell the runs of one id apart.
-/

namespace Ritualist

universe u

/-- One report of an id by a claim. -/
structure Run (T : Type u) where
  id : T
  /-- The number of runs claimed before it. -/
  serial : Nat
  /-- The number of commands that inserted the id before it was claimed. -/
  birth : Nat
  deriving DecidableEq, Repr

/-- An entry of the scheduler's queue. Acknowledgements come from dispatch tasks
and carry the run of the task. -/
inductive Message (T : Type u) where
  | plain (command : Command T)
  | finish (run : Run T) (ack : AckMessage)
  deriving DecidableEq, Repr

/-- The command the actor receives. -/
def Message.command {T : Type u} : Message T → Command T
  | .plain command => command
  | .finish run ack => .finish run.id ack

/-- The run a message acknowledges, if any. -/
def Message.runs {T : Type u} : Message T → List (Run T)
  | .plain _ => []
  | .finish run _ => [run]

/-- The operations of a client, `WithScheduler`. -/
inductive Request (T : Type u) where
  | register (spec : ActivitySpec T)
  | registerMany (specs : List (ActivitySpec T))
  | reset (spec : ActivitySpec T)
  | resetMany (specs : List (ActivitySpec T))
  | setEnabled (id : T) (enabled : Bool)
  | dispatch (id : T)
  | snapshot

/-- Validate a request; what is sent is a command. -/
def Request.command {T : Type u} : Request T → Except ActivitySpecError (Command T)
  | .register spec => spec.validate.map fun _ => .register spec
  | .registerMany specs => (forM specs ActivitySpec.validate).map fun _ => .registerMany specs
  | .reset spec => spec.validate.map fun _ => .reset spec
  | .resetMany specs => (forM specs ActivitySpec.validate).map fun _ => .resetMany specs
  | .setEnabled id enabled => .ok (.setEnabled id enabled)
  | .dispatch id => .ok (.setImmediate id)
  | .snapshot => .ok .snapshot

/-- The command a request asks for, whether it is valid or not. -/
def Request.unchecked {T : Type u} : Request T → Command T
  | .register spec => .register spec
  | .registerMany specs => .registerMany specs
  | .reset spec => .reset spec
  | .resetMany specs => .resetMany specs
  | .setEnabled id enabled => .setEnabled id enabled
  | .dispatch id => .setImmediate id
  | .snapshot => .snapshot

/-- A request sends the command it asks for, exactly when every specification in
it is valid. -/
theorem request_sent_iff {T : Type u} (request : Request T) (command : Command T) :
    request.command = .ok command ↔ command = request.unchecked ∧
      ∀ spec ∈ SchedulerActor.commandSpecs command, spec.validate = .ok () := by
  cases request with
  | register spec | reset spec =>
    rw [Request.command, Runs.map_eq_ok]
    constructor
    · rintro ⟨passed, valid, rfl⟩
      exact ⟨rfl, by simpa [SchedulerActor.commandSpecs] using valid⟩
    · rintro ⟨rfl, valid⟩
      exact ⟨(), by simpa [SchedulerActor.commandSpecs, Request.unchecked] using valid, rfl⟩
  | registerMany specs | resetMany specs =>
    rw [Request.command, Runs.map_eq_ok]
    constructor
    · rintro ⟨passed, valid, rfl⟩
      exact ⟨rfl, (validate_all_iff specs).mp valid⟩
    · rintro ⟨rfl, valid⟩
      exact ⟨(), (validate_all_iff specs).mpr valid, rfl⟩
  | setEnabled id enabled | dispatch id | snapshot =>
    constructor
    · intro accepted
      obtain rfl := Except.ok.inj accepted
      exact ⟨rfl, by simp [SchedulerActor.commandSpecs]⟩
    · rintro ⟨rfl, _⟩
      rfl

/-- Where a dispatch task is. -/
inductive Phase where
  /-- At `sender.send`, holding the acknowledgement sender. -/
  | sending
  /-- At `ack_rx.await`. -/
  | waiting
  /-- At `schedule.finish`, with the outcome. -/
  | finishing (ack : AckMessage)
  deriving DecidableEq, Repr

structure Task (T : Type u) where
  run : Run T
  phase : Phase
  deriving DecidableEq, Repr

/-- Where the driver's loop is. -/
inductive DriverPoint (T : Type u) where
  | selecting
  /-- The tick is sent and the claim is not. -/
  | claiming
  /-- The claim is sent and its reply channel is empty. -/
  | awaiting
  /-- The reply is in its channel, unread. -/
  | replied (runs : List (Run T))
  /-- The loop over the due ids, with those not yet spawned. -/
  | spawning (runs : List (Run T))
  /-- Cancelled, within the grace period. -/
  | draining
  | stopped
  /-- The grace period is over and the tasks are aborted. -/
  | expired
  | aborted
  deriving DecidableEq, Repr

/-- The runs the driver's loop holds. -/
def DriverPoint.runs {T : Type u} : DriverPoint T → List (Run T)
  | .replied runs => runs
  | .spawning runs => runs
  | _ => []

/-- A claim's reply reaches a driver that awaits it; no other command replies to
the driver. -/
def DriverPoint.receive {T : Type u} (runs : List (Run T)) :
    Command T → DriverPoint T → DriverPoint T
  | .claimDue, .awaiting => .replied runs
  | _, point => point

/-- The state of the actor, its queue, the driver, the dispatch tasks and the
consumers, with a record of what has happened to every run. -/
structure World (T : Type u) where
  actor : SchedulerActor T
  queue : List (Message T)
  driver : DriverPoint T
  /-- The driver's cancellation token. -/
  cancelled : Bool
  /-- The live dispatch tasks. -/
  tasks : List (Task T)
  /-- The activity channel, oldest first. -/
  channel : List (Run T)
  /-- The consumers hold the channel's receiver. -/
  receiving : Bool
  /-- The runs whose acknowledgement sender a consumer holds. -/
  held : List (Run T)
  /-- The runs reported by claims, oldest first. -/
  claimed : List (Run T)
  /-- The runs whose acknowledgement was processed. -/
  finished : List (Run T)
  /-- The runs put on the activity channel. -/
  delivered : List (Run T)
  /-- The runs the closed activity channel refused. -/
  refused : List (Run T)
  /-- The number of commands that inserted an id. -/
  births : T → Nat

variable {T : Type u}

namespace World

/-- The world in which the driver starts on an empty scheduler. -/
def initial [DecidableEq T] : World T where
  actor := .empty
  queue := []
  driver := .selecting
  cancelled := false
  tasks := []
  channel := []
  receiving := true
  held := []
  claimed := []
  finished := []
  delivered := []
  refused := []
  births := fun _ => 0

/-- Append a message to the scheduler's queue. -/
def enqueue (world : World T) (message : Message T) : World T :=
  { world with queue := world.queue ++ [message] }

/-- Move the driver's loop on. -/
def moveTo (world : World T) (point : DriverPoint T) : World T := { world with driver := point }

/-- Replace the live dispatch tasks. -/
def setTasks (world : World T) (tasks : List (Task T)) : World T := { world with tasks := tasks }

/-- `ScheduleDriver::shutdown` cancels the driver's token. -/
def requestCancel (world : World T) : World T := { world with cancelled := true }

/-- Put a run on the activity channel. -/
def put (world : World T) (run : Run T) : World T :=
  { world with channel := world.channel ++ [run], delivered := run :: world.delivered }

/-- Record a run that the closed activity channel refuses. -/
def reject (world : World T) (run : Run T) : World T :=
  { world with refused := run :: world.refused }

/-- Hand the oldest run of the channel to a consumer. -/
def handOver (world : World T) (run : Run T) (rest : List (Run T)) : World T :=
  { world with channel := rest, held := run :: world.held }

/-- Resolve the acknowledgement receivers of some runs. -/
def resolve (runs : List (Run T)) (ack : AckMessage) [DecidableEq T] (tasks : List (Task T)) :
    List (Task T) :=
  tasks.map fun task =>
    if task.run ∈ runs ∧ task.phase = .waiting then { task with phase := .finishing ack } else task

/-- A consumer's acknowledgement sender resolves its run. -/
def answer [DecidableEq T] (world : World T) (run : Run T) (ack : AckMessage) : World T :=
  { world with held := world.held.erase run, tasks := resolve [run] ack world.tasks }

/-- The receiver is dropped, and with it the senders of the runs on the channel. -/
def closeChannel [DecidableEq T] (world : World T) : World T :=
  { world with
    receiving := false
    channel := []
    tasks := resolve world.channel .done world.tasks }

/-- The runs of the ids a claim reports. -/
def issue (world : World T) (ids : List T) : List (Run T) :=
  (ids.zipIdx world.claimed.length).map fun entry => ⟨entry.1, entry.2, world.births entry.1⟩

/-- The actor processes the first message of the queue. -/
def process [DecidableEq T] (world : World T) (message : Message T) (rest : List (Message T))
    (readings : T → Reading) : World T :=
  let input : Input T := ⟨message.command, readings⟩
  let runs := world.issue (world.actor.claimed input)
  { world with
    actor := world.actor.step input
    queue := rest
    driver := world.driver.receive runs message.command
    claimed := world.claimed ++ runs
    finished := message.runs ++ world.finished
    births := fun id => world.births id + if world.actor.inserts id input then 1 else 0 }

/-- The actor processes the first message, if there is one. -/
def processFirst [DecidableEq T] (world : World T) (readings : T → Reading) : World T :=
  match world.queue with
  | [] => world
  | message :: rest => world.process message rest readings

/-- Neither has the grace period expired nor the driver been aborted. -/
def Uncut (world : World T) : Prop := world.driver ≠ .expired ∧ world.driver ≠ .aborted

instance uncutDecidable [DecidableEq T] (world : World T) : Decidable world.Uncut :=
  inferInstanceAs (Decidable (_ ∧ _))

end World

variable [DecidableEq T]

/-- One action of one party. `bufferSize` is the capacity of the scheduler's
queue and of the activity channel. -/
inductive Step (bufferSize : Nat) : World T → World T → Prop
  /-- A client's validated request is queued. -/
  | request (world : World T) (request : Request T) (command : Command T)
      (accepted : request.command = .ok command) (room : world.queue.length < bufferSize) :
      Step bufferSize world (world.enqueue (.plain command))
  /-- The ticker fires: `schedule.tick().await`. -/
  | tick (world : World T) (selecting : world.driver = .selecting)
      (room : world.queue.length < bufferSize) :
      Step bufferSize world ((world.enqueue (.plain .tick)).moveTo .claiming)
  /-- `schedule.claim_due().await` sends its command. -/
  | claimDue (world : World T) (claiming : world.driver = .claiming)
      (room : world.queue.length < bufferSize) :
      Step bufferSize world ((world.enqueue (.plain .claimDue)).moveTo .awaiting)
  /-- The driver reads the reply. -/
  | collect (world : World T) (runs : List (Run T)) (replied : world.driver = .replied runs) :
      Step bufferSize world (world.moveTo (.spawning runs))
  /-- One pass of the loop over the due ids. -/
  | spawn (world : World T) (run : Run T) (rest : List (Run T))
      (spawning : world.driver = .spawning (run :: rest)) :
      Step bufferSize world
        ((world.moveTo (.spawning rest)).setTasks (⟨run, .sending⟩ :: world.tasks))
  /-- The loop is done, and the driver selects again. -/
  | resume (world : World T) (spawned : world.driver = .spawning []) :
      Step bufferSize world (world.moveTo .selecting)
  | cancel (world : World T) : Step bufferSize world world.requestCancel
  /-- The driver sees its token cancelled, and drains its tasks. -/
  | drain (world : World T) (selecting : world.driver = .selecting)
      (cancelled : world.cancelled = true) : Step bufferSize world (world.moveTo .draining)
  /-- All tasks have been joined. -/
  | stop (world : World T) (draining : world.driver = .draining) (joined : world.tasks = []) :
      Step bufferSize world (world.moveTo .stopped)
  /-- The grace period ends first: `dispatch.abort_all`. -/
  | expire (world : World T) (draining : world.driver = .draining) :
      Step bufferSize world (world.moveTo .expired)
  /-- `ScheduleDriver::abort`. -/
  | abort (world : World T) : Step bufferSize world (world.moveTo .aborted)
  /-- An aborted task is dropped wherever it is. -/
  | dropTask (world : World T) (before : List (Task T)) (task : Task T) (after : List (Task T))
      (live : world.tasks = before ++ task :: after)
      (cut : world.driver = .expired ∨ world.driver = .aborted) :
      Step bufferSize world (world.setTasks (before ++ after))
  /-- `sender.send` puts the run on the activity channel. -/
  | deliver (world : World T) (before : List (Task T)) (run : Run T) (after : List (Task T))
      (live : world.tasks = before ++ ⟨run, .sending⟩ :: after) (receiving : world.receiving = true)
      (room : world.channel.length < bufferSize) :
      Step bufferSize world ((world.setTasks (before ++ ⟨run, .waiting⟩ :: after)).put run)
  /-- `sender.send` fails and drops the acknowledgement sender. -/
  | refuse (world : World T) (before : List (Task T)) (run : Run T) (after : List (Task T))
      (live : world.tasks = before ++ ⟨run, .sending⟩ :: after)
      (closed : world.receiving = false) :
      Step bufferSize world
        ((world.setTasks (before ++ ⟨run, .finishing .done⟩ :: after)).reject run)
  /-- A consumer receives a run. -/
  | receive (world : World T) (run : Run T) (rest : List (Run T))
      (oldest : world.channel = run :: rest) : Step bufferSize world (world.handOver run rest)
  /-- A consumer acknowledges a run. -/
  | acknowledge (world : World T) (run : Run T) (ack : AckMessage) (holds : run ∈ world.held) :
      Step bufferSize world (world.answer run ack)
  /-- A consumer drops an acknowledgement sender: `unwrap_or(AckMessage::Done)`. -/
  | dropSender (world : World T) (run : Run T) (holds : run ∈ world.held) :
      Step bufferSize world (world.answer run .done)
  /-- The consumers drop the receiver. -/
  | dropReceiver (world : World T) (receiving : world.receiving = true) :
      Step bufferSize world world.closeChannel
  /-- `schedule.finish` queues the acknowledgement, and the task ends. -/
  | finish (world : World T) (before : List (Task T)) (run : Run T) (ack : AckMessage)
      (after : List (Task T)) (live : world.tasks = before ++ ⟨run, .finishing ack⟩ :: after)
      (room : world.queue.length < bufferSize) :
      Step bufferSize world ((world.enqueue (.finish run ack)).setTasks (before ++ after))
  /-- The actor processes one command. -/
  | process (world : World T) (message : Message T) (rest : List (Message T))
      (first : world.queue = message :: rest) (readings : T → Reading) :
      Step bufferSize world (world.process message rest readings)

/-- The worlds that some interleaving reaches. -/
def Reachable (bufferSize : Nat) (world : World T) : Prop :=
  Relation.ReflTransGen (Step bufferSize) World.initial world

/-- In every interleaving the actor has processed some list of commands. -/
theorem actor_run {bufferSize : Nat} {world : World T} (reached : Reachable bufferSize world) :
    ∃ history, world.actor = SchedulerActor.empty.run history := by
  induction reached with
  | refl => exact ⟨[], rfl⟩
  | tail _ step inductionHypothesis =>
    obtain ⟨history, same⟩ := inductionHypothesis
    cases step with
    | process message rest first readings =>
      refine ⟨history ++ [⟨message.command, readings⟩], ?_⟩
      rw [SchedulerActor.run_append, ← same]
      rfl
    | _ => exact ⟨history, same⟩

end Ritualist
