import Ritualist.Library.Comparison
import Ritualist.Driver

/-!
# The parties' turns

`Step` says which worlds follow a world. A turn is the action that leads there, as
data: which party acts, on what, and what it reads. `permits` says when a turn can
be taken and `perform` what it does, so that an interleaving is a list of turns,
each permitted where it is taken, and what it processed and answered can be read
off it.

Turns and steps are the same transitions, `step_iff_permitted`, and interleavings
reach the reachable worlds, `reachable_iff_interleaving`. A task is meant by its
place among the live tasks.
-/

namespace Ritualist

universe u

/-- One turn of one party. -/
inductive Turn (T : Type u) where
  | request (request : Request T)
  | tick
  | claimDue
  | collect
  | spawn
  | resume
  | cancel
  | drain
  | stop
  | expire
  | abort
  | dropTask (place : Nat)
  | deliver (place : Nat)
  | refuse (place : Nat)
  | receive
  | acknowledge (run : Run T) (ack : AckMessage)
  | dropSender (run : Run T)
  | dropReceiver
  | finish (place : Nat)
  | process (readings : T → Reading)

variable {T : Type u}

/-- A reply reaches a driver that awaits it, and nothing else moves the driver. -/
theorem receive_cases (runs : List (Run T)) (command : Command T) (point : DriverPoint T) :
    (command = .claimDue ∧ point = .awaiting ∧ point.receive runs command = .replied runs) ∨
      point.receive runs command = point ∧ ¬ (command = .claimDue ∧ point = .awaiting) := by
  by_cases replies : command = .claimDue ∧ point = .awaiting
  · obtain ⟨rfl, rfl⟩ := replies
    exact Or.inl ⟨rfl, rfl, rfl⟩
  · refine Or.inr ⟨?_, replies⟩
    unfold DriverPoint.receive
    split
    · exact absurd ⟨rfl, rfl⟩ replies
    · rfl

variable [DecidableEq T]

namespace World

/-- The phase of the task at a place, if there is one. -/
def phaseAt (world : World T) (place : Nat) : Option Phase := world.tasks[place]?.map Task.phase

/-- When a turn can be taken. `bufferSize` is the capacity of the scheduler's queue
and of the activity channel. -/
def permits (bufferSize : Nat) (world : World T) : Turn T → Bool
  | .request request => request.command.isOk && decide (world.queue.length < bufferSize)
  | .tick => decide (world.driver = .selecting ∧ world.queue.length < bufferSize)
  | .claimDue => decide (world.driver = .claiming ∧ world.queue.length < bufferSize)
  | .collect =>
    match world.driver with
    | .replied _ => true
    | _ => false
  | .spawn =>
    match world.driver with
    | .spawning (_ :: _) => true
    | _ => false
  | .resume => decide (world.driver = .spawning [])
  | .cancel => true
  | .drain => decide (world.driver = .selecting ∧ world.cancelled = true)
  | .stop => decide (world.driver = .draining ∧ world.tasks = [])
  | .expire => decide (world.driver = .draining)
  | .abort => true
  | .dropTask place =>
    decide (place < world.tasks.length ∧ (world.driver = .expired ∨ world.driver = .aborted))
  | .deliver place =>
    decide (world.phaseAt place = some .sending ∧ world.receiving = true ∧
      world.channel.length < bufferSize)
  | .refuse place => decide (world.phaseAt place = some .sending ∧ world.receiving = false)
  | .receive => !world.channel.isEmpty
  | .acknowledge run _ => world.held.contains run
  | .dropSender run => world.held.contains run
  | .dropReceiver => world.receiving
  | .finish place =>
    match world.phaseAt place with
    | some (.finishing _) => decide (world.queue.length < bufferSize)
    | _ => false
  | .process _ => !world.queue.isEmpty

/-- What a turn does. -/
def perform (world : World T) : Turn T → World T
  | .request request =>
    match request.command with
    | .ok command => world.enqueue (.plain command)
    | .error _ => world
  | .tick => (world.enqueue (.plain .tick)).moveTo .claiming
  | .claimDue => (world.enqueue (.plain .claimDue)).moveTo .awaiting
  | .collect =>
    match world.driver with
    | .replied runs => world.moveTo (.spawning runs)
    | _ => world
  | .spawn =>
    match world.driver with
    | .spawning (run :: rest) =>
      (world.moveTo (.spawning rest)).setTasks (⟨run, .sending⟩ :: world.tasks)
    | _ => world
  | .resume => world.moveTo .selecting
  | .cancel => world.requestCancel
  | .drain => world.moveTo .draining
  | .stop => world.moveTo .stopped
  | .expire => world.moveTo .expired
  | .abort => world.moveTo .aborted
  | .dropTask place => world.setTasks (world.tasks.eraseIdx place)
  | .deliver place =>
    match world.tasks[place]? with
    | some ⟨run, .sending⟩ => (world.setTasks (world.tasks.set place ⟨run, .waiting⟩)).put run
    | _ => world
  | .refuse place =>
    match world.tasks[place]? with
    | some ⟨run, .sending⟩ =>
      (world.setTasks (world.tasks.set place ⟨run, .finishing .done⟩)).reject run
    | _ => world
  | .receive =>
    match world.channel with
    | run :: rest => world.handOver run rest
    | [] => world
  | .acknowledge run ack => world.answer run ack
  | .dropSender run => world.answer run .done
  | .dropReceiver => world.closeChannel
  | .finish place =>
    match world.tasks[place]? with
    | some ⟨run, .finishing ack⟩ =>
      (world.enqueue (.finish run ack)).setTasks (world.tasks.eraseIdx place)
    | _ => world
  | .process readings => world.processFirst readings

/-- Every turn of an interleaving is permitted where it is taken. -/
abbrev Interleaving (bufferSize : Nat) (turns : List (Turn T)) : Prop :=
  Runs.Along perform (fun world turn => world.permits bufferSize turn = true) initial turns

/-- The world that a list of turns leads to. -/
def reached (turns : List (Turn T)) : World T := turns.foldl perform initial

omit [DecidableEq T] in
/-- The task at a place, and the tasks before and after it. -/
theorem tasks_split (tasks : List (Task T)) (place : Nat) (task : Task T)
    (here : tasks[place]? = some task) :
    tasks = tasks.take place ++ task :: tasks.drop (place + 1) ∧
      (∀ other, tasks.set place other = tasks.take place ++ other :: tasks.drop (place + 1)) ∧
      tasks.eraseIdx place = tasks.take place ++ tasks.drop (place + 1) := by
  obtain ⟨bounded, same⟩ := List.getElem?_eq_some_iff.mp here
  refine ⟨?_, ?_, List.eraseIdx_eq_take_drop_succ tasks place⟩
  · rw [← same, List.getElem_cons_drop, List.take_append_drop]
  · intro other
    exact List.set_eq_take_append_cons_drop.trans (if_pos bounded)

/-! ### The turns that read the world

Each of these acts on what it finds, and is permitted only where it finds it. -/

section Found

variable {bufferSize : Nat} {world : World T}

/-- A request that is permitted is valid. -/
theorem request_found {request : Request T}
    (permitted : world.permits bufferSize (.request request) = true) :
    ∃ command, request.command = .ok command ∧ world.queue.length < bufferSize ∧
      world.perform (.request request) = world.enqueue (.plain command) := by
  obtain ⟨valid, room⟩ := Bool.and_eq_true_iff.mp permitted
  cases accepted : request.command with
  | error error => simp [accepted, Except.isOk, Except.toBool] at valid
  | ok command => exact ⟨command, rfl, of_decide_eq_true room, by simp [perform, accepted]⟩

/-- A reply that is collected is there. -/
theorem collect_found (permitted : world.permits bufferSize .collect = true) :
    ∃ runs, world.driver = .replied runs ∧ world.perform .collect = world.moveTo (.spawning runs) := by
  cases driver : world.driver with
  | replied runs => exact ⟨runs, rfl, by simp [perform, driver]⟩
  | _ => simp [permits, driver] at permitted

/-- A task is spawned for a due id that is left. -/
theorem spawn_found (permitted : world.permits bufferSize .spawn = true) :
    ∃ run rest, world.driver = .spawning (run :: rest) ∧ world.perform .spawn =
      (world.moveTo (.spawning rest)).setTasks (⟨run, .sending⟩ :: world.tasks) := by
  cases driver : world.driver with
  | spawning runs =>
    cases runs with
    | nil => simp [permits, driver] at permitted
    | cons run rest => exact ⟨run, rest, rfl, by simp [perform, driver]⟩
  | _ => simp [permits, driver] at permitted

/-- A run is delivered for a task that sends it. -/
theorem deliver_found {place : Nat} (permitted : world.permits bufferSize (.deliver place) = true) :
    ∃ front run back, world.tasks = front ++ ⟨run, .sending⟩ :: back ∧ world.receiving = true ∧
      world.channel.length < bufferSize ∧ world.perform (.deliver place) =
        (world.setTasks (front ++ ⟨run, .waiting⟩ :: back)).put run := by
  obtain ⟨sending, receiving, room⟩ := of_decide_eq_true permitted
  obtain ⟨⟨run, phase⟩, here, rfl⟩ := Option.map_eq_some_iff.mp sending
  obtain ⟨split, replaced, _⟩ := tasks_split world.tasks place _ here
  exact ⟨_, run, _, split, receiving, room, by simp only [perform, here, replaced]⟩

/-- A run is refused to a task that sends it. -/
theorem refuse_found {place : Nat} (permitted : world.permits bufferSize (.refuse place) = true) :
    ∃ front run back, world.tasks = front ++ ⟨run, .sending⟩ :: back ∧ world.receiving = false ∧
      world.perform (.refuse place) =
        (world.setTasks (front ++ ⟨run, .finishing .done⟩ :: back)).reject run := by
  obtain ⟨sending, closed⟩ := of_decide_eq_true permitted
  obtain ⟨⟨run, phase⟩, here, rfl⟩ := Option.map_eq_some_iff.mp sending
  obtain ⟨split, replaced, _⟩ := tasks_split world.tasks place _ here
  exact ⟨_, run, _, split, closed, by simp only [perform, here, replaced]⟩

/-- A consumer receives the oldest run of the channel. -/
theorem receive_found (permitted : world.permits bufferSize .receive = true) :
    ∃ run rest, world.channel = run :: rest ∧ world.perform .receive = world.handOver run rest := by
  cases oldest : world.channel with
  | nil => simp [permits, oldest] at permitted
  | cons run rest => exact ⟨run, rest, rfl, by simp [perform, oldest]⟩

/-- An acknowledgement is queued for a task that has its outcome. -/
theorem finish_found {place : Nat} (permitted : world.permits bufferSize (.finish place) = true) :
    ∃ front run ack back, world.tasks = front ++ ⟨run, .finishing ack⟩ :: back ∧
      world.queue.length < bufferSize ∧ world.perform (.finish place) =
        (world.enqueue (.finish run ack)).setTasks (front ++ back) := by
  cases finishing : world.phaseAt place with
  | none => simp [permits, finishing] at permitted
  | some phase =>
    cases phase with
    | finishing ack =>
      simp only [permits, finishing] at permitted
      obtain ⟨⟨run, phase⟩, here, rfl⟩ := Option.map_eq_some_iff.mp finishing
      obtain ⟨split, _, erased⟩ := tasks_split world.tasks place _ here
      exact ⟨_, run, ack, _, split, of_decide_eq_true permitted, by simp only [perform, here, erased]⟩
    | _ => simp [permits, finishing] at permitted

/-- The actor processes the first command of the queue. -/
theorem process_found {readings : T → Reading}
    (permitted : world.permits bufferSize (.process readings) = true) :
    ∃ message rest, world.queue = message :: rest ∧
      world.perform (.process readings) = world.process message rest readings := by
  cases first : world.queue with
  | nil => simp [permits, first] at permitted
  | cons message rest => exact ⟨message, rest, rfl, by simp [perform, processFirst, first]⟩

end Found

/-- Every permitted turn is a step. -/
theorem step_of_permitted {bufferSize : Nat} (world : World T) (turn : Turn T)
    (permitted : world.permits bufferSize turn = true) :
    Step bufferSize world (world.perform turn) := by
  cases turn with
  | request request =>
    obtain ⟨command, accepted, room, performed⟩ := request_found permitted
    exact performed ▸ .request world request command accepted room
  | tick =>
    obtain ⟨selecting, room⟩ := of_decide_eq_true permitted
    exact .tick world selecting room
  | claimDue =>
    obtain ⟨claiming, room⟩ := of_decide_eq_true permitted
    exact .claimDue world claiming room
  | collect =>
    obtain ⟨runs, replied, performed⟩ := collect_found permitted
    exact performed ▸ .collect world runs replied
  | spawn =>
    obtain ⟨run, rest, spawning, performed⟩ := spawn_found permitted
    exact performed ▸ .spawn world run rest spawning
  | resume => exact .resume world (of_decide_eq_true permitted)
  | cancel => exact .cancel world
  | drain =>
    obtain ⟨selecting, cancelled⟩ := of_decide_eq_true permitted
    exact .drain world selecting cancelled
  | stop =>
    obtain ⟨draining, joined⟩ := of_decide_eq_true permitted
    exact .stop world draining joined
  | expire => exact .expire world (of_decide_eq_true permitted)
  | abort => exact .abort world
  | dropTask place =>
    obtain ⟨bounded, cut⟩ := of_decide_eq_true permitted
    obtain ⟨split, _, erased⟩ :=
      tasks_split world.tasks place _ (List.getElem?_eq_getElem bounded)
    rw [perform, erased]
    exact .dropTask world _ _ _ split cut
  | deliver place =>
    obtain ⟨front, run, back, live, receiving, room, performed⟩ := deliver_found permitted
    exact performed ▸ .deliver world front run back live receiving room
  | refuse place =>
    obtain ⟨front, run, back, live, closed, performed⟩ := refuse_found permitted
    exact performed ▸ .refuse world front run back live closed
  | receive =>
    obtain ⟨run, rest, oldest, performed⟩ := receive_found permitted
    exact performed ▸ .receive world run rest oldest
  | acknowledge run ack => exact .acknowledge world run ack (List.contains_iff_mem.mp permitted)
  | dropSender run => exact .dropSender world run (List.contains_iff_mem.mp permitted)
  | dropReceiver => exact .dropReceiver world permitted
  | finish place =>
    obtain ⟨front, run, ack, back, live, room, performed⟩ := finish_found permitted
    exact performed ▸ .finish world front run ack back live room
  | process readings =>
    obtain ⟨message, rest, first, performed⟩ := process_found permitted
    exact performed ▸ .process world message rest first readings

/-- Every step is some permitted turn. -/
theorem permitted_of_step {bufferSize : Nat} {before after : World T}
    (step : Step bufferSize before after) :
    ∃ turn, before.permits bufferSize turn = true ∧ before.perform turn = after := by
  cases step with
  | request request command accepted room =>
    exact ⟨.request request, by simp [permits, accepted, Except.isOk, Except.toBool, room],
      by simp [perform, accepted]⟩
  | tick selecting room => exact ⟨.tick, by simp [permits, selecting, room], rfl⟩
  | claimDue claiming room => exact ⟨.claimDue, by simp [permits, claiming, room], rfl⟩
  | collect runs replied => exact ⟨.collect, by simp [permits, replied], by simp [perform, replied]⟩
  | spawn run rest spawning =>
    exact ⟨.spawn, by simp [permits, spawning], by simp [perform, spawning]⟩
  | resume spawned => exact ⟨.resume, by simp [permits, spawned], rfl⟩
  | cancel => exact ⟨.cancel, rfl, rfl⟩
  | drain selecting cancelled => exact ⟨.drain, by simp [permits, selecting, cancelled], rfl⟩
  | stop draining joined => exact ⟨.stop, by simp [permits, draining, joined], rfl⟩
  | expire draining => exact ⟨.expire, by simp [permits, draining], rfl⟩
  | abort => exact ⟨.abort, rfl, rfl⟩
  | dropTask front task back live cut =>
    refine ⟨.dropTask front.length, ?_, ?_⟩
    · simp [permits, live, cut]
    · simp [perform, live, List.eraseIdx_append_of_length_le]
  | deliver front run back live receiving room =>
    refine ⟨.deliver front.length, ?_, ?_⟩
    · simp [permits, phaseAt, live, receiving, room]
    · simp [perform, live]
  | refuse front run back live closed =>
    refine ⟨.refuse front.length, ?_, ?_⟩
    · simp [permits, phaseAt, live, closed]
    · simp [perform, live]
  | receive run rest oldest =>
    exact ⟨.receive, by simp [permits, oldest], by simp [perform, oldest]⟩
  | acknowledge run ack holds => exact ⟨.acknowledge run ack, by simp [permits, holds], rfl⟩
  | dropSender run holds => exact ⟨.dropSender run, by simp [permits, holds], rfl⟩
  | dropReceiver receiving => exact ⟨.dropReceiver, receiving, rfl⟩
  | finish front run ack back live room =>
    refine ⟨.finish front.length, ?_, ?_⟩
    · simp [permits, phaseAt, live, room]
    · simp [perform, live, List.eraseIdx_append_of_length_le]
  | process message rest first readings =>
    exact ⟨.process readings, by simp [permits, first], by simp [perform, processFirst, first]⟩

/-- Steps are permitted turns. -/
theorem step_iff_permitted {bufferSize : Nat} {before after : World T} :
    Step bufferSize before after ↔
      ∃ turn, before.permits bufferSize turn = true ∧ before.perform turn = after := by
  constructor
  · exact permitted_of_step
  · rintro ⟨turn, permitted, rfl⟩
    exact step_of_permitted before turn permitted

/-- Interleavings of turns reach the worlds that steps reach. -/
theorem reachable_iff_interleaving {bufferSize : Nat} {world : World T} :
    Reachable bufferSize world ↔
      ∃ turns, Interleaving bufferSize turns ∧ reached turns = world := by
  constructor
  · intro steps
    induction steps with
    | refl => exact ⟨[], trivial, rfl⟩
    | tail _ step inductionHypothesis =>
      obtain ⟨turns, taken, rfl⟩ := inductionHypothesis
      obtain ⟨turn, permitted, rfl⟩ := permitted_of_step step
      exact ⟨turns ++ [turn], (Runs.along_append _ _ _).mpr ⟨taken, permitted, trivial⟩,
        List.foldl_append⟩
  · rintro ⟨turns, taken, rfl⟩
    exact Runs.invariant_after
      (fun world turn path permitted => Relation.ReflTransGen.tail path
        (step_of_permitted world turn permitted)) Relation.ReflTransGen.refl taken

/-! ### What the actor processes -/

/-- The input that the actor processes in a turn, if any. -/
def processedInput (world : World T) : Turn T → Option (Input T)
  | .process readings => world.queue.head?.map fun message => ⟨message.command, readings⟩
  | _ => none

/-- The inputs that the actor processes along some turns. -/
def history (turns : List (Turn T)) : List (Input T) :=
  Runs.outputs perform processedInput initial turns

/-- One turn more. -/
theorem reached_append (front : List (Turn T)) (turn : Turn T) :
    reached (front ++ [turn]) = (reached front).perform turn := List.foldl_append

/-- The inputs processed with one turn more. -/
theorem history_append (front : List (Turn T)) (turn : Turn T) :
    history (front ++ [turn]) =
      history front ++ ((reached front).processedInput turn).toList := by
  rw [history, Runs.outputs_append]
  simp [Runs.outputs, history, reached]

/-- Interleavings with one turn more. -/
theorem interleaving_append {bufferSize : Nat} (front : List (Turn T)) (turn : Turn T) :
    Interleaving bufferSize (front ++ [turn]) ↔
      Interleaving bufferSize front ∧ (reached front).permits bufferSize turn = true := by
  rw [Interleaving, Runs.along_append]
  simp [reached]

/-- The turns of an interleaving lead to a reachable world. -/
theorem reached_reachable {bufferSize : Nat} {turns : List (Turn T)}
    (taken : Interleaving bufferSize turns) : Reachable bufferSize (reached turns) :=
  reachable_iff_interleaving.mpr ⟨turns, taken, rfl⟩

/-- An interval activity runs, and its consumer snoozes it. -/
def snoozing : List (Turn Nat) :=
  [.request (.register ⟨1, .fixedInterval 10⟩), .process fun _ => .least 0 0, .tick, .claimDue,
    .process fun _ => .least 10 10, .process fun _ => .least 10 10, .collect, .spawn, .deliver 0,
    .receive, .acknowledge ⟨1, 0, 1⟩ (.snooze 5), .finish 0, .process fun _ => .least 12 12]

end World

end Ritualist
