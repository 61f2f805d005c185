import Ritualist.Library.Mapping
import Ritualist.Library.Simulation
import Ritualist.Progress
import Ritualist.Turns

/-!
# Where the clock starts does not matter

A monotonic instant counts from an arbitrary origin, and the calendar could count from
any date. Activities keep an instant and dates, commands carry dates, and the handler
compares all of these with what the clock shows. It must depend on differences only.

Move the origins of both views, and with them every date a client names. Every function
of the scheduler commutes with that, so a whole interleaving does: the same turns are
permitted, the same runs are claimed, delivered and finished, clients get the same
answers, and progress is the same. The two origins need not move together.
-/

namespace Ritualist

universe u
variable {T : Type u}

/-- How far the origins of the two views are moved. -/
structure Offset where
  mono : Duration
  utc : Int

section Shifted

variable (offset : Offset)

/-- The reading of the clock with moved origins. -/
def Reading.shifted (reading : Reading) : Reading where
  now := reading.now + offset.mono
  nowUtc := reading.nowUtc + offset.utc
  rng := reading.rng

/-- Intervals are spans, and stay; only a date moves. -/
def ActivitySchedule.shifted : ActivitySchedule → ActivitySchedule
  | .fixedInterval duration => .fixedInterval duration
  | .randomInterval min max => .randomInterval min max
  | .scheduled date => .scheduled (date + offset.utc)

/-- The target moves with the date it is, if it is one. -/
def ActivationTarget.shifted : ActivationTarget → ActivationTarget
  | .duration target => .duration target
  | .date target => .date (target + offset.utc)

/-- A specification under another origin names the same id. -/
def ActivitySpec.shifted (spec : ActivitySpec T) : ActivitySpec T :=
  { spec with schedule := spec.schedule.shifted offset }

/-- What an activity has accumulated is a span, and stays. -/
def Activity.shifted (activity : Activity T) : Activity T where
  spec := activity.spec.shifted offset
  state := activity.state
  durationDelta := activity.durationDelta
  activationTarget := activity.activationTarget.shifted offset
  lastTick := activity.lastTick + offset.mono
  lastRunAt := activity.lastRunAt.map fun date => date + offset.utc
  createdAt := activity.createdAt + offset.utc

/-- A command names dates in the specifications it carries, and nowhere else. -/
def Command.shifted : Command T → Command T
  | .register spec => .register (spec.shifted offset)
  | .registerMany specs => .registerMany (specs.map (ActivitySpec.shifted offset))
  | .reset spec => .reset (spec.shifted offset)
  | .resetMany specs => .resetMany (specs.map (ActivitySpec.shifted offset))
  | .tick => .tick
  | .setEnabled id enabled => .setEnabled id enabled
  | .claimDue => .claimDue
  | .setImmediate id => .setImmediate id
  | .finish id ack => .finish id ack
  | .snapshot => .snapshot

/-- Only a snapshot shows dates. -/
def Reply.shifted : Reply T → Reply T
  | .registered result => .registered result
  | .due ids => .due ids
  | .activities snapshot => .activities (snapshot.map (Activity.shifted offset))

/-- What happens to one id: only an insertion carries dates. -/
def Event.shifted : Event T → Event T
  | .insert spec => .insert (spec.shifted offset)
  | event => event

/-- The same command, with its dates moved, at the moved readings. -/
def Input.shifted (input : Input T) : Input T where
  command := input.command.shifted offset
  readings := fun id => (input.readings id).shifted offset

/-- The map of the actor under other origins: every entry moves, no key does. -/
def SchedulerActor.shifted (actor : SchedulerActor T) : SchedulerActor T :=
  ⟨Table.map (Activity.shifted offset) actor.activities⟩

/-! ### Schedules and specifications -/

/-- Moving a date does not make a schedule an interval. -/
@[simp] theorem one_shot_shifted (schedule : ActivitySchedule) :
    (schedule.shifted offset).isOneShot = schedule.isOneShot := by
  cases schedule <;> rfl

/-- Validation looks at spans only. -/
@[simp] theorem validate_shifted (spec : ActivitySpec T) :
    (spec.shifted offset).validate = spec.validate := by
  obtain ⟨id, schedule⟩ := spec
  cases schedule <;> rfl

/-- A batch passes validation under one origin exactly if it does under another. -/
theorem validate_all_shifted (specs : List (ActivitySpec T)) :
    forM (specs.map (ActivitySpec.shifted offset)) ActivitySpec.validate =
      forM specs ActivitySpec.validate := by
  induction specs with
  | nil => rfl
  | cons spec rest inductionHypothesis =>
    rw [List.map_cons, List.forM_cons, List.forM_cons, validate_shifted, inductionHypothesis]

/-- The moved schedule draws the moved target. -/
theorem from_schedule_shifted (rng : Rng) (schedule : ActivitySchedule) :
    ActivationTarget.fromSchedule rng (schedule.shifted offset) =
      (ActivationTarget.fromSchedule rng schedule).shifted offset := by
  cases schedule <;> rfl

/-! ### One activity -/

namespace Activity

variable (activity : Activity T) (reading : Reading)

/-- An activity created at the moved reading is the moved activity. -/
theorem new_shifted (spec : ActivitySpec T) :
    new (spec.shifted offset) (reading.shifted offset) = (new spec reading).shifted offset := by
  simp only [new, shifted, Option.map_none]
  rw [← from_schedule_shifted]
  rfl

/-- An activity is at its target for the moved clock when it is for the clock. -/
@[simp] theorem at_target_shifted :
    (activity.shifted offset).isAtTarget (reading.shifted offset) = activity.isAtTarget reading := by
  unfold isAtTarget shifted Reading.shifted
  cases activity.activationTarget with
  | duration span => rfl
  | date date => simp [ActivationTarget.shifted]

/-- An activity is due at the moved reading when it is at the reading. -/
theorem should_run_shifted :
    (activity.shifted offset).shouldRun (reading.shifted offset) = activity.shouldRun reading := by
  simp only [shouldRun, at_target_shifted]
  rfl

/-- A tick counts the same span, and marks the same activities for collection. -/
theorem tick_shifted :
    (activity.shifted offset).tick (reading.shifted offset) =
      (activity.tick reading).shifted offset := by
  have between : reading.now + offset.mono - (activity.lastTick + offset.mono) =
      reading.now - activity.lastTick := Nat.add_sub_add_right ..
  have collects : (activity.shifted offset).isCollectable (reading.shifted offset) =
      activity.isCollectable reading := by
    simp only [isCollectable, at_target_shifted]
    exact congrArg (fun oneShot => oneShot && activity.state.isDisabled && _)
      (one_shot_shifted offset activity.spec.schedule)
  rw [tick_eq, tick_eq, collects]
  simp only [shifted, Reading.shifted, between]

/-- A claim reports the same, and leaves the moved activity. -/
theorem claim_if_due_shifted :
    (activity.shifted offset).claimIfDue (reading.shifted offset) =
      ((activity.claimIfDue reading).1.shifted offset, (activity.claimIfDue reading).2) := by
  simp only [claimIfDue, should_run_shifted]
  cases activity.shouldRun reading <;> rfl

/-- Pausing knows no time. -/
theorem set_enabled_shifted (enabled : Bool) :
    (activity.shifted offset).setEnabled enabled =
      (activity.setEnabled enabled).shifted offset := by
  rw [set_enabled_eq, set_enabled_eq]
  rfl

/-- A dispatch targets the moved present instead of a date, and no span at all otherwise. -/
theorem set_immediate_shifted :
    (activity.shifted offset).setImmediate (reading.shifted offset) =
      (activity.setImmediate reading).shifted offset := by
  obtain ⟨spec, state, delta, target, lastTick, lastRunAt, createdAt⟩ := activity
  cases target <;> rfl

/-- An acknowledgement draws the moved target anew, or targets the span it snoozes for. -/
theorem finish_shifted (ack : AckMessage) :
    (activity.shifted offset).finish ack (reading.shifted offset) =
      (activity.finish ack reading).shifted offset := by
  obtain ⟨⟨id, schedule⟩, state, delta, target, lastTick, lastRunAt, createdAt⟩ := activity
  cases ack <;> cases schedule <;> rfl

/-- Progress is measured between dates, or in spans. -/
theorem progress_shifted :
    (activity.shifted offset).calculateProgressPct (reading.shifted offset) =
      activity.calculateProgressPct reading := by
  unfold calculateProgressPct shifted Reading.shifted
  cases activity.activationTarget with
  | duration span => rfl
  | date date => simp [ActivationTarget.shifted]

end Activity

/-! ### The scheduler -/

namespace SchedulerActor

variable [DecidableEq T] (actor : SchedulerActor T) (readings : T → Reading)

/-- Inserting a new activity. -/
theorem insert_shifted (activities : Table T (Activity T)) (spec : ActivitySpec T) :
    (Table.map (Activity.shifted offset) activities).insert (spec.shifted offset).id
        (Activity.new (spec.shifted offset) ((readings (spec.shifted offset).id).shifted offset)) =
      Table.map (Activity.shifted offset)
        (activities.insert spec.id (Activity.new spec (readings spec.id))) := by
  rw [Activity.new_shifted]
  exact Table.insert_map _ activities spec.id _

/-- A batch is registered up to the same id. -/
theorem register_each_shifted (activities : Table T (Activity T)) (specs : List (ActivitySpec T)) :
    registerEach (fun id => (readings id).shifted offset)
        (Table.map (Activity.shifted offset) activities)
        (specs.map (ActivitySpec.shifted offset)) =
      (Table.map (Activity.shifted offset) (registerEach readings activities specs).1,
        (registerEach readings activities specs).2) := by
  induction specs generalizing activities with
  | nil => rfl
  | cons spec rest inductionHypothesis =>
    have same : (spec.shifted offset).id ∈ Table.map (Activity.shifted offset) activities ↔
        spec.id ∈ activities := Table.mem_map _ _ _
    simp only [List.map_cons, registerEach, same, insert_shifted, inductionHypothesis]
    split <;> rfl

/-- A batch of resets inserts the moved activities. -/
theorem reset_each_shifted (activities : Table T (Activity T)) (specs : List (ActivitySpec T)) :
    resetEach (fun id => (readings id).shifted offset)
        (Table.map (Activity.shifted offset) activities)
        (specs.map (ActivitySpec.shifted offset)) =
      Table.map (Activity.shifted offset) (resetEach readings activities specs) := by
  unfold resetEach
  induction specs generalizing activities with
  | nil => rfl
  | cons spec rest inductionHypothesis =>
    rw [List.map_cons, List.foldl_cons, List.foldl_cons, insert_shifted, inductionHypothesis]

/-- The handler commutes with a move of the origins, and so does its answer. -/
theorem send_shifted (cmd : Command T) :
    (actor.shifted offset).send (cmd.shifted offset) (fun id => (readings id).shifted offset) =
      ((actor.send cmd readings).1.shifted offset,
        (actor.send cmd readings).2.map (Reply.shifted offset)) := by
  cases cmd with
  | register spec =>
    have same : (spec.shifted offset).id ∈ (actor.shifted offset).activities ↔
        spec.id ∈ actor.activities := Table.mem_map _ _ _
    simp only [Command.shifted, send, same]
    split
    · rfl
    · simp only [shifted, insert_shifted, Option.map_some, Reply.shifted]
  | registerMany specs =>
    simp only [Command.shifted, send, shifted, register_each_shifted, Option.map_some,
      Reply.shifted]
  | reset spec => simp only [Command.shifted, send, shifted, insert_shifted, Option.map_none]
  | resetMany specs =>
    simp only [Command.shifted, send, shifted, reset_each_shifted, Option.map_none]
  | tick =>
    simp only [Command.shifted, send, shifted, Option.map_none]
    refine Prod.ext (congrArg SchedulerActor.mk (Table.revise_map _ _ _ ?_ _)) rfl
    intro id activity
    rw [Activity.tick_shifted]
    change (if (activity.tick (readings id)).state ≠ .gc then _ else none) = _
    split <;> rfl
  | setEnabled id enabled =>
    simp only [Command.shifted, send, shifted, Option.map_none]
    rw [Table.modify_map _ _ _ _ (Activity.set_enabled_shifted offset · enabled)]
  | claimDue =>
    simp only [Command.shifted, send, shifted]
    rw [Table.visit_map _ _ _ fun id activity =>
      Activity.claim_if_due_shifted offset activity (readings id)]
    rfl
  | setImmediate id =>
    simp only [Command.shifted, send, shifted, Option.map_none]
    rw [Table.modify_map _ _ _ _ (Activity.set_immediate_shifted offset · (readings id))]
  | finish id ack =>
    simp only [Command.shifted, send, shifted]
    rw [Table.modify_map _ _ _ _ (Activity.finish_shifted offset · (readings id) ack),
      Table.lookup_map]
    cases (Table.modify id _ actor.activities).lookup id with
    | none => rfl
    | some activity =>
      simp only [Option.map_some, Table.erase_map]
      change (if activity.state = .completed then _ else _) = _
      split <;> rfl
  | snapshot =>
    simp only [Command.shifted, send, shifted, Option.map_some, Reply.shifted, Table.map,
      Table.mapEntries, List.map_map]
    rfl

/-- The actor commutes with a move of the origins. -/
theorem step_shifted (input : Input T) :
    (actor.shifted offset).step (input.shifted offset) = (actor.step input).shifted offset :=
  congrArg Prod.fst (send_shifted offset actor input.readings input.command)

/-- The same ids are claimed. -/
theorem claimed_shifted (input : Input T) :
    (actor.shifted offset).claimed (input.shifted offset) = actor.claimed input := by
  have replied : ((actor.shifted offset).send (input.shifted offset).command
      (input.shifted offset).readings).2 =
        (actor.send input.command input.readings).2.map (Reply.shifted offset) :=
    congrArg Prod.snd (send_shifted offset actor input.readings input.command)
  unfold claimed
  rw [replied]
  cases (actor.send input.command input.readings).2 with
  | none => rfl
  | some reply => cases reply <;> rfl

/-- A batch registers an id with the moved specification. -/
theorem accepted_spec_shifted (id : T) (present : List T) (specs : List (ActivitySpec T)) :
    acceptedSpec id present (specs.map (ActivitySpec.shifted offset)) =
      (acceptedSpec id present specs).map (ActivitySpec.shifted offset) := by
  induction specs generalizing present with
  | nil => rfl
  | cons spec rest inductionHypothesis =>
    simp only [List.map_cons, acceptedSpec, inductionHypothesis]
    change (if spec.id ∈ present then none else if spec.id = id then _ else _) = _
    split
    · rfl
    · split <;> rfl

/-- The same ids are inserted. -/
theorem event_at_shifted (id : T) (command : Command T) :
    (actor.shifted offset).eventAt id (command.shifted offset) =
      (actor.eventAt id command).shifted offset := by
  cases command with
  | register spec =>
    have same : (spec.shifted offset).id ∈ (actor.shifted offset).activities ↔
        spec.id ∈ actor.activities := Table.mem_map _ _ _
    simp only [Command.shifted, eventAt, same]
    change (if spec.id = id ∧ spec.id ∉ actor.activities then _ else _) = _
    split <;> rfl
  | registerMany specs =>
    simp only [Command.shifted, eventAt, shifted, Table.keys_map, accepted_spec_shifted]
    cases acceptedSpec id actor.activities.keys specs <;> rfl
  | reset spec =>
    change (if spec.id = id then _ else _) = Event.shifted offset (if spec.id = id then _ else _)
    split <;> rfl
  | resetMany specs =>
    have sought : (fun spec : ActivitySpec T => decide (spec.id = id)) ∘
        ActivitySpec.shifted offset = fun spec => decide (spec.id = id) := rfl
    simp only [Command.shifted, eventAt, ← List.map_reverse, List.find?_map, sought]
    cases specs.reverse.find? fun spec => decide (spec.id = id) <;> rfl
  | setEnabled target enabled | setImmediate target | finish target ack =>
    simp only [Command.shifted, eventAt]
    split <;> rfl
  | _ => rfl

/-- An input inserts the same ids. -/
theorem inserts_shifted (id : T) (input : Input T) :
    (actor.shifted offset).inserts id (input.shifted offset) ↔ actor.inserts id input := by
  have event := event_at_shifted offset actor id input.command
  unfold inserts
  change (∃ spec, (actor.shifted offset).eventAt id (input.command.shifted offset) = _) ↔ _
  rw [event]
  cases actor.eventAt id input.command <;> simp [Event.shifted]

end SchedulerActor

/-! ### The parties -/

/-- A request of a client whose dates are named from the moved origin. -/
def Request.shifted : Request T → Request T
  | .register spec => .register (spec.shifted offset)
  | .registerMany specs => .registerMany (specs.map (ActivitySpec.shifted offset))
  | .reset spec => .reset (spec.shifted offset)
  | .resetMany specs => .resetMany (specs.map (ActivitySpec.shifted offset))
  | .setEnabled id enabled => .setEnabled id enabled
  | .dispatch id => .dispatch id
  | .snapshot => .snapshot

/-- An acknowledgement on its way to the actor names no date. -/
def Message.shifted : Message T → Message T
  | .plain command => .plain (command.shifted offset)
  | .finish run ack => .finish run ack

/-- A client names moved dates, and the actor reads the moved clock. -/
def Turn.shifted : Turn T → Turn T
  | .request asked => .request (asked.shifted offset)
  | .process readings => .process fun id => (readings id).shifted offset
  | turn => turn

/-- What the parties hold of the runs knows no time. -/
def World.shifted (world : World T) : World T :=
  { world with
    actor := world.actor.shifted offset
    queue := world.queue.map (Message.shifted offset) }

/-- The command of a moved message is the moved command. -/
@[simp] theorem message_command_shifted (message : Message T) :
    (message.shifted offset).command = message.command.shifted offset := by
  cases message <;> rfl

/-- A message acknowledges the same run. -/
@[simp] theorem message_runs_shifted (message : Message T) :
    (message.shifted offset).runs = message.runs := by
  cases message <;> rfl

/-- The same requests are valid. -/
theorem request_command_shifted (request : Request T) :
    (request.shifted offset).command = request.command.map (Command.shifted offset) := by
  cases request with
  | register spec | reset spec =>
    simp only [Request.shifted, Request.command, validate_shifted]
    cases spec.validate <;> rfl
  | registerMany specs | resetMany specs =>
    simp only [Request.shifted, Request.command, validate_all_shifted]
    cases forM specs ActivitySpec.validate <;> rfl
  | _ => rfl

/-- The driver receives the same reply. -/
theorem receive_shifted (runs : List (Run T)) (command : Command T) (point : DriverPoint T) :
    point.receive runs (command.shifted offset) = point.receive runs command := by
  cases command <;> rfl

namespace World

variable [DecidableEq T] (world : World T)

/-- The same turns are permitted. -/
theorem permits_shifted (bufferSize : Nat) (turn : Turn T) :
    (world.shifted offset).permits bufferSize (turn.shifted offset) =
      world.permits bufferSize turn := by
  have length : (world.shifted offset).queue.length = world.queue.length := List.length_map _
  cases turn with
  | request request =>
    simp only [Turn.shifted, permits, request_command_shifted, length]
    cases request.command <;> rfl
  | tick | claimDue | finish =>
    simp only [Turn.shifted, permits, length]
    rfl
  | process readings =>
    simp only [Turn.shifted, permits, shifted, List.isEmpty_map]
  | _ => rfl

/-- The actor does the same with the first command. -/
theorem process_shifted (message : Message T) (rest : List (Message T)) (readings : T → Reading) :
    (world.shifted offset).process (message.shifted offset) (rest.map (Message.shifted offset))
        (fun id => (readings id).shifted offset) =
      (world.process message rest readings).shifted offset := by
  have step := SchedulerActor.step_shifted offset world.actor ⟨message.command, readings⟩
  have claimed := SchedulerActor.claimed_shifted offset world.actor ⟨message.command, readings⟩
  have inserts := fun id =>
    SchedulerActor.inserts_shifted offset world.actor id ⟨message.command, readings⟩
  simp only [Input.shifted] at step claimed inserts
  simp only [process, shifted, issue, message_command_shifted, message_runs_shifted, step, claimed,
    receive_shifted, inserts]

/-- A turn does the same. -/
theorem perform_shifted (turn : Turn T) :
    (world.shifted offset).perform (turn.shifted offset) = (world.perform turn).shifted offset := by
  have enqueued : ∀ message, (world.shifted offset).enqueue (Message.shifted offset message) =
      (world.enqueue message).shifted offset := by
    intro message
    simp [enqueue, shifted]
  cases turn with
  | request request =>
    simp only [Turn.shifted, perform, request_command_shifted]
    cases request.command with
    | error error => rfl
    | ok command => exact enqueued (.plain command)
  | tick => exact congrArg (moveTo · .claiming) (enqueued (.plain .tick))
  | claimDue => exact congrArg (moveTo · .awaiting) (enqueued (.plain .claimDue))
  | finish place =>
    simp only [Turn.shifted, perform]
    have same : (world.shifted offset).tasks = world.tasks := rfl
    rw [same]
    cases world.tasks[place]? with
    | none => rfl
    | some task =>
      obtain ⟨run, phase⟩ := task
      cases phase with
      | finishing ack =>
        exact congrArg (setTasks · (world.tasks.eraseIdx place)) (enqueued (.finish run ack))
      | _ => rfl
  | collect | spawn | deliver | refuse | receive =>
    simp only [Turn.shifted, perform, shifted]
    split <;> rfl
  | process readings =>
    simp only [Turn.shifted, perform, processFirst]
    cases queue : world.queue with
    | nil => simp [shifted, queue]
    | cons message rest =>
      have moved : (world.shifted offset).queue =
          message.shifted offset :: rest.map (Message.shifted offset) := by
        simp [shifted, queue]
      rw [moved]
      exact process_shifted offset world message rest readings
  | _ => rfl

end World

end Shifted

namespace World

variable [DecidableEq T]

/-- Every turn commutes with a move of the origins. -/
theorem turns_commute (offset : Offset) :
    Runs.Commutes perform perform (shifted offset) (Turn.shifted (T := T) offset) :=
  perform_shifted offset

/-- A list of turns leads to the moved world. -/
theorem reached_shifted (offset : Offset) (turns : List (Turn T)) :
    reached (turns.map (Turn.shifted offset)) = (reached turns).shifted offset :=
  (turns_commute offset).run initial turns

/-- The same turns make an interleaving. -/
theorem interleaving_shifted (bufferSize : Nat) (offset : Offset) (turns : List (Turn T)) :
    Interleaving bufferSize (turns.map (Turn.shifted offset)) ↔ Interleaving bufferSize turns :=
  (turns_commute offset).along (fun world turn => by rw [permits_shifted]) initial turns

/-- Where the clock starts does not matter. Move the origin of the monotonic view and
that of the wall-clock view, by different spans if need be, and with them all dates that
clients name. Then the same turns make an interleaving, and the world it reaches is the
same but for the instants and dates it holds: the runs in it are the very same. A client
that sends any command there gets the same answer, and every activity shows the same
progress. -/
theorem translated_interleaving (bufferSize : Nat) (offset : Offset) (turns : List (Turn T)) :
    (Interleaving bufferSize (turns.map (Turn.shifted offset)) ↔
        Interleaving bufferSize turns) ∧
      reached (turns.map (Turn.shifted offset)) = (reached turns).shifted offset ∧
      (∀ command readings, ((reached (turns.map (Turn.shifted offset))).actor.send
          (command.shifted offset) fun id => (readings id).shifted offset).2 =
        ((reached turns).actor.send command readings).2.map (Reply.shifted offset)) ∧
      ∀ id reading, ((reached (turns.map (Turn.shifted offset))).actor.activities.lookup id).map
          (fun activity => activity.calculateProgressPct (reading.shifted offset)) =
        ((reached turns).actor.activities.lookup id).map
          fun activity => activity.calculateProgressPct reading := by
  have same := reached_shifted offset turns
  refine ⟨interleaving_shifted bufferSize offset turns, same, ?_, ?_⟩
  · intro command readings
    rw [same]
    exact congrArg Prod.snd (SchedulerActor.send_shifted offset _ readings command)
  · intro id reading
    rw [same]
    simp only [shifted, SchedulerActor.shifted, Table.lookup_map, Option.map_map]
    exact congrArg (Option.map · _) (funext fun activity =>
      Activity.progress_shifted offset activity reading)

end World

end Ritualist
