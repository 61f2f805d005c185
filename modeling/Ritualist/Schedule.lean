import Ritualist.Library.Table
import Ritualist.Activity

/-!
# The scheduler actor and its client methods

One task owns the map of activities and processes commands one at a time. `send`
is that task's command handler: it returns the map after the command and the
answer placed on the command's reply channel, if it has one. The order of a
table's entries stands for the iteration order of the source's hash map.

The handler is total. A draw from an empty range and an overflowing span end the
task in the source; a run of the source is a prefix of a run here, so a law of
every run here is a law of every run there: `run_or_panic_ok` for the draws and
`run_or_overflow_sound` for the spans.

The client methods validate before they send. Composed with the handler they
give what a caller gets when its command is the next one processed.
-/

namespace Ritualist

universe u

/-- A request to the actor. Reply channels are modelled by `Reply`. -/
inductive Command (T : Type u) where
  | register (spec : ActivitySpec T)
  | registerMany (specs : List (ActivitySpec T))
  | reset (spec : ActivitySpec T)
  | resetMany (specs : List (ActivitySpec T))
  | tick
  | setEnabled (id : T) (enabled : Bool)
  | claimDue
  | setImmediate (id : T)
  | finish (id : T) (ack : AckMessage)
  | snapshot
  deriving DecidableEq, Repr

inductive SchedulerError where
  | activityAlreadyRegistered
  deriving DecidableEq, Repr

inductive RitualistError where
  | activitySpecError (error : ActivitySpecError)
  | scheulerError (error : SchedulerError)
  deriving DecidableEq, Repr

/-- What the actor places on a command's reply channel. -/
inductive Reply (T : Type u) where
  | registered (result : Except SchedulerError Unit)
  | due (ids : List T)
  | activities (snapshot : List (Activity T))

/-- The state the actor's task owns. -/
structure SchedulerActor (T : Type u) where
  activities : Table T (Activity T)

/-- A command and what each activity reads while it is processed. -/
structure Input (T : Type u) where
  command : Command T
  readings : T → Reading

variable {T : Type u} [DecidableEq T]

namespace SchedulerActor

/-- The actor as it is spawned. -/
def empty : SchedulerActor T := ⟨∅⟩

/-- Insert one specification after another, refusing at the first id present.
What was inserted before the refusal stays. -/
def registerEach (readings : T → Reading) :
    Table T (Activity T) → List (ActivitySpec T) →
      Table T (Activity T) × Except SchedulerError Unit
  | activities, [] => (activities, .ok ())
  | activities, spec :: rest =>
    if spec.id ∈ activities then (activities, .error .activityAlreadyRegistered)
    else registerEach readings
      (activities.insert spec.id (Activity.new spec (readings spec.id))) rest

/-- Insert every specification, overwriting entries of the same id. -/
def resetEach (readings : T → Reading) (activities : Table T (Activity T))
    (specs : List (ActivitySpec T)) : Table T (Activity T) :=
  specs.foldl (fun table spec =>
    table.insert spec.id (Activity.new spec (readings spec.id))) activities

/-- Process one command. -/
def send (actor : SchedulerActor T) (cmd : Command T) (readings : T → Reading) :
    SchedulerActor T × Option (Reply T) :=
  match cmd with
  | .register spec =>
    if spec.id ∈ actor.activities
    then (actor, some (.registered (.error .activityAlreadyRegistered)))
    else (⟨actor.activities.insert spec.id (Activity.new spec (readings spec.id))⟩,
      some (.registered (.ok ())))
  | .registerMany specs =>
    let (activities, result) := registerEach readings actor.activities specs
    (⟨activities⟩, some (.registered result))
  | .reset spec =>
    (⟨actor.activities.insert spec.id (Activity.new spec (readings spec.id))⟩, none)
  | .resetMany specs => (⟨resetEach readings actor.activities specs⟩, none)
  | .tick =>
    (⟨Table.revise (fun id activity =>
      let ticked := activity.tick (readings id)
      if ticked.state ≠ .gc then some ticked else none) actor.activities⟩, none)
  | .setEnabled id enabled =>
    (⟨Table.modify id (fun activity => activity.setEnabled enabled) actor.activities⟩, none)
  | .claimDue =>
    let (activities, ids) := Table.visit
      (fun id activity => activity.claimIfDue (readings id)) actor.activities
    (⟨activities⟩, some (.due ids))
  | .setImmediate id =>
    (⟨Table.modify id (fun activity => activity.setImmediate (readings id))
      actor.activities⟩, none)
  | .finish id ack =>
    let activities := Table.modify id (fun activity => activity.finish ack (readings id))
      actor.activities
    match activities.lookup id with
    | some activity =>
      if activity.state = .completed then (⟨activities.erase id⟩, none) else (⟨activities⟩, none)
    | none => (actor, none)
  | .snapshot =>
    (actor, some (.activities (actor.activities.entries.map fun entry => entry.2)))

/-- The actor after one command. -/
def step (actor : SchedulerActor T) (input : Input T) : SchedulerActor T :=
  (actor.send input.command input.readings).1

/-- The ids a command's reply reports as due; none unless it is a claim. -/
def claimed (actor : SchedulerActor T) (input : Input T) : List T :=
  match (actor.send input.command input.readings).2 with
  | some (.due ids) => ids
  | _ => []

/-- The actor after a list of commands. -/
def run (actor : SchedulerActor T) (inputs : List (Input T)) : SchedulerActor T :=
  inputs.foldl step actor

@[simp] theorem run_nil (actor : SchedulerActor T) : actor.run [] = actor := rfl

@[simp] theorem run_cons (actor : SchedulerActor T) (input : Input T) (rest : List (Input T)) :
    actor.run (input :: rest) = (actor.step input).run rest := rfl

@[simp] theorem run_append (actor : SchedulerActor T) (first second : List (Input T)) :
    actor.run (first ++ second) = (actor.run first).run second := List.foldl_append

end SchedulerActor

/-!
The client methods. An answer is what the reply channel delivers; a channel that
delivers nothing makes the client's `unwrap` panic, which is `none`.
-/

namespace WithScheduler

/-- Read a registration's reply, `Scheduler::register`. -/
def registration : Option (Reply T) → Option (Except SchedulerError Unit)
  | some (.registered result) => some result
  | _ => none

/-- Validate, send and await the reply. -/
def register (actor : SchedulerActor T) (spec : ActivitySpec T) (readings : T → Reading) :
    SchedulerActor T × Option (Except RitualistError Unit) :=
  match spec.validate with
  | .error error => (actor, some (.error (.activitySpecError error)))
  | .ok () =>
    let (after, reply) := actor.send (.register spec) readings
    (after, (registration reply).map fun result => result.mapError .scheulerError)

/-- Validate every specification before any is sent. -/
def registerMany (actor : SchedulerActor T) (specs : List (ActivitySpec T))
    (readings : T → Reading) : SchedulerActor T × Option (Except RitualistError Unit) :=
  match forM specs ActivitySpec.validate with
  | .error error => (actor, some (.error (.activitySpecError error)))
  | .ok () =>
    let (after, reply) := actor.send (.registerMany specs) readings
    (after, (registration reply).map fun result => result.mapError .scheulerError)

/-- Validate and send, without a reply. -/
def reset (actor : SchedulerActor T) (spec : ActivitySpec T) (readings : T → Reading) :
    SchedulerActor T × Except RitualistError Unit :=
  match spec.validate with
  | .error error => (actor, .error (.activitySpecError error))
  | .ok () => ((actor.send (.reset spec) readings).1, .ok ())

/-- Validate every specification and send, without a reply. -/
def resetMany (actor : SchedulerActor T) (specs : List (ActivitySpec T))
    (readings : T → Reading) : SchedulerActor T × Except RitualistError Unit :=
  match forM specs ActivitySpec.validate with
  | .error error => (actor, .error (.activitySpecError error))
  | .ok () => ((actor.send (.resetMany specs) readings).1, .ok ())

end WithScheduler

end Ritualist
