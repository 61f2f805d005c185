import Mathlib.Logic.Function.Basic
import Ritualist.Schedule

/-!
# A timetable of alarms

What the scheduler is for, without the bookkeeping by which it gets there. Every id
has at most one alarm. An alarm waits from an instant of its tick clock on, and rings
when a claim finds that it has waited its span, or that its date has come. A tick moves
the clock and nothing else: no time is accumulated. A pause sets the alarm aside with
the time it has waited, and the end of the pause lets it wait as if it had begun that
much earlier.

Ringing takes an alarm out until it is answered. An answer sets it again or, for a
one-shot that is done, takes it off the timetable. A paused one-shot whose time has
come is taken off by a tick.
-/

namespace Ritualist

universe u

/-- What an alarm does. -/
inductive Alarm.Mode where
  | waiting (since : Instant)
  | paused (waited : Duration)
  /-- It has rung, and is not answered. -/
  | out
  | outPaused
  deriving DecidableEq, Repr

structure Alarm where
  schedule : ActivitySchedule
  target : ActivationTarget
  mode : Alarm.Mode
  /-- The tick clock: the instant of the last tick, or of the setting. -/
  clock : Instant
  deriving DecidableEq, Repr

namespace Alarm

/-- Set an alarm by its schedule. -/
def set (schedule : ActivitySchedule) (reading : Reading) : Alarm where
  schedule := schedule
  target := .fromSchedule reading.rng schedule
  mode := .waiting reading.now
  clock := reading.now

/-- The time an alarm has waited. -/
def waited (alarm : Alarm) : Duration :=
  match alarm.mode with
  | .waiting since => alarm.clock - since
  | .paused waited => waited
  | _ => 0

/-- The alarm's time has come. -/
def hasCome (alarm : Alarm) (reading : Reading) : Bool :=
  match alarm.target with
  | .duration span => decide (span ≤ alarm.waited)
  | .date date => decide (date ≤ reading.nowUtc)

def isWaiting (alarm : Alarm) : Bool :=
  match alarm.mode with
  | .waiting _ => true
  | _ => false

def isPaused (alarm : Alarm) : Bool :=
  match alarm.mode with
  | .paused _ => true
  | .outPaused => true
  | _ => false

/-- A claim finds the alarm ringing. -/
def rings (alarm : Alarm) (reading : Reading) : Bool := alarm.isWaiting && alarm.hasCome reading

/-- Move the tick clock. -/
def tick (alarm : Alarm) (reading : Reading) : Option Alarm :=
  if alarm.schedule.isOneShot && alarm.isPaused && alarm.hasCome reading then none
  else some { alarm with clock := reading.now }

/-- Pause an alarm, or let it go on. -/
def turn (alarm : Alarm) (enabled : Bool) : Alarm :=
  match enabled, alarm.mode with
  | false, .waiting since => { alarm with mode := .paused (alarm.clock - since) }
  | false, .out => { alarm with mode := .outPaused }
  | true, .paused waited => { alarm with mode := .waiting (alarm.clock - waited) }
  | true, .outPaused => { alarm with mode := .out }
  | _, _ => alarm

/-- Take an alarm that rings out. -/
def ring (alarm : Alarm) (reading : Reading) : Alarm :=
  if alarm.rings reading then { alarm with mode := .out } else alarm

/-- Make the alarm's time come at once. -/
def hasten (alarm : Alarm) (reading : Reading) : Alarm :=
  match alarm.target with
  | .duration _ => { alarm with target := .duration 0 }
  | .date _ => { alarm with target := .date reading.nowUtc }

/-- Answer an alarm, whatever it does: it waits from the last tick on, unless it is a
one-shot that is done. -/
def answer (alarm : Alarm) (ack : AckMessage) (reading : Reading) : Option Alarm :=
  match ack with
  | .snooze span => some { alarm with target := .duration span, mode := .waiting alarm.clock }
  | .done =>
    if alarm.schedule.isOneShot then none
    else some
      { alarm with
        target := .fromSchedule reading.rng alarm.schedule
        mode := .waiting alarm.clock }

end Alarm

/-- The alarms of all ids. -/
abbrev Timetable (T : Type u) := T → Option Alarm

namespace Timetable

variable {T : Type u}

/-- A timetable without alarms. -/
def blank : Timetable T := fun _ => none

variable [DecidableEq T]

/-- Set the alarm of a specification. -/
def set (table : Timetable T) (spec : ActivitySpec T) (readings : T → Reading) : Timetable T :=
  Function.update table spec.id (some (.set spec.schedule (readings spec.id)))

/-- Set the alarms of some specifications, up to the first whose id has one. -/
def registerEach (readings : T → Reading) :
    Timetable T → List (ActivitySpec T) → Timetable T × Except SchedulerError Unit
  | table, [] => (table, .ok ())
  | table, spec :: rest =>
    if (table spec.id).isSome then (table, .error .activityAlreadyRegistered)
    else registerEach readings (table.set spec readings) rest

/-- The timetable after a command. -/
def apply (table : Timetable T) (input : Input T) : Timetable T :=
  match input.command with
  | .register spec => if (table spec.id).isSome then table else table.set spec input.readings
  | .registerMany specs => (registerEach input.readings table specs).1
  | .reset spec => table.set spec input.readings
  | .resetMany specs => specs.foldl (fun reached spec => reached.set spec input.readings) table
  | .tick => fun id => (table id).bind fun alarm => alarm.tick (input.readings id)
  | .setEnabled id enabled =>
    Function.update table id ((table id).map fun alarm => alarm.turn enabled)
  | .claimDue => fun id => (table id).map fun alarm => alarm.ring (input.readings id)
  | .setImmediate id =>
    Function.update table id ((table id).map fun alarm => alarm.hasten (input.readings id))
  | .finish id ack =>
    Function.update table id ((table id).bind fun alarm => alarm.answer ack (input.readings id))
  | .snapshot => table

/-- What a client that registers is told. -/
def verdict (table : Timetable T) (input : Input T) : Option (Except SchedulerError Unit) :=
  match input.command with
  | .register spec =>
    some (if (table spec.id).isSome then .error .activityAlreadyRegistered else .ok ())
  | .registerMany specs => some (registerEach input.readings table specs).2
  | _ => none

/-- A command finds the alarm of an id ringing. -/
def rings (table : Timetable T) (id : T) (input : Input T) : Prop :=
  input.command = .claimDue ∧ ∃ alarm, table id = some alarm ∧ alarm.rings (input.readings id)

end Timetable

end Ritualist
