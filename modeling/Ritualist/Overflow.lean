import Mathlib.Data.List.Induction
import Ritualist.Timing

/-!
# The accumulator stays in range

A tick adds to the accumulated time without a check of its own. The addition of
two spans panics past the greatest one, in the walk over the map, and the panic
would end the one task that serves every activity.

The operations here are the handler's with that panic. The total operations count
in unbounded spans, and in these an entry has never accumulated more than the time
from its insertion to its latest tick: ticks count disjoint pieces of that time,
and claims, acknowledgements, pauses and dispatches add nothing. The insertion's
reading is a ghost of the run, since the actor does not keep it. So as long as the
differences of monotonic readings are spans, the sum is one, and the panicking
actor is the total one.
-/

namespace Ritualist

universe u
variable {T : Type u}

/-- The greatest span, `Duration::MAX`: as many seconds as a 64-bit word counts, and
the nanoseconds below one more. -/
def Duration.max : Duration := 18446744073709551615 * 1000000000 + 999999999

/-- The panic of an addition past the greatest span. -/
structure DurationOverflow where
  first : Duration
  second : Duration
  deriving DecidableEq, Repr

/-- Add two spans, panicking past the greatest one. -/
def Duration.addOrPanic (first second : Duration) : Except DurationOverflow Duration :=
  if first + second ≤ Duration.max then .ok (first + second) else .error ⟨first, second⟩

namespace Activity

/-- A tick, `Activity::tick`, with the panic of its addition. -/
def tickOrOverflow (activity : Activity T) (reading : Reading) :
    Except DurationOverflow (Activity T) :=
  let now := reading.now
  let tickDelta := now.saturatingDurationSince activity.lastTick
  let moved := { activity with lastTick := now }
  if moved.state.isScheduled then
    match Duration.addOrPanic moved.durationDelta tickDelta with
    | .error overflow => .error overflow
    | .ok durationDelta =>
      .ok (({ moved with durationDelta := durationDelta } : Activity T).tryGcMark reading)
  else .ok (moved.tryGcMark reading)

/-- A tick whose sum is a span is the total operation's. -/
theorem tick_or_overflow_ok (activity : Activity T) (reading : Reading)
    (fits : activity.durationDelta + (reading.now - activity.lastTick) ≤ Duration.max) :
    activity.tickOrOverflow reading = .ok (activity.tick reading) := by
  by_cases waiting : activity.state.isScheduled = true
  · have added : Duration.addOrPanic activity.durationDelta
        (reading.now - activity.lastTick) =
          .ok (activity.durationDelta + (reading.now - activity.lastTick)) := if_pos fits
    simp [tickOrOverflow, tick, waiting, added, Instant.saturatingDurationSince]
  · simp [tickOrOverflow, tick, waiting]

/-- A tick panics exactly when the activity waits and its sum is no span. -/
theorem tick_or_overflow_error_iff (activity : Activity T) (reading : Reading) :
    (∃ overflow, activity.tickOrOverflow reading = .error overflow) ↔
      activity.state.isScheduled = true ∧
        Duration.max < activity.durationDelta + (reading.now - activity.lastTick) := by
  by_cases waiting : activity.state.isScheduled = true
  · by_cases fits : activity.durationDelta + (reading.now - activity.lastTick) ≤ Duration.max
    · simp [activity.tick_or_overflow_ok reading fits, fits]
    · have added : Duration.addOrPanic activity.durationDelta
          (reading.now - activity.lastTick) = .error ⟨_, _⟩ := if_neg fits
      simp [tickOrOverflow, waiting, added, Nat.lt_of_not_le fits, Instant.saturatingDurationSince]
  · simp [tickOrOverflow, waiting]

/-- A tick that does not panic is the total operation's. -/
theorem tick_or_overflow_sound (activity : Activity T) (reading : Reading) (ticked : Activity T)
    (ended : activity.tickOrOverflow reading = .ok ticked) : ticked = activity.tick reading := by
  by_cases fits : activity.durationDelta + (reading.now - activity.lastTick) ≤ Duration.max
  · rw [activity.tick_or_overflow_ok reading fits] at ended
    exact (Except.ok.inj ended).symm
  · by_cases waiting : activity.state.isScheduled = true
    · obtain ⟨overflow, panics⟩ := (activity.tick_or_overflow_error_iff reading).mpr
        ⟨waiting, Nat.lt_of_not_le fits⟩
      rw [panics] at ended
      cases ended
    · simp only [tickOrOverflow, waiting, Bool.false_eq_true, if_false] at ended
      simp only [tick, waiting, Bool.false_eq_true, if_false]
      exact (Except.ok.inj ended).symm

end Activity

variable [DecidableEq T]

namespace SchedulerActor

/-- Process one command, with the panic of a tick's addition. No other command adds
spans. -/
def sendOrOverflow (actor : SchedulerActor T) (cmd : Command T) (readings : T → Reading) :
    Except DurationOverflow (SchedulerActor T × Option (Reply T)) :=
  match cmd with
  | .tick => do
    let activities ← Table.tryRevise (fun id activity =>
      (activity.tickOrOverflow (readings id)).map fun ticked =>
        if ticked.state ≠ .gc then some ticked else none) actor.activities
    return (⟨activities⟩, none)
  | other => .ok (actor.send other readings)

/-- The actor after one command, unless it panics. -/
def stepOrOverflow (actor : SchedulerActor T) (input : Input T) :
    Except DurationOverflow (SchedulerActor T) :=
  (actor.sendOrOverflow input.command input.readings).map Prod.fst

/-- The actor after a list of commands, unless one of them panics. -/
def runOrOverflow (actor : SchedulerActor T) (inputs : List (Input T)) :
    Except DurationOverflow (SchedulerActor T) :=
  inputs.foldlM stepOrOverflow actor

/-- A command is processed as by the total handler if every sum of a tick is a span. -/
theorem step_or_overflow_ok (actor : SchedulerActor T) (input : Input T)
    (fits : ∀ id, actor.EntrySatisfies id fun activity =>
      activity.durationDelta + (input.nowAt id - activity.lastTick) ≤ Duration.max) :
    actor.stepOrOverflow input = .ok (actor.step input) := by
  obtain ⟨command, readings⟩ := input
  cases command with
  | tick =>
    have walked := Table.try_revise_ok
      (fun id (activity : Activity T) => (activity.tickOrOverflow (readings id)).map fun ticked =>
        if ticked.state ≠ .gc then some ticked else none)
      (fun id activity =>
        if (activity.tick (readings id)).state ≠ .gc then some (activity.tick (readings id))
        else none)
      actor.activities (by
        rintro ⟨id, activity⟩ member
        have present : actor.activities.lookup id = some activity := AList.mem_lookup_iff.mpr member
        have ticks := activity.tick_or_overflow_ok (readings id) (fits id activity present)
        simp only [ticks, Except.map])
    simp only [stepOrOverflow, sendOrOverflow, walked]
    rfl
  | _ => rfl

/-- A command that does not panic is processed as by the total handler. -/
theorem step_or_overflow_sound (actor : SchedulerActor T) (input : Input T)
    (after : SchedulerActor T) (stepped : actor.stepOrOverflow input = .ok after) :
    after = actor.step input := by
  obtain ⟨command, readings⟩ := input
  obtain ⟨outcome, processed, rfl⟩ := Runs.map_eq_ok.mp stepped
  cases command with
  | tick =>
    obtain ⟨activities, walked, returned⟩ := Runs.bind_eq_ok.mp processed
    obtain rfl := Except.ok.inj returned
    apply congrArg SchedulerActor.mk
    apply Table.try_revise_sound _ _ _ actor.activities activities walked
    intro id activity result ended
    obtain ⟨ticked, ticks, rfl⟩ := Runs.map_eq_ok.mp ended
    rw [activity.tick_or_overflow_sound (readings id) ticked ticks]
  | _ =>
    obtain rfl := Except.ok.inj processed
    rfl

/-- A run that ends without a panic ends where the total run does. -/
theorem run_or_overflow_sound (actor : SchedulerActor T) (inputs : List (Input T))
    {after : SchedulerActor T} (ended : actor.runOrOverflow inputs = .ok after) :
    after = actor.run inputs :=
  Runs.foldlM_sound step_or_overflow_sound ended

/-! ### The ghost of the insertion -/

/-- The monotonic reading at the latest insertion of an id in a run, or an earlier
one if there is none. -/
def insertedAt (id : T) : SchedulerActor T → Option Instant → List (Input T) → Option Instant
  | _, latest, [] => latest
  | actor, latest, input :: rest =>
    insertedAt id (actor.step input) (if actor.inserts id input then some (input.nowAt id) else latest)
      rest

/-- The latest insertion is read at one of the inputs, or is the earlier one. -/
theorem inserted_at_mem (id : T) (actor : SchedulerActor T) (latest : Option Instant)
    (inputs : List (Input T)) (start : Instant)
    (inserted : insertedAt id actor latest inputs = some start) :
    latest = some start ∨ ∃ input ∈ inputs, input.nowAt id = start := by
  induction inputs generalizing actor latest with
  | nil => exact Or.inl inserted
  | cons input rest inductionHypothesis =>
    rcases inductionHypothesis (actor.step input) _ inserted with here | ⟨later, member, read⟩
    · by_cases inserts : actor.inserts id input
      · rw [if_pos inserts] at here
        exact Or.inr ⟨input, List.mem_cons_self, Option.some.inj here⟩
      · rw [if_neg inserts] at here
        exact Or.inl here
    · exact Or.inr ⟨later, List.mem_cons_of_mem input member, read⟩

/-- The entry of an id has accumulated no more than the time from its insertion to
its latest tick, which is not after the present. -/
def InRange (id : T) (inserted : Option Instant) (now : Instant) (actor : SchedulerActor T) : Prop :=
  actor.EntrySatisfies id fun activity => ∃ start, inserted = some start ∧
    start + activity.durationDelta ≤ activity.lastTick ∧ activity.lastTick ≤ now

/-- Every command in time keeps an entry in range: an insertion starts it anew, and
no move accumulates time from before it. -/
theorem in_range_step (id : T) (inserted : Option Instant) (now : Instant)
    (actor : SchedulerActor T) (input : Input T) (inRange : InRange id inserted now actor)
    (inTime : now ≤ input.nowAt id) :
    InRange id (if actor.inserts id input then some (input.nowAt id) else inserted)
      (input.nowAt id) (actor.step input) := by
  intro after present
  rw [lookup_step] at present
  rcases Event.advance_some _ _ _ after present with ⟨spec, event, rfl⟩ | ⟨before, held, move⟩
  · exact ⟨input.nowAt id, if_pos ⟨spec, event⟩, le_rfl, le_rfl⟩
  · obtain ⟨start, same, counted, ticked⟩ := inRange before held
    have kept : ¬ actor.inserts id input := by
      rintro ⟨spec, event⟩
      rw [event] at move
      cases move
    exact ⟨start, (if_neg kept).trans same,
      move.accumulates start counted (ticked.trans inTime)⟩

/-- Every run in time keeps an entry in range. -/
theorem in_range_run (id : T) (inserted : Option Instant) (now : Instant)
    (actor : SchedulerActor T) (inputs : List (Input T)) (inRange : InRange id inserted now actor)
    (started : ∀ input ∈ inputs, now ≤ input.nowAt id) (clocked : Clocked id inputs) :
    (actor.run inputs).EntrySatisfies id fun activity =>
      ∃ start, insertedAt id actor inserted inputs = some start ∧
        start + activity.durationDelta ≤ activity.lastTick := by
  induction inputs generalizing actor inserted now with
  | nil =>
    intro activity present
    obtain ⟨start, same, counted, _⟩ := inRange activity present
    exact ⟨start, same, counted⟩
  | cons input rest inductionHypothesis =>
    obtain ⟨restLater, restClocked⟩ := (Runs.clocked_cons input rest).mp clocked
    have inRangeAfter := in_range_step id inserted now actor input inRange
      (started input List.mem_cons_self)
    exact inductionHypothesis _ (input.nowAt id) (actor.step input) inRangeAfter restLater restClocked

/-- In every run in time, an entry has accumulated no more than the time from its
insertion to its latest tick. -/
theorem accumulated_in_range (id : T) (inputs : List (Input T)) (clocked : Clocked id inputs) :
    (empty.run inputs).EntrySatisfies id fun activity =>
      ∃ start, insertedAt id empty none inputs = some start ∧
        start + activity.durationDelta ≤ activity.lastTick :=
  in_range_run id none 0 empty inputs (empty_satisfies id _) (fun _ _ => Nat.zero_le _) clocked

/-- The difference of any two readings of an id is a span. -/
def SpansReadings (inputs : List (Input T)) : Prop :=
  ∀ id, ∀ earlier ∈ inputs, ∀ later ∈ inputs,
    (later.nowAt id).saturatingDurationSince (earlier.nowAt id) ≤ Duration.max

/-- After a run in time, the sum that a later tick makes is no more than the time
since the insertion, so a span. -/
theorem next_tick_fits (front : List (Input T)) (input : Input T)
    (clocked : ∀ id, Clocked id (front ++ [input])) (spans : SpansReadings (front ++ [input]))
    (id : T) :
    (empty.run front).EntrySatisfies id fun activity =>
      activity.durationDelta + (input.nowAt id - activity.lastTick) ≤ Duration.max := by
  intro activity present
  obtain ⟨frontClocked, _, inTime⟩ := (Runs.clocked_append front [input]).mp (clocked id)
  obtain ⟨start, inserted, counted⟩ := accumulated_in_range id front frontClocked activity present
  have ticked : activity.lastTick ≤ input.nowAt id :=
    last_tick_le id front _ (fun earlier member => inTime earlier member input
      (List.mem_singleton.mpr rfl)) activity present
  -- the insertion is one of the readings of the run
  obtain ⟨insertion, member, rfl⟩ := (inserted_at_mem id _ _ front start inserted).resolve_left
    (by simp)
  have spanned := spans id insertion (List.mem_append_left _ member) input (by simp)
  have sum : insertion.nowAt id +
      (activity.durationDelta + (input.nowAt id - activity.lastTick)) ≤ input.nowAt id := by
    calc insertion.nowAt id + (activity.durationDelta + (input.nowAt id - activity.lastTick))
        = insertion.nowAt id + activity.durationDelta + (input.nowAt id - activity.lastTick) :=
          (Nat.add_assoc _ _ _).symm
      _ ≤ activity.lastTick + (input.nowAt id - activity.lastTick) := Nat.add_le_add_right counted _
      _ = input.nowAt id := Nat.add_sub_cancel' ticked
  exact (Nat.le_sub_of_add_le (Nat.add_comm _ _ ▸ sum)).trans spanned

/-- The accumulator cannot overflow. In every run in time an entry has accumulated
no more than the time from its insertion to its latest tick; so if the differences
of the readings are spans, no addition of a tick panics, and the actor with the
panic ends where the total one does. -/
theorem accumulator_never_overflows (inputs : List (Input T)) (clocked : ∀ id, Clocked id inputs) :
    (∀ id, (empty.run inputs).EntrySatisfies id fun activity =>
        ∃ start, insertedAt id empty none inputs = some start ∧
          start + activity.durationDelta ≤ activity.lastTick) ∧
      (SpansReadings inputs → empty.runOrOverflow inputs = .ok (empty.run inputs)) := by
  refine ⟨fun id => accumulated_in_range id inputs (clocked id), ?_⟩
  intro spans
  induction inputs using List.reverseRecOn with
  | nil => rfl
  | append_singleton front input inductionHypothesis =>
    have frontClocked : ∀ id, Clocked id front := fun id =>
      ((Runs.clocked_append front [input]).mp (clocked id)).1
    have frontSpans : SpansReadings front := fun id earlier inFront later inFront' =>
      spans id earlier (List.mem_append_left _ inFront) later (List.mem_append_left _ inFront')
    have processed := inductionHypothesis frontClocked frontSpans
    have fits := next_tick_fits front input clocked spans
    have here := step_or_overflow_ok (empty.run front) input fits
    rw [runOrOverflow] at processed ⊢
    rw [List.foldlM_append, processed, run_append]
    simp only [List.foldlM_cons, List.foldlM_nil]
    change (empty.run front).stepOrOverflow input >>= pure = _
    rw [bind_pure, here]
    rfl

/-- An interval that is paused between two ticks, snoozed, and ticked again. -/
def pausedAndSnoozed : List (Input Nat) :=
  [⟨.register ⟨1, .fixedInterval 100⟩, fun _ => .least 7 7⟩, ⟨.tick, fun _ => .least 20 20⟩,
    ⟨.setEnabled 1 false, fun _ => .least 30 30⟩, ⟨.tick, fun _ => .least 40 40⟩,
    ⟨.finish 1 (.snooze 50), fun _ => .least 45 45⟩, ⟨.tick, fun _ => .least 60 60⟩]

/-- No tick of it panics. -/
theorem paused_and_snoozed_in_range :
    empty.runOrOverflow pausedAndSnoozed = .ok (empty.run pausedAndSnoozed) := by
  refine (accumulator_never_overflows pausedAndSnoozed ?_).2 ?_
  · intro id
    simp [pausedAndSnoozed, Input.nowAt, Reading.least]
  · intro id earlier _ later member
    have early : later.nowAt id ≤ 60 := by
      simp only [pausedAndSnoozed, List.mem_cons, List.not_mem_nil, or_false] at member
      rcases member with rfl | rfl | rfl | rfl | rfl | rfl <;> exact Nat.le_of_ble_eq_true rfl
    have small : 60 ≤ Duration.max := by decide
    exact (Nat.sub_le _ _).trans (early.trans small)

end SchedulerActor

end Ritualist
