import Ritualist.ActivitySpec

/-!
# One activity and its transitions

An activity carries its specification, its state, the time accumulated towards
its target, and the target. Disabling wraps the state it interrupts, so that
enabling restores it. Completion and collection are states of their own, which
the scheduler removes in the command that produces them.

Each operation is the source's method with the clock's answer as an argument.
After each stand the laws the other modules use instead of its definition.
-/

namespace Ritualist

universe u

inductive ActivityState where
  | idle
  | running
  | snoozed (duration : Duration)
  | disabled (prevState : ActivityState)
  | completed
  | gc
  deriving DecidableEq, Repr

namespace ActivityState

/-- Only a waiting activity accumulates time. -/
def isScheduled : ActivityState → Bool
  | .idle => true
  | .snoozed _ => true
  | _ => false

def isSnoozed : ActivityState → Bool
  | .snoozed _ => true
  | _ => false

def isDisabled : ActivityState → Bool
  | .disabled _ => true
  | _ => false

/-- The state under the wrapper that disabling puts around it. -/
def stripped : ActivityState → ActivityState
  | .disabled prevState => prevState
  | state => state

@[simp] theorem scheduled_iff (state : ActivityState) :
    state.isScheduled = true ↔ state = .idle ∨ ∃ duration, state = .snoozed duration := by
  cases state <;> simp [isScheduled]

@[simp] theorem disabled_iff (state : ActivityState) :
    state.isDisabled = true ↔ ∃ prevState, state = .disabled prevState := by
  cases state <;> simp [isDisabled]

/-- A state that is not wrapped is its own stripped state. -/
theorem stripped_enabled (state : ActivityState) (enabled : state.isDisabled = false) :
    state.stripped = state := by
  cases state with
  | disabled prevState => simp [isDisabled] at enabled
  | _ => rfl

/-- A waiting state is not wrapped. -/
theorem scheduled_enabled (state : ActivityState) (waiting : state.isScheduled = true) :
    state.isDisabled = false := by
  cases state with
  | disabled prevState => simp [isScheduled] at waiting
  | _ => rfl

/-- The states an activity has between commands: idle, running or snoozed, or
one of these wrapped once. -/
def Settled (state : ActivityState) : Prop :=
  state.stripped = .idle ∨ state.stripped = .running ∨ ∃ duration, state.stripped = .snoozed duration

/-- The state under the wrapper of a settled state is never itself wrapped. -/
theorem Settled.bare {state : ActivityState} (settled : state.Settled) :
    state.stripped.isDisabled = false := by
  rcases settled with idle | running | ⟨duration, snoozed⟩
  · rw [idle]; rfl
  · rw [running]; rfl
  · rw [snoozed]; rfl

/-- A settled activity is neither completed nor marked for collection. -/
theorem Settled.present {state : ActivityState} (settled : state.Settled) :
    state ≠ .completed ∧ state ≠ .gc := by
  rcases settled with bare | bare | ⟨duration, bare⟩ <;>
    constructor <;> rintro rfl <;> cases bare

/-- A waiting state is a settled one. -/
theorem scheduled_settled (state : ActivityState) (waiting : state.isScheduled = true) :
    state.Settled := by
  rcases (scheduled_iff state).mp waiting with idle | ⟨duration, snoozed⟩
  · exact Or.inl (by rw [idle]; rfl)
  · exact Or.inr (Or.inr ⟨duration, by rw [snoozed]; rfl⟩)

/-- A run in flight does not wait, wrapped or not. -/
theorem in_flight_not_scheduled (state : ActivityState) (running : state.stripped = .running) :
    state.isScheduled = false := by
  cases state with
  | idle => cases running
  | snoozed duration => cases running
  | _ => rfl

end ActivityState

/-- The consumer's answer to a run. -/
inductive AckMessage where
  | done
  | snooze (duration : Duration)
  deriving DecidableEq, Repr

/-- A tracked activity. The source's clock handle is the reading argument of
the operations that consult it. -/
structure Activity (T : Type u) where
  spec : ActivitySpec T
  state : ActivityState
  /-- Time accumulated towards a span target. -/
  durationDelta : Duration
  activationTarget : ActivationTarget
  /-- The monotonic reading of the last tick, or of the creation. -/
  lastTick : Instant
  lastRunAt : Option DateTime
  createdAt : DateTime
  deriving DecidableEq, Repr

namespace Activity

variable {T : Type u}

/-- Create an idle activity at the reading's time. -/
def new (spec : ActivitySpec T) (reading : Reading) : Activity T where
  spec := spec
  state := .idle
  durationDelta := 0
  activationTarget := .fromSchedule reading.rng spec.schedule
  lastTick := reading.now
  lastRunAt := none
  createdAt := reading.nowUtc

/-- The activity has accumulated its target span, or its target date has come. -/
def isAtTarget (activity : Activity T) (reading : Reading) : Bool :=
  match activity.activationTarget with
  | .duration durationTarget => decide (activity.durationDelta ≥ durationTarget)
  | .date targetDate => decide (reading.nowUtc ≥ targetDate)

/-- Mark a disabled one-shot that has reached its target for collection. -/
def tryGcMark (activity : Activity T) (reading : Reading) : Activity T :=
  if activity.spec.schedule.isOneShot && activity.state.isDisabled && activity.isAtTarget reading
  then { activity with state := .gc }
  else activity

/-- Move the tick instant to the reading, count the time since the previous one
if the activity is waiting now, and try to mark it for collection. -/
def tick (activity : Activity T) (reading : Reading) : Activity T :=
  let now := reading.now
  let tickDelta := now.saturatingDurationSince activity.lastTick
  let moved := { activity with lastTick := now }
  let counted :=
    if moved.state.isScheduled
    then { moved with durationDelta := moved.durationDelta + tickDelta }
    else moved
  counted.tryGcMark reading

/-- The activity is waiting and at its target. -/
def shouldRun (activity : Activity T) (reading : Reading) : Bool :=
  if activity.state ≠ .idle && !activity.state.isSnoozed then false
  else activity.isAtTarget reading

/-- Start a due activity and return its id; leave any other as it is. -/
def claimIfDue (activity : Activity T) (reading : Reading) : Activity T × Option T :=
  if activity.shouldRun reading
  then ({ activity with state := .running, durationDelta := 0 }, some activity.spec.id)
  else (activity, none)

/-- Wrap the state when disabling, and unwrap it when enabling; idempotent. -/
def setEnabled (activity : Activity T) (enabled : Bool) : Activity T :=
  if enabled then
    match activity.state with
    | .disabled prevState => { activity with state := prevState }
    | _ => activity
  else if activity.state.isDisabled then activity
  else { activity with state := .disabled activity.state }

/-- Make the target immediate, keeping its kind. -/
def setImmediate (activity : Activity T) (reading : Reading) : Activity T :=
  match activity.activationTarget with
  | .duration _ => { activity with activationTarget := .duration 0 }
  | .date _ => { activity with activationTarget := .date reading.nowUtc }

/-- Apply an acknowledgement. Whatever the state was, it becomes the state the
acknowledgement asks for; a one-shot that is not snoozed is completed. -/
def finish (activity : Activity T) (ack : AckMessage) (reading : Reading) : Activity T :=
  let (nextState, durationTarget) := match ack with
    | .snooze duration => (ActivityState.snoozed duration, ActivationTarget.duration duration)
    | .done => (.idle, .fromSchedule reading.rng activity.spec.schedule)
  if activity.spec.schedule.isOneShot && !nextState.isSnoozed
  then { activity with state := .completed }
  else
    { activity with
      lastRunAt := some reading.nowUtc
      activationTarget := durationTarget
      durationDelta := 0
      state := nextState }

/-- The activity is a disabled one-shot at its target, which a tick collects. -/
def isCollectable (activity : Activity T) (reading : Reading) : Bool :=
  activity.spec.schedule.isOneShot && activity.state.isDisabled && activity.isAtTarget reading

@[simp] theorem new_spec (spec : ActivitySpec T) (reading : Reading) :
    (new spec reading).spec = spec := rfl

@[simp] theorem new_state (spec : ActivitySpec T) (reading : Reading) :
    (new spec reading).state = .idle := rfl

/-- What a tick does: the instant moves, waiting time is counted, and a
collectable activity is marked. A disabled activity counts nothing, so its
target is tested with the time it had. -/
theorem tick_eq (activity : Activity T) (reading : Reading) :
    activity.tick reading =
      { activity with
        lastTick := reading.now
        durationDelta := if activity.state.isScheduled
          then activity.durationDelta + (reading.now - activity.lastTick)
          else activity.durationDelta
        state := if activity.isCollectable reading then .gc else activity.state } := by
  by_cases waiting : activity.state.isScheduled = true
  · have enabled : activity.state.isDisabled = false :=
      ActivityState.scheduled_enabled activity.state waiting
    simp [tick, tryGcMark, isCollectable, waiting, enabled, Instant.saturatingDurationSince]
  · have uncounted : activity.tick reading =
        ({ activity with lastTick := reading.now } : Activity T).tryGcMark reading := by
      simp only [tick, waiting, Bool.false_eq_true, if_false]
    have sameTest : ({ activity with lastTick := reading.now } : Activity T).tryGcMark reading =
        if activity.isCollectable reading
        then { activity with lastTick := reading.now, state := .gc }
        else { activity with lastTick := reading.now } := rfl
    rw [uncounted, sameTest]
    by_cases collectable : activity.isCollectable reading = true <;>
      simp [waiting, collectable]

/-- A tick counts the time since the last one for a waiting activity, and does
nothing else to it. -/
theorem tick_waiting (activity : Activity T) (reading : Reading)
    (waiting : activity.state.isScheduled = true) :
    activity.tick reading =
      { activity with
        lastTick := reading.now
        durationDelta := activity.durationDelta + (reading.now - activity.lastTick) } := by
  have uncollected : activity.isCollectable reading = false := by
    simp [isCollectable, ActivityState.scheduled_enabled activity.state waiting]
  simp [tick_eq, waiting, uncollected]

@[simp] theorem tick_spec (activity : Activity T) (reading : Reading) :
    (activity.tick reading).spec = activity.spec := by rw [tick_eq]

@[simp] theorem tick_target (activity : Activity T) (reading : Reading) :
    (activity.tick reading).activationTarget = activity.activationTarget := by rw [tick_eq]

@[simp] theorem tick_last_tick (activity : Activity T) (reading : Reading) :
    (activity.tick reading).lastTick = reading.now := by rw [tick_eq]

/-- A tick that does not collect leaves the state as it was. -/
theorem tick_state_of_survives (activity : Activity T) (reading : Reading)
    (survives : (activity.tick reading).state ≠ .gc) :
    (activity.tick reading).state = activity.state := by
  rw [tick_eq] at survives ⊢
  by_cases collectable : activity.isCollectable reading = true
  · simp [collectable] at survives
  · simp [collectable]

/-- A tick marks a settled activity exactly when it is collectable. -/
theorem tick_collects_iff (activity : Activity T) (reading : Reading)
    (settled : activity.state.Settled) :
    (activity.tick reading).state = .gc ↔ activity.isCollectable reading = true := by
  rw [tick_eq]
  by_cases collectable : activity.isCollectable reading = true
  · simp [collectable]
  · simpa [collectable] using settled.present.2

/-- A claim starts exactly a waiting activity at its target. -/
theorem should_run_iff (activity : Activity T) (reading : Reading) :
    activity.shouldRun reading = true ↔
      activity.state.isScheduled = true ∧ activity.isAtTarget reading = true := by
  unfold shouldRun
  cases activity.state <;> simp [ActivityState.isScheduled, ActivityState.isSnoozed]

/-- A disabled activity is not started, whatever its target. -/
theorem should_run_disabled (activity : Activity T) (reading : Reading)
    (disabled : activity.state.isDisabled = true) : activity.shouldRun reading = false := by
  obtain ⟨prevState, wrapped⟩ := (ActivityState.disabled_iff activity.state).mp disabled
  simp [shouldRun, wrapped, ActivityState.isSnoozed]

/-- A claim reports nothing but the activity's own id, and only when it is due. -/
theorem claim_reports_iff (activity : Activity T) (reading : Reading) (id : T) :
    (activity.claimIfDue reading).2 = some id ↔
      activity.shouldRun reading = true ∧ activity.spec.id = id := by
  unfold claimIfDue
  split <;> simp_all

/-- A claim starts a due activity and leaves any other as it is. -/
theorem claim_eq (activity : Activity T) (reading : Reading) :
    (activity.claimIfDue reading).1 =
      if activity.shouldRun reading
      then { activity with state := .running, durationDelta := 0 }
      else activity := by
  unfold claimIfDue
  split <;> rfl

/-- Enabling or disabling changes the state alone. -/
theorem set_enabled_eq (activity : Activity T) (enabled : Bool) :
    activity.setEnabled enabled =
      { activity with state :=
          if enabled then activity.state.stripped
          else if activity.state.isDisabled then activity.state
          else .disabled activity.state } := by
  obtain ⟨spec, state, delta, target, lastTick, lastRunAt, createdAt⟩ := activity
  cases enabled <;> cases state <;> rfl

/-- Whatever its state, an activity that is disabled is disabled after. -/
theorem set_enabled_false (activity : Activity T) :
    (activity.setEnabled false).state.isDisabled = true := by
  rw [set_enabled_eq]
  cases activity.state <;> rfl

/-- Disabling and enabling keep the stripped state of an activity that is not
wrapped twice. -/
theorem set_enabled_stripped (activity : Activity T) (enabled : Bool)
    (once : activity.state.stripped.isDisabled = false) :
    (activity.setEnabled enabled).state.stripped = activity.state.stripped := by
  rw [set_enabled_eq]
  cases enabled with
  | true => simpa using ActivityState.stripped_enabled _ once
  | false => cases activity.state <;> rfl

/-- Afterwards an activity that was not wrapped twice is disabled or enabled as
it was told. -/
theorem set_enabled_disabled (activity : Activity T) (enabled : Bool)
    (once : activity.state.stripped.isDisabled = false) :
    (activity.setEnabled enabled).state.isDisabled = !enabled := by
  cases enabled with
  | true => rw [set_enabled_eq]; exact once
  | false => exact activity.set_enabled_false

/-- An immediate target keeps its kind, and nothing else changes. -/
theorem set_immediate_eq (activity : Activity T) (reading : Reading) :
    activity.setImmediate reading =
      { activity with activationTarget := match activity.activationTarget with
          | .duration _ => .duration 0
          | .date _ => .date reading.nowUtc } := by
  unfold setImmediate
  split <;> simp_all

/-- Snoozing restarts any activity with the snooze as its target. -/
theorem finish_snooze (activity : Activity T) (duration : Duration) (reading : Reading) :
    activity.finish (.snooze duration) reading =
      { activity with
        lastRunAt := some reading.nowUtc
        activationTarget := .duration duration
        durationDelta := 0
        state := .snoozed duration } := by
  simp [finish, ActivityState.isSnoozed]

/-- Finishing completes a one-shot, and restarts any other activity with a
target drawn from its schedule. -/
theorem finish_done (activity : Activity T) (reading : Reading) :
    activity.finish .done reading =
      if activity.spec.schedule.isOneShot then { activity with state := .completed }
      else
        { activity with
          lastRunAt := some reading.nowUtc
          activationTarget := .fromSchedule reading.rng activity.spec.schedule
          durationDelta := 0
          state := .idle } := by
  simp [finish, ActivityState.isSnoozed]

end Activity

end Ritualist
