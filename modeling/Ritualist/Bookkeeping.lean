import Ritualist.Timetable
import Ritualist.Timing

/-!
# The scheduler keeps a timetable

An activity accumulates time from tick to tick while it waits. What it has accumulated,
taken from the tick instant, is the instant from which its alarm waits: a tick adds to
both alike and leaves that instant where it is. An activity that is disabled keeps what
it has accumulated, which is the time its alarm has waited.

So every command does to the activities what it does to the alarms, `timetable_step`,
if no clock goes back. After any commands the scheduler reports, accepts and refuses
what the timetable does: `scheduler_keeps_timetable`.
-/

namespace Ritualist

universe u
variable {T : Type u}

/-- What an activity does, as an alarm. -/
def Activity.alarm (activity : Activity T) : Alarm where
  schedule := activity.spec.schedule
  target := activity.activationTarget
  mode := match activity.state with
    | .disabled prevState =>
      if prevState.isScheduled then .paused activity.durationDelta else .outPaused
    | .running => .out
    | _ => .waiting (activity.lastTick - activity.durationDelta)
  clock := activity.lastTick

/-- What the bookkeeping of an activity keeps. -/
structure Activity.Kept (activity : Activity T) : Prop where
  settled : activity.state.Settled
  /-- No more time is accumulated than there was. -/
  counted : activity.durationDelta ≤ activity.lastTick
  running : activity.state.stripped = .running → activity.durationDelta = 0

/-- What is counted does not move the beginning of a wait. -/
theorem since_kept {delta lastTick now : Nat} (counted : delta ≤ lastTick)
    (inTime : lastTick ≤ now) : now - (delta + (now - lastTick)) = lastTick - delta := by
  omega

namespace Activity

section Views

variable {activity : Activity T} (kept : activity.Kept)
include kept

/-- The four modes of an activity. -/
theorem alarm_modes :
    (activity.state.isScheduled = true ∧
        activity.alarm.mode = .waiting (activity.lastTick - activity.durationDelta)) ∨
      (activity.state = .running ∧ activity.alarm.mode = .out) ∨
      (∃ prevState, activity.state = .disabled prevState ∧ prevState.isScheduled = true ∧
        activity.alarm.mode = .paused activity.durationDelta) ∨
      (activity.state = .disabled .running ∧ activity.alarm.mode = .outPaused) := by
  have settled := kept.settled
  unfold ActivityState.Settled at settled
  unfold alarm
  cases state : activity.state with
  | idle => exact Or.inl ⟨rfl, rfl⟩
  | snoozed span => exact Or.inl ⟨rfl, rfl⟩
  | running => exact Or.inr (Or.inl ⟨rfl, rfl⟩)
  | completed | gc => simp [state, ActivityState.stripped] at settled
  | disabled prevState =>
    simp only [state, ActivityState.stripped] at settled
    rcases settled with rfl | rfl | ⟨span, rfl⟩
    · exact Or.inr (Or.inr (Or.inl ⟨_, rfl, rfl, rfl⟩))
    · exact Or.inr (Or.inr (Or.inr ⟨rfl, rfl⟩))
    · exact Or.inr (Or.inr (Or.inl ⟨_, rfl, rfl, rfl⟩))

/-- The alarm has waited what the activity has accumulated. -/
theorem alarm_waited : activity.alarm.waited = activity.durationDelta := by
  unfold Alarm.waited
  rcases alarm_modes kept with ⟨_, mode⟩ | ⟨running, mode⟩ | ⟨_, _, _, mode⟩ | ⟨running, mode⟩
  · rw [mode]
    exact Nat.sub_sub_self kept.counted
  · rw [mode]
    exact (kept.running (by rw [running]; rfl)).symm
  · rw [mode]
  · rw [mode]
    exact (kept.running (by rw [running]; rfl)).symm

/-- The alarm's time has come when the activity is at its target. -/
theorem alarm_has_come (reading : Reading) :
    activity.alarm.hasCome reading = activity.isAtTarget reading := by
  unfold Alarm.hasCome isAtTarget
  rw [alarm_waited kept]
  rfl

theorem alarm_is_waiting : activity.alarm.isWaiting = activity.state.isScheduled := by
  unfold Alarm.isWaiting
  rcases alarm_modes kept with
    ⟨waiting, mode⟩ | ⟨running, mode⟩ | ⟨_, disabled, _, mode⟩ | ⟨disabled, mode⟩
  · rw [mode, waiting]
  · rw [mode, running]
    rfl
  · rw [mode, disabled]
    rfl
  · rw [mode, disabled]
    rfl

theorem alarm_is_paused : activity.alarm.isPaused = activity.state.isDisabled := by
  unfold Alarm.isPaused
  rcases alarm_modes kept with
    ⟨waiting, mode⟩ | ⟨running, mode⟩ | ⟨_, disabled, _, mode⟩ | ⟨disabled, mode⟩
  · rw [mode, ActivityState.scheduled_enabled _ waiting]
  · rw [mode, running]
    rfl
  · rw [mode, disabled]
    rfl
  · rw [mode, disabled]
    rfl

/-- The alarm rings when the activity is due. -/
theorem alarm_rings (reading : Reading) :
    activity.alarm.rings reading = activity.shouldRun reading := by
  rw [Alarm.rings, alarm_is_waiting kept, alarm_has_come kept, Bool.eq_iff_iff,
    activity.should_run_iff, Bool.and_eq_true]

/-- The alarm is taken off by a tick when the activity is collected. -/
theorem alarm_collected (reading : Reading) :
    (activity.alarm.schedule.isOneShot && activity.alarm.isPaused &&
      activity.alarm.hasCome reading) = activity.isCollectable reading := by
  rw [alarm_is_paused kept, alarm_has_come kept]
  rfl

/-- A tick counts what the tick clock has moved. -/
theorem alarm_tick (reading : Reading) (inTime : activity.lastTick ≤ reading.now) :
    (if (activity.tick reading).state ≠ .gc then some (activity.tick reading) else none).map alarm =
      activity.alarm.tick reading := by
  unfold Alarm.tick
  rw [alarm_collected kept]
  by_cases collectable : activity.isCollectable reading = true
  · have collected := (activity.tick_collects_iff reading kept.settled).mpr collectable
    simp [collected, collectable]
  · have survives : (activity.tick reading).state ≠ .gc := fun collected =>
      collectable ((activity.tick_collects_iff reading kept.settled).mp collected)
    rw [if_pos survives, if_neg collectable, Option.map_some]
    congr 1
    rw [tick_eq]
    have since := since_kept kept.counted inTime
    have settled := kept.settled
    cases state : activity.state with
    | idle | snoozed span => simp [alarm, collectable, state, ActivityState.isScheduled, since]
    | running => simp [alarm, collectable, state]
    | disabled prevState =>
      have unscheduled : (ActivityState.disabled prevState).isScheduled = false := rfl
      simp [alarm, collectable, state, unscheduled]
    | completed | gc => simp [state, ActivityState.Settled, ActivityState.stripped] at settled

/-- Enabling and disabling turn the alarm. -/
theorem alarm_turn (enabled : Bool) :
    (activity.setEnabled enabled).alarm = activity.alarm.turn enabled := by
  rw [set_enabled_eq]
  have counted : activity.lastTick - (activity.lastTick - activity.durationDelta) =
      activity.durationDelta := Nat.sub_sub_self kept.counted
  have settled := kept.settled
  unfold ActivityState.Settled at settled
  cases enabled with
  | false =>
    cases state : activity.state with
    | idle | snoozed span =>
      simp [alarm, Alarm.turn, state, ActivityState.isDisabled, ActivityState.isScheduled, counted]
    | running =>
      simp [alarm, Alarm.turn, state, ActivityState.isDisabled, ActivityState.isScheduled]
    | disabled prevState =>
      by_cases scheduled : prevState.isScheduled = true <;>
        simp [alarm, Alarm.turn, state, ActivityState.isDisabled, scheduled]
    | completed | gc => simp [state, ActivityState.stripped] at settled
  | true =>
    cases state : activity.state with
    | disabled prevState =>
      simp only [state, ActivityState.stripped] at settled
      rcases settled with rfl | rfl | ⟨span, rfl⟩ <;>
        simp [alarm, Alarm.turn, state, ActivityState.stripped, ActivityState.isScheduled]
    | completed | gc => simp [state, ActivityState.stripped] at settled
    | _ => simp [alarm, Alarm.turn, state, ActivityState.stripped]

/-- A claim takes the alarm out. -/
theorem alarm_ring (reading : Reading) :
    (activity.claimIfDue reading).1.alarm = activity.alarm.ring reading := by
  unfold Alarm.ring
  rw [claim_eq, alarm_rings kept]
  by_cases due : activity.shouldRun reading = true
  · rw [if_pos due, if_pos due]
    rfl
  · rw [if_neg due, if_neg due]

omit kept in
/-- A dispatch hastens the alarm. -/
theorem alarm_hasten (reading : Reading) :
    (activity.setImmediate reading).alarm = activity.alarm.hasten reading := by
  rw [set_immediate_eq]
  cases target : activity.activationTarget <;> simp [alarm, Alarm.hasten, target]

omit kept in
/-- An acknowledgement answers the alarm. -/
theorem alarm_answer (ack : AckMessage) (reading : Reading) :
    (if (activity.finish ack reading).state = .completed then none
        else some (activity.finish ack reading)).map alarm = activity.alarm.answer ack reading := by
  cases ack with
  | snooze span => simp [finish_snooze, alarm, Alarm.answer]
  | done =>
    rw [finish_done]
    by_cases oneShot : activity.spec.schedule.isOneShot = true <;>
      simp [oneShot, alarm, Alarm.answer]

omit kept in
/-- A new activity has its alarm set. -/
theorem alarm_new (spec : ActivitySpec T) (reading : Reading) :
    (new spec reading).alarm = .set spec.schedule reading := rfl

end Views

/-- A new activity is kept. -/
theorem new_kept (spec : ActivitySpec T) (reading : Reading) : (new spec reading).Kept where
  settled := Or.inl rfl
  counted := Nat.zero_le _
  running := fun running => by cases running

end Activity

/-- Every move keeps an activity, if its tick is not read before the last one. -/
theorem Event.Moves.kept {event : Event T} {reading : Reading} {before after : Activity T}
    (move : event.Moves reading before after) (inTime : before.lastTick ≤ reading.now)
    (kept : before.Kept) : after.Kept where
  settled := move.settled kept.settled
  counted := by
    have accumulated := (move.accumulates 0 (by simpa using kept.counted) inTime).1
    simpa using accumulated
  running := by
    intro running
    cases move with
    | tick _ survives =>
      rw [before.tick_state_of_survives reading survives] at running
      rw [Activity.tick_eq]
      simp only [ActivityState.in_flight_not_scheduled _ running, Bool.false_eq_true, if_false]
      exact kept.running running
    | setEnabled _ enabled =>
      rw [before.set_enabled_stripped enabled kept.settled.bare] at running
      rw [Activity.set_enabled_eq]
      exact kept.running running
    | claimDue =>
      rw [Activity.claim_eq] at running ⊢
      by_cases due : before.shouldRun reading = true
      · rw [if_pos due]
      · rw [if_neg due] at running ⊢
        exact kept.running running
    | setImmediate =>
      rw [Activity.set_immediate_eq] at running ⊢
      exact kept.running running
    | finish _ ack remains =>
      cases ack with
      | snooze span => rw [Activity.finish_snooze]
      | done =>
        rw [Activity.finish_done] at remains ⊢
        by_cases oneShot : before.spec.schedule.isOneShot = true
        · simp [oneShot] at remains
        · rw [if_neg oneShot]
    | skip => exact kept.running running

namespace SchedulerActor

variable [DecidableEq T]

/-- The timetable that an actor keeps. -/
def timetable (actor : SchedulerActor T) : Timetable T :=
  fun id => (actor.activities.lookup id).map Activity.alarm

/-- Every activity is kept, and was ticked before some readings. -/
def KeptUntil (actor : SchedulerActor T) (now : T → Instant) : Prop :=
  ∀ id, actor.EntrySatisfies id fun activity => activity.Kept ∧ activity.lastTick ≤ now id

/-- An id has an alarm exactly when it has an activity. -/
theorem timetable_present (actor : SchedulerActor T) (id : T) :
    (actor.timetable id).isSome = true ↔ id ∈ actor.activities := by
  rw [timetable, Option.isSome_map, AList.lookup_isSome]

/-- An insertion sets an alarm. -/
theorem timetable_insert (activities : Table T (Activity T)) (spec : ActivitySpec T)
    (readings : T → Reading) :
    timetable ⟨activities.insert spec.id (.new spec (readings spec.id))⟩ =
      (timetable ⟨activities⟩).set spec readings := by
  funext id
  by_cases same : id = spec.id
  · subst same
    simp [timetable, Timetable.set, Activity.alarm_new]
  · simp [timetable, Timetable.set, same]

/-- A batch registration sets alarms up to the first refusal, and tells the same. -/
theorem timetable_register_each (readings : T → Reading) (activities : Table T (Activity T))
    (specs : List (ActivitySpec T)) :
    (timetable ⟨(registerEach readings activities specs).1⟩,
        (registerEach readings activities specs).2) =
      Timetable.registerEach readings (timetable ⟨activities⟩) specs := by
  induction specs generalizing activities with
  | nil => rfl
  | cons spec rest inductionHypothesis =>
    have present := timetable_present ⟨activities⟩ spec.id
    by_cases taken : spec.id ∈ activities
    · rw [registerEach, if_pos taken, Timetable.registerEach, if_pos (present.mpr taken)]
    · rw [registerEach, if_neg taken, Timetable.registerEach,
        if_neg fun some => taken (present.mp some), ← timetable_insert, ← inductionHypothesis]

/-- A batch reset sets all its alarms. -/
theorem timetable_reset_each (readings : T → Reading) (activities : Table T (Activity T))
    (specs : List (ActivitySpec T)) :
    timetable ⟨resetEach readings activities specs⟩ =
      specs.foldl (fun reached spec => reached.set spec readings) (timetable ⟨activities⟩) := by
  induction specs generalizing activities with
  | nil => rfl
  | cons spec rest inductionHypothesis =>
    rw [List.foldl_cons, ← timetable_insert, ← inductionHypothesis]
    rfl

/-- A command does to the timetable what it does to the activities. -/
theorem timetable_step (actor : SchedulerActor T) (input : Input T)
    (kept : actor.KeptUntil fun id => input.nowAt id) :
    (actor.step input).timetable = actor.timetable.apply input := by
  obtain ⟨command, readings⟩ := input
  cases command with
  | register spec =>
    have present := timetable_present actor spec.id
    by_cases taken : spec.id ∈ actor.activities
    · simp only [step, send, if_pos taken, Timetable.apply, present.mpr taken, if_true]
    · have free : ¬ (actor.timetable spec.id).isSome = true := fun some => taken (present.mp some)
      simp only [step, send, if_neg taken, Timetable.apply, if_neg free]
      exact timetable_insert actor.activities spec readings
  | registerMany specs =>
    exact congrArg Prod.fst (timetable_register_each readings actor.activities specs)
  | reset spec => exact timetable_insert actor.activities spec readings
  | resetMany specs => exact timetable_reset_each readings actor.activities specs
  | snapshot => rfl
  | tick =>
    funext id
    simp only [timetable, lookup_step, eventAt, Event.advance, Timetable.apply]
    cases entry : actor.activities.lookup id with
    | none => rfl
    | some activity =>
      obtain ⟨keeps, inTime⟩ := kept id activity entry
      exact Activity.alarm_tick keeps (readings id) inTime
  | claimDue =>
    funext id
    simp only [timetable, lookup_step, eventAt, Event.advance, Timetable.apply]
    cases entry : actor.activities.lookup id with
    | none => rfl
    | some activity =>
      exact congrArg some (Activity.alarm_ring (kept id activity entry).1 (readings id))
  | setEnabled target enabled =>
    funext id
    simp only [timetable, lookup_step, eventAt, Timetable.apply]
    by_cases same : target = id
    · subst same
      rw [if_pos rfl, Function.update_self]
      cases entry : actor.activities.lookup target with
      | none => rfl
      | some activity =>
        exact congrArg some (Activity.alarm_turn (kept target activity entry).1 enabled)
    · rw [if_neg same, Function.update_of_ne (Ne.symm same)]
      rfl
  | setImmediate target =>
    funext id
    simp only [timetable, lookup_step, eventAt, Timetable.apply]
    by_cases same : target = id
    · subst same
      rw [if_pos rfl, Function.update_self]
      cases entry : actor.activities.lookup target with
      | none => rfl
      | some activity => exact congrArg some (Activity.alarm_hasten (readings target))
    · rw [if_neg same, Function.update_of_ne (Ne.symm same)]
      rfl
  | finish target ack =>
    funext id
    simp only [timetable, lookup_step, eventAt, Timetable.apply]
    by_cases same : target = id
    · subst same
      rw [if_pos rfl, Function.update_self]
      cases entry : actor.activities.lookup target with
      | none => rfl
      | some activity => exact Activity.alarm_answer ack (readings target)
    · rw [if_neg same, Function.update_of_ne (Ne.symm same)]
      rfl

/-- A command that is not read before the last tick keeps every activity. -/
theorem kept_step {actor : SchedulerActor T} {input : Input T}
    (kept : actor.KeptUntil fun id => input.nowAt id) :
    (actor.step input).KeptUntil fun id => input.nowAt id := by
  intro id
  refine entry_step (fun spec _ => ⟨Activity.new_kept spec _, le_rfl⟩) ?_ (kept id)
  rintro before after _ move ⟨keeps, inTime⟩
  refine ⟨move.kept inTime keeps, ?_⟩
  rcases move.last_tick with same | now
  · exact same ▸ inTime
  · exact now ▸ le_rfl

/-- Every run whose clocks never go back keeps every activity. -/
theorem kept_run (history : List (Input T)) (clocked : ∀ id, Clocked id history)
    (now : T → Instant) (later : ∀ id, ∀ input ∈ history, input.nowAt id ≤ now id) :
    (empty.run history : SchedulerActor T).KeptUntil now := by
  induction history using List.reverseRecOn generalizing now with
  | nil => exact fun id => empty_satisfies id _
  | append_singleton front input inductionHypothesis =>
    have frontClocked : ∀ id, Clocked id front := fun id =>
      ((Runs.clocked_append front [input]).mp (clocked id)).1
    have inOrder : ∀ id, ∀ earlier ∈ front, earlier.nowAt id ≤ input.nowAt id := fun id =>
      by simpa using ((Runs.clocked_append front [input]).mp (clocked id)).2.2
    rw [run_append, run_cons, run_nil]
    have stepped := kept_step (inductionHypothesis frontClocked _ inOrder)
    intro id activity present
    obtain ⟨keeps, inTime⟩ := stepped id activity present
    exact ⟨keeps, inTime.trans (later id input (by simp))⟩

/-- Every run whose clocks never go back leaves its activities kept. -/
theorem kept_entries (history : List (Input T)) (clocked : ∀ id, Clocked id history) (id : T) :
    (empty.run history : SchedulerActor T).EntrySatisfies id Activity.Kept := by
  rcases List.eq_nil_or_concat history with rfl | ⟨front, last, rfl⟩
  · exact empty_satisfies id _
  · rw [List.concat_eq_append] at clocked ⊢
    have inOrder : ∀ id, ∀ input ∈ front ++ [last], input.nowAt id ≤ last.nowAt id := by
      intro id input member
      rcases List.mem_append.mp member with earlier | same
      · exact ((Runs.clocked_append front [last]).mp (clocked id)).2.2 input earlier last (by simp)
      · obtain rfl := List.mem_singleton.mp same
        exact le_rfl
    intro activity present
    exact (kept_run _ clocked _ inOrder id activity present).1

/-- A claim reports the ids whose alarms ring. -/
theorem timetable_claimed_iff (actor : SchedulerActor T) (keyed : actor.Keyed)
    (kept : ∀ id, actor.EntrySatisfies id Activity.Kept) (input : Input T) (id : T) :
    id ∈ actor.claimed input ↔ actor.timetable.rings id input := by
  rw [mem_claimed_iff keyed]
  refine and_congr_right fun _ => ?_
  constructor
  · rintro ⟨activity, present, due⟩
    refine ⟨activity.alarm, by simp [timetable, present], ?_⟩
    rw [Activity.alarm_rings (kept id activity present)]
    exact due
  · rintro ⟨alarm, entry, rings⟩
    obtain ⟨activity, present, rfl⟩ := Option.map_eq_some_iff.mp entry
    exact ⟨activity, present, (Activity.alarm_rings (kept id activity present) _).symm.trans rings⟩

/-- A registration is told what the timetable says. -/
theorem timetable_verdict (actor : SchedulerActor T) (input : Input T) :
    WithScheduler.registration (actor.send input.command input.readings).2 =
      actor.timetable.verdict input := by
  obtain ⟨command, readings⟩ := input
  cases command with
  | register spec =>
    have present := timetable_present actor spec.id
    by_cases taken : spec.id ∈ actor.activities
    · simp [send, taken, Timetable.verdict, present.mpr taken, WithScheduler.registration]
    · have free : ¬ (actor.timetable spec.id).isSome = true := fun some => taken (present.mp some)
      simp only [send, if_neg taken, Timetable.verdict, if_neg free, WithScheduler.registration]
  | registerMany specs =>
    exact congrArg (fun outcome => some outcome.2)
      (timetable_register_each readings actor.activities specs)
  | finish target ack =>
    simp only [send]
    split
    · split <;> rfl
    · rfl
  | _ => rfl

/-- The scheduler keeps a timetable. After any commands whose clocks never go back the
activities are the alarms that the timetable has, with the time they accumulated from
tick to tick in place of the instant they wait from. And whatever command comes next, a
claim reports exactly the ids whose alarm rings, and a registration is accepted or
refused as the timetable says. -/
theorem scheduler_keeps_timetable (history : List (Input T)) (clocked : ∀ id, Clocked id history) :
    (empty.run history).timetable = history.foldl Timetable.apply Timetable.blank ∧
      ∀ input : Input T,
        (∀ id, id ∈ (empty.run history).claimed input ↔
          (history.foldl Timetable.apply Timetable.blank).rings id input) ∧
        WithScheduler.registration ((empty.run history).send input.command input.readings).2 =
          (history.foldl Timetable.apply Timetable.blank).verdict input := by
  have same : (empty.run history).timetable =
      history.foldl Timetable.apply Timetable.blank := by
    induction history using List.reverseRecOn with
    | nil => rfl
    | append_singleton front input inductionHypothesis =>
      have frontClocked : ∀ id, Clocked id front := fun id =>
        ((Runs.clocked_append front [input]).mp (clocked id)).1
      have inOrder : ∀ id, ∀ earlier ∈ front, earlier.nowAt id ≤ input.nowAt id := fun id =>
        by simpa using ((Runs.clocked_append front [input]).mp (clocked id)).2.2
      rw [run_append, run_cons, run_nil, List.foldl_append, ← inductionHypothesis frontClocked,
        timetable_step _ input (kept_run front frontClocked _ inOrder)]
      rfl
  rw [← same]
  refine ⟨rfl, fun input => ⟨fun id => ?_, timetable_verdict _ input⟩⟩
  exact timetable_claimed_iff _ (keyed_run history) (kept_entries history clocked) input id

/-- An interval of 10 that is registered at 0 and disabled from the tick at 4 to the
tick at 9. -/
def disabledFor5 : List (Input Nat) :=
  [⟨.register ⟨1, .fixedInterval 10⟩, fun _ => .least 0 0⟩, ⟨.tick, fun _ => .least 4 4⟩,
    ⟨.setEnabled 1 false, fun _ => .least 5 5⟩, ⟨.tick, fun _ => .least 9 9⟩,
    ⟨.setEnabled 1 true, fun _ => .least 9 9⟩, ⟨.tick, fun _ => .least 15 15⟩]

/-- Its alarm waits as if it had been set at 5, and rings after the tick at 15. -/
theorem disabled_alarm_rings :
    1 ∈ (empty.run disabledFor5).claimed ⟨.claimDue, fun _ => .least 15 15⟩ := by
  have clocked : ∀ id, Clocked id disabledFor5 := by
    simp [Clocked, Runs.Clocked, disabledFor5, Input.nowAt, Reading.least]
  have keeps := (scheduler_keeps_timetable disabledFor5 clocked).2
    ⟨.claimDue, fun _ => .least 15 15⟩
  exact (keeps.1 1).mpr ⟨rfl, ⟨.fixedInterval 10, .duration 10, .waiting 5, 15⟩, rfl, rfl⟩

end SchedulerActor

end Ritualist
