import Mathlib.Data.List.Induction
import Ritualist.Library.Runs
import Ritualist.Schedule

/-!
# The scheduler seen at one id

What a command does to the map is, at each id, one of seven events. The entry
after a command depends on the entry before it, the event, and what the entry
itself reads; the rest of the map matters only for whether a registration is
accepted. `lookup_step` is that law, and every law about one activity is proved
from it by cases on the event rather than on the command.

An event of insertion is an effective one: a refused registration inserts nothing.
-/

namespace Ritualist

universe u

/-- What one command does at one id. -/
inductive Event (T : Type u) where
  | insert (spec : ActivitySpec T)
  | tick
  | setEnabled (enabled : Bool)
  | claimDue
  | setImmediate
  | finish (ack : AckMessage)
  | skip
  deriving DecidableEq, Repr

namespace Event

variable {T : Type u}

/-- The entry after an event. -/
def advance (event : Event T) (reading : Reading) (entry : Option (Activity T)) :
    Option (Activity T) :=
  match event with
  | .insert spec => some (Activity.new spec reading)
  | .tick => entry.bind fun activity =>
      let ticked := activity.tick reading
      if ticked.state ≠ .gc then some ticked else none
  | .setEnabled enabled => entry.map fun activity => activity.setEnabled enabled
  | .claimDue => entry.map fun activity => (activity.claimIfDue reading).1
  | .setImmediate => entry.map fun activity => activity.setImmediate reading
  | .finish ack => entry.bind fun activity =>
      let finished := activity.finish ack reading
      if finished.state = .completed then none else some finished
  | .skip => entry

instance insertionDecidable (event : Event T) : Decidable (∃ spec, event = .insert spec) :=
  match event with
  | .insert spec => isTrue ⟨spec, rfl⟩
  | .tick => isFalse (by simp)
  | .setEnabled _ => isFalse (by simp)
  | .claimDue => isFalse (by simp)
  | .setImmediate => isFalse (by simp)
  | .finish _ => isFalse (by simp)
  | .skip => isFalse (by simp)

/-- An event other than an insertion carries a present activity to a present
one. A tick that collects and an acknowledgement that completes are not moves:
after them the id is absent. -/
inductive Moves (reading : Reading) : Event T → Activity T → Activity T → Prop
  | tick (before : Activity T) (survives : (before.tick reading).state ≠ .gc) :
      Moves reading .tick before (before.tick reading)
  | setEnabled (before : Activity T) (enabled : Bool) :
      Moves reading (.setEnabled enabled) before (before.setEnabled enabled)
  | claimDue (before : Activity T) :
      Moves reading .claimDue before (before.claimIfDue reading).1
  | setImmediate (before : Activity T) :
      Moves reading .setImmediate before (before.setImmediate reading)
  | finish (before : Activity T) (ack : AckMessage)
      (remains : (before.finish ack reading).state ≠ .completed) :
      Moves reading (.finish ack) before (before.finish ack reading)
  | skip (before : Activity T) : Moves reading .skip before before

/-- An activity present after an event was inserted by it, or moved by it from
the activity present before. -/
theorem advance_some (event : Event T) (reading : Reading) (entry : Option (Activity T))
    (after : Activity T) (present : event.advance reading entry = some after) :
    (∃ spec, event = .insert spec ∧ after = Activity.new spec reading) ∨
      ∃ before, entry = some before ∧ event.Moves reading before after := by
  cases event with
  | insert spec => exact Or.inl ⟨spec, rfl, (Option.some.inj present).symm⟩
  | tick =>
    obtain ⟨before, held, kept⟩ := Option.bind_eq_some_iff.mp present
    by_cases survives : (before.tick reading).state ≠ .gc
    · obtain rfl : before.tick reading = after := by simpa [survives] using kept
      exact Or.inr ⟨before, held, .tick before survives⟩
    · simp [survives] at kept
  | setEnabled enabled =>
    obtain ⟨before, held, rfl⟩ := Option.map_eq_some_iff.mp present
    exact Or.inr ⟨before, held, .setEnabled before enabled⟩
  | claimDue =>
    obtain ⟨before, held, rfl⟩ := Option.map_eq_some_iff.mp present
    exact Or.inr ⟨before, held, .claimDue before⟩
  | setImmediate =>
    obtain ⟨before, held, rfl⟩ := Option.map_eq_some_iff.mp present
    exact Or.inr ⟨before, held, .setImmediate before⟩
  | finish ack =>
    obtain ⟨before, held, kept⟩ := Option.bind_eq_some_iff.mp present
    by_cases completed : (before.finish ack reading).state = .completed
    · simp [completed] at kept
    · obtain rfl : before.finish ack reading = after := by simpa [completed] using kept
      exact Or.inr ⟨before, held, .finish before ack completed⟩
  | skip => exact Or.inr ⟨after, present, .skip after⟩

/-- An event other than an insertion moves a present activity, or removes it: a
tick by collecting it, an acknowledgement by completing it. -/
theorem advance_present (event : Event T) (reading : Reading) (before : Activity T)
    (kept : ¬ ∃ spec, event = .insert spec) :
    (∃ after, event.advance reading (some before) = some after ∧
        event.Moves reading before after) ∨
      event.advance reading (some before) = none ∧
        (event = .tick ∧ (before.tick reading).state = .gc ∨
          ∃ ack, event = .finish ack ∧ (before.finish ack reading).state = .completed) := by
  cases event with
  | insert spec => exact absurd ⟨spec, rfl⟩ kept
  | tick =>
    by_cases collected : (before.tick reading).state = .gc
    · exact Or.inr ⟨by simp [advance, collected], Or.inl ⟨rfl, collected⟩⟩
    · exact Or.inl ⟨_, by simp [advance, collected], .tick before collected⟩
  | setEnabled enabled => exact Or.inl ⟨_, rfl, .setEnabled before enabled⟩
  | claimDue => exact Or.inl ⟨_, rfl, .claimDue before⟩
  | setImmediate => exact Or.inl ⟨_, rfl, .setImmediate before⟩
  | finish ack =>
    by_cases completed : (before.finish ack reading).state = .completed
    · exact Or.inr ⟨by simp [advance, completed], Or.inr ⟨ack, rfl, completed⟩⟩
    · exact Or.inl ⟨_, by simp [advance, completed], .finish before ack completed⟩
  | skip => exact Or.inl ⟨_, rfl, .skip before⟩

/-- Only an insertion makes an absent id present. -/
theorem advance_absent (event : Event T) (reading : Reading)
    (kept : ¬ ∃ spec, event = .insert spec) : event.advance reading none = none := by
  cases event with
  | insert spec => exact absurd ⟨spec, rfl⟩ kept
  | _ => rfl

/-- No event but an insertion changes what an activity was created with. -/
theorem Moves.created_eq {event : Event T} {reading : Reading} {before after : Activity T}
    (move : event.Moves reading before after) :
    after.spec = before.spec ∧ after.createdAt = before.createdAt := by
  cases move with
  | tick _ survives => rw [Activity.tick_eq]; exact ⟨rfl, rfl⟩
  | setEnabled _ enabled => rw [Activity.set_enabled_eq]; exact ⟨rfl, rfl⟩
  | claimDue => rw [Activity.claim_eq]; split <;> exact ⟨rfl, rfl⟩
  | setImmediate => rw [Activity.set_immediate_eq]; exact ⟨rfl, rfl⟩
  | finish _ ack remains =>
    cases ack with
    | done => rw [Activity.finish_done]; split <;> exact ⟨rfl, rfl⟩
    | snooze duration => rw [Activity.finish_snooze]; exact ⟨rfl, rfl⟩
  | skip => exact ⟨rfl, rfl⟩

/-- No event but an insertion changes an activity's specification. -/
theorem Moves.spec_eq {event : Event T} {reading : Reading} {before after : Activity T}
    (move : event.Moves reading before after) : after.spec = before.spec := move.created_eq.1

/-- Only a dispatch or an acknowledgement changes an activity's target. -/
theorem Moves.target_eq {event : Event T} {reading : Reading} {before after : Activity T}
    (move : event.Moves reading before after) (undispatched : event ≠ .setImmediate)
    (unfinished : ∀ ack, event ≠ .finish ack) :
    after.activationTarget = before.activationTarget := by
  cases move with
  | tick _ survives => exact Activity.tick_target before reading
  | setEnabled _ enabled => rw [Activity.set_enabled_eq]
  | claimDue => rw [Activity.claim_eq]; split <;> rfl
  | setImmediate => exact absurd rfl undispatched
  | finish _ ack remains => exact absurd rfl (unfinished ack)
  | skip => rfl

/-- Nothing but a tick moves an activity's tick instant. -/
theorem Moves.last_tick_eq {event : Event T} {reading : Reading} {before after : Activity T}
    (move : event.Moves reading before after) (unticked : event ≠ .tick) :
    after.lastTick = before.lastTick := by
  cases move with
  | tick _ survives => exact absurd rfl unticked
  | setEnabled _ enabled => rw [Activity.set_enabled_eq]
  | claimDue => rw [Activity.claim_eq]; split <;> rfl
  | setImmediate => rw [Activity.set_immediate_eq]
  | finish _ ack remains =>
    cases ack with
    | snooze span => rw [Activity.finish_snooze]
    | done => rw [Activity.finish_done]; split <;> rfl
  | skip => rfl

/-- A tick moves an activity's tick instant to the present. -/
theorem Moves.last_tick_now {reading : Reading} {before after : Activity T}
    (move : Event.tick.Moves reading before after) : after.lastTick = reading.now := by
  cases move with
  | tick _ survives => exact before.tick_last_tick reading

/-- The tick instant stays where it was, or moves to the present. -/
theorem Moves.last_tick {event : Event T} {reading : Reading} {before after : Activity T}
    (move : event.Moves reading before after) :
    after.lastTick = before.lastTick ∨ after.lastTick = reading.now := by
  by_cases ticks : event = .tick
  · subst ticks
    exact Or.inr move.last_tick_now
  · exact Or.inl (move.last_tick_eq ticks)

/-- No move accumulates time from before an instant: a tick counts the time since
the tick instant, and nothing else adds any. -/
theorem Moves.accumulates {event : Event T} {reading : Reading} {before after : Activity T}
    (move : event.Moves reading before after) (start : Instant)
    (counted : start + before.durationDelta ≤ before.lastTick)
    (inTime : before.lastTick ≤ reading.now) :
    start + after.durationDelta ≤ after.lastTick ∧ after.lastTick ≤ reading.now := by
  have restarted : start + 0 ≤ before.lastTick := (Nat.le_add_right _ _).trans counted
  cases move with
  | tick _ survives =>
    rw [Activity.tick_eq]
    refine ⟨?_, le_rfl⟩
    change start + (if before.state.isScheduled
      then before.durationDelta + (reading.now - before.lastTick)
      else before.durationDelta) ≤ reading.now
    split
    · calc start + (before.durationDelta + (reading.now - before.lastTick))
          = start + before.durationDelta + (reading.now - before.lastTick) :=
            (Nat.add_assoc _ _ _).symm
        _ ≤ before.lastTick + (reading.now - before.lastTick) := Nat.add_le_add_right counted _
        _ = reading.now := Nat.add_sub_cancel' inTime
    · exact counted.trans inTime
  | setEnabled _ enabled => rw [Activity.set_enabled_eq]; exact ⟨counted, inTime⟩
  | claimDue =>
    rw [Activity.claim_eq]
    split
    · exact ⟨restarted, inTime⟩
    · exact ⟨counted, inTime⟩
  | setImmediate => rw [Activity.set_immediate_eq]; exact ⟨counted, inTime⟩
  | finish _ ack remains =>
    cases ack with
    | snooze duration => rw [Activity.finish_snooze]; exact ⟨restarted, inTime⟩
    | done =>
      rw [Activity.finish_done]
      split
      · exact ⟨counted, inTime⟩
      · exact ⟨restarted, inTime⟩
  | skip => exact ⟨counted, inTime⟩

/-- An activity that a move leaves running was running and is not acknowledged, or
a claim found it due. -/
theorem Moves.running_from {event : Event T} {reading : Reading} {before after : Activity T}
    (move : event.Moves reading before after) (once : before.state.stripped.isDisabled = false)
    (running : after.state.stripped = .running) :
    (before.state.stripped = .running ∧ ∀ ack, event ≠ .finish ack) ∨
      (event = .claimDue ∧ before.shouldRun reading = true) := by
  cases move with
  | tick _ survives =>
    rw [before.tick_state_of_survives reading survives] at running
    exact Or.inl ⟨running, by simp⟩
  | setEnabled _ enabled =>
    rw [before.set_enabled_stripped enabled once] at running
    exact Or.inl ⟨running, by simp⟩
  | claimDue =>
    by_cases due : before.shouldRun reading = true
    · exact Or.inr ⟨rfl, due⟩
    · rw [Activity.claim_eq, if_neg due] at running
      exact Or.inl ⟨running, by simp⟩
  | setImmediate =>
    rw [Activity.set_immediate_eq] at running
    exact Or.inl ⟨running, by simp⟩
  | finish _ ack remains =>
    cases ack with
    | snooze span => rw [Activity.finish_snooze] at running; cases running
    | done =>
      rw [Activity.finish_done] at remains running
      by_cases oneShot : before.spec.schedule.isOneShot = true
      · simp [oneShot] at remains
      · simp [oneShot, ActivityState.stripped] at running
  | skip => exact Or.inl ⟨running, by simp⟩

/-- Every move leaves a settled activity settled: what would complete or collect
it is not a move. -/
theorem Moves.settled {event : Event T} {reading : Reading} {before after : Activity T}
    (move : event.Moves reading before after) (settled : before.state.Settled) :
    after.state.Settled := by
  cases move with
  | tick _ survives =>
    rw [before.tick_state_of_survives reading survives]
    exact settled
  | setEnabled _ enabled =>
    unfold ActivityState.Settled
    rw [before.set_enabled_stripped enabled settled.bare]
    exact settled
  | claimDue =>
    rw [Activity.claim_eq]
    split
    · exact Or.inr (Or.inl rfl)
    · exact settled
  | setImmediate => rw [Activity.set_immediate_eq]; exact settled
  | finish _ ack remains =>
    cases ack with
    | snooze duration =>
      rw [Activity.finish_snooze]
      exact Or.inr (Or.inr ⟨duration, rfl⟩)
    | done =>
      rw [Activity.finish_done] at remains ⊢
      by_cases oneShot : before.spec.schedule.isOneShot = true
      · simp [oneShot] at remains
      · simp only [oneShot, Bool.false_eq_true, if_false]
        exact Or.inl rfl
  | skip => exact settled

end Event

namespace SchedulerActor

variable {T : Type u} [DecidableEq T]

/-- The specification a batch registration inserts for an id, given the ids
present when the loop reaches it: the loop stops at the first id present. -/
def acceptedSpec (id : T) : List T → List (ActivitySpec T) → Option (ActivitySpec T)
  | _, [] => none
  | present, spec :: rest =>
    if spec.id ∈ present then none
    else if spec.id = id then some spec
    else acceptedSpec id (spec.id :: present) rest

/-- What a command does at an id, in the map it is processed in. -/
def eventAt (actor : SchedulerActor T) (id : T) : Command T → Event T
  | .register spec =>
    if spec.id = id ∧ spec.id ∉ actor.activities then .insert spec else .skip
  | .registerMany specs =>
    match acceptedSpec id actor.activities.keys specs with
    | some spec => .insert spec
    | none => .skip
  | .reset spec => if spec.id = id then .insert spec else .skip
  | .resetMany specs =>
    match specs.reverse.find? fun spec => decide (spec.id = id) with
    | some spec => .insert spec
    | none => .skip
  | .tick => .tick
  | .setEnabled target enabled => if target = id then .setEnabled enabled else .skip
  | .claimDue => .claimDue
  | .setImmediate target => if target = id then .setImmediate else .skip
  | .finish target ack => if target = id then .finish ack else .skip
  | .snapshot => .skip

/-- The specifications a command carries. -/
def commandSpecs : Command T → List (ActivitySpec T)
  | .register spec => [spec]
  | .registerMany specs => specs
  | .reset spec => [spec]
  | .resetMany specs => specs
  | _ => []

/-- The command inserts a new activity for the id. -/
def inserts (actor : SchedulerActor T) (id : T) (input : Input T) : Prop :=
  ∃ spec, actor.eventAt id input.command = .insert spec

instance insertsDecidable (actor : SchedulerActor T) (id : T) (input : Input T) :
    Decidable (actor.inserts id input) :=
  inferInstanceAs (Decidable (∃ spec, actor.eventAt id input.command = .insert spec))

/-- An id already present is not inserted by a batch registration. -/
theorem accepted_present (id : T) (present : List T) (specs : List (ActivitySpec T))
    (member : id ∈ present) : acceptedSpec id present specs = none := by
  induction specs generalizing present with
  | nil => rfl
  | cons spec rest inductionHypothesis =>
    by_cases refused : spec.id ∈ present
    · simp [acceptedSpec, refused]
    · have different : spec.id ≠ id := fun same => refused (same ▸ member)
      simp [acceptedSpec, refused, different,
        inductionHypothesis (spec.id :: present) (List.mem_cons_of_mem spec.id member)]

/-- A batch registration inserts for an id only a specification of that id. -/
theorem accepted_id (id : T) (present : List T) (specs : List (ActivitySpec T))
    (spec : ActivitySpec T) (accepted : acceptedSpec id present specs = some spec) :
    spec ∈ specs ∧ spec.id = id := by
  induction specs generalizing present with
  | nil => simp [acceptedSpec] at accepted
  | cons head rest inductionHypothesis =>
    simp only [acceptedSpec] at accepted
    split at accepted
    · simp at accepted
    · split at accepted
      · obtain rfl := Option.some.inj accepted
        exact ⟨List.mem_cons_self, ‹_›⟩
      · obtain ⟨member, same⟩ := inductionHypothesis (head.id :: present) accepted
        exact ⟨List.mem_cons_of_mem head member, same⟩

/-- A batch registration, read at one id. -/
theorem register_each_lookup (readings : T → Reading) (specs : List (ActivitySpec T))
    (activities : Table T (Activity T)) (id : T) :
    (registerEach readings activities specs).1.lookup id =
      match acceptedSpec id activities.keys specs with
      | some spec => some (Activity.new spec (readings id))
      | none => activities.lookup id := by
  induction specs generalizing activities with
  | nil => rfl
  | cons spec rest inductionHypothesis =>
    by_cases present : spec.id ∈ activities
    · have listed : spec.id ∈ activities.keys := present
      simp [registerEach, acceptedSpec, present, listed]
    · have unlisted : spec.id ∉ activities.keys := present
      have grown : (activities.insert spec.id (Activity.new spec (readings spec.id))).keys =
          spec.id :: activities.keys := by
        rw [AList.keys_insert, List.erase_of_not_mem unlisted]
      simp only [registerEach, present, if_false, inductionHypothesis, grown]
      by_cases same : spec.id = id
      · subst same
        have once : acceptedSpec spec.id (spec.id :: activities.keys) rest = none :=
          accepted_present spec.id _ rest List.mem_cons_self
        simp [acceptedSpec, unlisted, once]
      · simp [acceptedSpec, unlisted, same, AList.lookup_insert_ne (Ne.symm same)]

/-- A batch reset, read at one id: the last specification of that id stands. -/
theorem reset_each_lookup (readings : T → Reading) (specs : List (ActivitySpec T))
    (activities : Table T (Activity T)) (id : T) :
    (resetEach readings activities specs).lookup id =
      match specs.reverse.find? fun spec => decide (spec.id = id) with
      | some spec => some (Activity.new spec (readings id))
      | none => activities.lookup id := by
  induction specs using List.reverseRecOn with
  | nil => rfl
  | append_singleton front spec inductionHypothesis =>
    simp only [resetEach, List.foldl_append, List.foldl_cons, List.foldl_nil] at inductionHypothesis ⊢
    by_cases same : spec.id = id
    · subst same
      simp
    · simp [same, AList.lookup_insert_ne (Ne.symm same), inductionHypothesis]

/-- An acknowledgement, read at one id: the acknowledged entry is finished, and
removed when that completes it. -/
theorem finish_lookup (actor : SchedulerActor T) (target : T) (ack : AckMessage)
    (readings : T → Reading) (id : T) :
    (actor.send (.finish target ack) readings).1.activities.lookup id =
      if target = id then
        (actor.activities.lookup id).bind fun activity =>
          let finished := activity.finish ack (readings id)
          if finished.state = .completed then none else some finished
      else actor.activities.lookup id := by
  cases found : actor.activities.lookup target with
  | none =>
    by_cases same : target = id
    · subst same
      simp [send, found]
    · simp [send, found, same]
  | some activity =>
    by_cases completed : (activity.finish ack (readings target)).state = .completed
    · by_cases same : target = id
      · subst same
        simp [send, found, completed]
      · simp [send, found, completed, same, AList.lookup_erase_ne (Ne.symm same), Ne.symm same]
    · by_cases same : target = id
      · subst same
        simp [send, found, completed]
      · simp [send, found, completed, same, Ne.symm same]

/-- The entry of an id after a command is its entry before it, advanced by the
event the command is at that id with the id's own reading. -/
theorem lookup_step (actor : SchedulerActor T) (input : Input T) (id : T) :
    (actor.step input).activities.lookup id =
      (actor.eventAt id input.command).advance (input.readings id)
        (actor.activities.lookup id) := by
  obtain ⟨command, readings⟩ := input
  cases command with
  | register spec =>
    by_cases present : spec.id ∈ actor.activities
    · simp [step, send, eventAt, present, Event.advance]
    · by_cases same : spec.id = id
      · subst same
        simp [step, send, eventAt, present, Event.advance]
      · simp [step, send, eventAt, present, same, Event.advance,
          AList.lookup_insert_ne (Ne.symm same)]
  | registerMany specs =>
    simp only [step, send, eventAt, register_each_lookup]
    cases acceptedSpec id actor.activities.keys specs <;> rfl
  | reset spec =>
    by_cases same : spec.id = id
    · subst same
      simp [step, send, eventAt, Event.advance]
    · simp [step, send, eventAt, same, Event.advance, AList.lookup_insert_ne (Ne.symm same)]
  | resetMany specs =>
    simp only [step, send, eventAt, reset_each_lookup]
    cases specs.reverse.find? fun spec => decide (spec.id = id) <;> rfl
  | tick => simp [step, send, eventAt, Event.advance]
  | setEnabled target enabled =>
    by_cases same : id = target
    · simp [step, send, eventAt, Event.advance, same]
    · simp [step, send, eventAt, Event.advance, same, Ne.symm same]
  | claimDue => simp [step, send, eventAt, Event.advance]
  | setImmediate target =>
    by_cases same : id = target
    · simp [step, send, eventAt, Event.advance, same]
    · simp [step, send, eventAt, Event.advance, same, Ne.symm same]
  | finish target ack =>
    have acknowledged := finish_lookup actor target ack readings id
    by_cases same : target = id <;> simpa [step, eventAt, Event.advance, same] using acknowledged
  | snapshot => rfl

/-- An insertion for an id inserts one of the command's specifications, and one
of that id. -/
theorem event_insert (actor : SchedulerActor T) (id : T) (command : Command T)
    (spec : ActivitySpec T) (inserted : actor.eventAt id command = .insert spec) :
    spec ∈ commandSpecs command ∧ spec.id = id := by
  cases command with
  | register registered =>
    simp only [eventAt] at inserted
    split at inserted
    · obtain rfl := Event.insert.inj inserted
      exact ⟨List.mem_singleton.mpr rfl, And.left ‹_›⟩
    · cases inserted
  | registerMany specs =>
    simp only [eventAt] at inserted
    split at inserted
    · obtain rfl := Event.insert.inj inserted
      exact accepted_id id actor.activities.keys specs _ ‹_›
    · cases inserted
  | reset replaced =>
    simp only [eventAt] at inserted
    split at inserted
    · obtain rfl := Event.insert.inj inserted
      exact ⟨List.mem_singleton.mpr rfl, ‹_›⟩
    · cases inserted
  | resetMany specs =>
    simp only [eventAt] at inserted
    split at inserted
    case h_1 found =>
      obtain rfl := Event.insert.inj inserted
      exact ⟨List.mem_reverse.mp (List.mem_of_find?_eq_some found),
        by simpa using List.find?_some found⟩
    case h_2 => cases inserted
  | setEnabled target enabled =>
    simp only [eventAt] at inserted
    split at inserted <;> cases inserted
  | setImmediate target =>
    simp only [eventAt] at inserted
    split at inserted <;> cases inserted
  | finish target ack =>
    simp only [eventAt] at inserted
    split at inserted <;> cases inserted
  | tick => cases inserted
  | claimDue => cases inserted
  | snapshot => cases inserted

section Commands

variable (actor : SchedulerActor T) (id : T) (command : Command T)

/-- Only the tick command ticks an id. -/
theorem event_tick_iff : actor.eventAt id command = .tick ↔ command = .tick := by
  cases command <;> simp only [eventAt] <;> (try split) <;> simp_all

/-- Only the command of that name for the id enables or disables it. -/
theorem event_set_enabled_iff (enabled : Bool) :
    actor.eventAt id command = .setEnabled enabled ↔ command = .setEnabled id enabled := by
  cases command <;> simp only [eventAt] <;> (try split) <;> simp_all [eq_comm]

/-- Only the claim command claims an id. -/
theorem event_claim_due_iff : actor.eventAt id command = .claimDue ↔ command = .claimDue := by
  cases command <;> simp only [eventAt] <;> (try split) <;> simp_all

/-- Only a dispatch of the id dispatches it. -/
theorem event_set_immediate_iff :
    actor.eventAt id command = .setImmediate ↔ command = .setImmediate id := by
  cases command <;> simp only [eventAt] <;> (try split) <;> simp_all [eq_comm]

/-- Only an acknowledgement for the id acknowledges it. -/
theorem event_finish_iff (ack : AckMessage) :
    actor.eventAt id command = .finish ack ↔ command = .finish id ack := by
  cases command <;> simp only [eventAt] <;> (try split) <;> simp_all [eq_comm]

end Commands

variable (actor : SchedulerActor T) (id : T)

/-- Every present entry of an id satisfies a property; vacuous when absent. -/
def EntrySatisfies (holds : Activity T → Prop) : Prop :=
  ∀ activity, actor.activities.lookup id = some activity → holds activity

variable {actor} {id}

/-- The empty map has no entry to satisfy anything. -/
theorem empty_satisfies (id : T) (holds : Activity T → Prop) :
    (empty : SchedulerActor T).EntrySatisfies id holds := by
  intro activity present
  simp [empty] at present

/-- At a present id, a property of the entry is one of the activity present. -/
theorem entry_satisfies_iff {holds : Activity T → Prop} {activity : Activity T}
    (present : actor.activities.lookup id = some activity) :
    actor.EntrySatisfies id holds ↔ holds activity := by
  constructor
  · intro satisfied
    exact satisfied activity present
  · intro held found foundHeld
    obtain rfl : activity = found := Option.some.inj (present.symm.trans foundHeld)
    exact held

/-- A property of an id's entry survives a command when a new activity has it
and every move of a present one keeps it. -/
theorem entry_step {holds : Activity T → Prop} {input : Input T}
    (fresh : ∀ spec, actor.eventAt id input.command = .insert spec →
      holds (Activity.new spec (input.readings id)))
    (moved : ∀ before after, actor.activities.lookup id = some before →
      (actor.eventAt id input.command).Moves (input.readings id) before after →
        holds before → holds after)
    (initial : actor.EntrySatisfies id holds) : (actor.step input).EntrySatisfies id holds := by
  intro after present
  rw [lookup_step] at present
  rcases Event.advance_some _ _ _ after present with ⟨spec, inserted, rfl⟩ | ⟨before, held, move⟩
  · exact fresh spec inserted
  · exact moved before after held move (initial before held)

/-- A property of an id's entry survives a run when new activities have it and
every move that the run's side condition admits keeps it. -/
theorem entry_run {holds : Activity T → Prop} {property : SchedulerActor T → Input T → Prop}
    {inputs : List (Input T)}
    (fresh : ∀ reached input spec, property reached input →
      reached.eventAt id input.command = .insert spec →
        holds (Activity.new spec (input.readings id)))
    (moved : ∀ reached input before after, property reached input →
      (reached.eventAt id input.command).Moves (input.readings id) before after →
        holds before → holds after)
    (initial : actor.EntrySatisfies id holds) (admitted : Runs.Along step property actor inputs) :
    (actor.run inputs).EntrySatisfies id holds :=
  @Runs.invariant_after _ _ step property (fun reached => reached.EntrySatisfies id holds)
    (fun reached input kept allowed => entry_step
      (fun spec inserted => fresh reached input spec allowed inserted)
      (fun before after _ move => moved reached input before after allowed move) kept)
    actor inputs initial admitted

/-- Without an insertion, an absent id stays absent. -/
theorem absent_step {input : Input T} (absent : actor.activities.lookup id = none)
    (kept : ¬ actor.inserts id input) : (actor.step input).activities.lookup id = none := by
  rw [lookup_step, absent]
  exact Event.advance_absent _ _ kept

/-- Without an insertion, a present activity is moved or removed. -/
theorem present_step {input : Input T} {before : Activity T}
    (present : actor.activities.lookup id = some before) (kept : ¬ actor.inserts id input) :
    (∃ after, (actor.step input).activities.lookup id = some after ∧
        (actor.eventAt id input.command).Moves (input.readings id) before after) ∨
      (actor.step input).activities.lookup id = none ∧
        (actor.eventAt id input.command = .tick ∧
            (before.tick (input.readings id)).state = .gc ∨
          ∃ ack, actor.eventAt id input.command = .finish ack ∧
            (before.finish ack (input.readings id)).state = .completed) := by
  rw [lookup_step, present]
  exact Event.advance_present _ _ before kept

/-- Every activity is stored under its own id. -/
def Keyed (actor : SchedulerActor T) : Prop :=
  ∀ id, actor.EntrySatisfies id fun activity => activity.spec.id = id

/-- No command stores an activity under another id. -/
theorem keyed_step (input : Input T) (keyed : actor.Keyed) : (actor.step input).Keyed := by
  intro id
  refine entry_step (fun spec inserted => ?_) (fun before after _ move same => ?_) (keyed id)
  · exact (event_insert actor id input.command spec inserted).2
  · rw [move.spec_eq]
    exact same

/-- Commands keep activities under their own ids. -/
theorem keyed_after (keyed : actor.Keyed) (inputs : List (Input T)) : (actor.run inputs).Keyed :=
  @Runs.always_after _ _ step Keyed (fun _ input => keyed_step input) actor keyed inputs

/-- Every run of the actor stores activities under their own ids. -/
theorem keyed_run (history : List (Input T)) : (empty.run history : SchedulerActor T).Keyed :=
  keyed_after (fun id => empty_satisfies id _) history

/-- Every run leaves every entry idle, running or snoozed, or one of these
wrapped once; no validation is needed for that. -/
theorem settled_run (history : List (Input T)) (id : T) :
    (empty.run history).EntrySatisfies id fun activity => activity.state.Settled :=
  @Runs.always_after _ _ step (fun reached => reached.EntrySatisfies id fun activity =>
      activity.state.Settled)
    (fun _ _ settled => entry_step (fun _ _ => Or.inl rfl) (fun _ _ _ move kept => move.settled kept)
      settled) empty (empty_satisfies id _) history

/-- A command that is no claim reports nothing. -/
theorem claimed_eq_nil (actor : SchedulerActor T) (input : Input T)
    (unclaimed : input.command ≠ .claimDue) : actor.claimed input = [] := by
  obtain ⟨command, readings⟩ := input
  cases command with
  | claimDue => exact absurd rfl unclaimed
  | register spec => by_cases present : spec.id ∈ actor.activities <;> simp [claimed, send, present]
  | finish target ack =>
    have silent : (actor.send (.finish target ack) readings).2 = none := by
      simp only [send]
      split
      · split <;> rfl
      · rfl
    simp [claimed, silent]
  | _ => rfl

/-- A reply reports an id exactly when the command is a claim and the id's own
entry is due. -/
theorem mem_claimed_iff (keyed : actor.Keyed) (input : Input T) :
    id ∈ actor.claimed input ↔ input.command = .claimDue ∧
      ∃ activity, actor.activities.lookup id = some activity ∧
        activity.shouldRun (input.readings id) = true := by
  by_cases claims : input.command = .claimDue
  · obtain ⟨command, readings⟩ := input
    obtain rfl : command = .claimDue := claims
    simp only [claimed, send, Table.mem_visit, true_and]
    constructor
    · rintro ⟨key, activity, present, reported⟩
      obtain ⟨due, same⟩ := (Activity.claim_reports_iff activity _ id).mp reported
      obtain rfl : key = id := (keyed key activity present).symm.trans same
      exact ⟨activity, present, due⟩
    · rintro ⟨activity, present, due⟩
      exact ⟨id, activity, present,
        (Activity.claim_reports_iff activity _ id).mpr ⟨due, keyed id activity present⟩⟩
  · simp [claimed_eq_nil actor input claims, claims]

/-- A present id is reported exactly when the command is a claim and the activity
present is due. -/
theorem present_claimed_iff (keyed : actor.Keyed) (input : Input T) {activity : Activity T}
    (present : actor.activities.lookup id = some activity) :
    id ∈ actor.claimed input ↔
      input.command = .claimDue ∧ activity.shouldRun (input.readings id) = true := by
  rw [mem_claimed_iff keyed, present]
  simp

/-- A claim that does not report an id finds its activity not due. -/
theorem unclaimed_not_due (keyed : actor.Keyed) (input : Input T) {before : Activity T}
    (present : actor.activities.lookup id = some before) (claims : input.command = .claimDue)
    (unclaimed : id ∉ actor.claimed input) : ¬ before.shouldRun (input.readings id) = true :=
  fun due => unclaimed ((present_claimed_iff keyed input present).mpr ⟨claims, due⟩)

end SchedulerActor

end Ritualist
