import Ritualist.Library.Stopwatch
import Ritualist.Timing

/-!
# Whether disabling pauses the timer

From its insertion to its first claim, an interval activity is a stopwatch's
meter: a tick is a lap, disabling pauses the watch and enabling resumes it, and
the accumulated time is what the meter shows. It is the meter of the library,
which looks only at laps, because a tick asks only whether the activity is
enabled now: `tracked_step`.

So the accumulated time can exceed the time the activity was enabled. It does
not at any tick exactly when, at every tick, the disabled time inside windows
that ended enabled is made up for by enabled time inside windows that ended
disabled.
-/

namespace Ritualist

universe u
variable {T : Type u} [DecidableEq T]

namespace SchedulerActor

/-- What a command does to the stopwatch of an id. -/
def signalOf (id : T) : Command T → Signal
  | .tick => .lap
  | .setEnabled target enabled =>
    if target = id then (if enabled then .resume else .pause) else .pass
  | _ => .pass

/-- The stopwatch of an id, started by its insertion, after further inputs. It
reads the commands and their times, and nothing of the actor. -/
def stopwatch (id : T) (insertion : Input T) (inputs : List (Input T)) : Stopwatch :=
  inputs.foldl (fun watch input => watch.signal (input.nowAt id) (signalOf id input.command))
    (.start (insertion.nowAt id))

@[simp] theorem stopwatch_append (id : T) (insertion : Input T) (inputs : List (Input T))
    (input : Input T) :
    stopwatch id insertion (inputs ++ [input]) =
      (stopwatch id insertion inputs).signal (input.nowAt id) (signalOf id input.command) := by
  simp [stopwatch]

/-- No claim so far has reported the id. -/
def Unclaimed (id : T) (actor : SchedulerActor T) (inputs : List (Input T)) : Prop :=
  Runs.Along step (fun reached input => id ∉ reached.claimed input) actor inputs

instance unclaimedDecidable (id : T) (actor : SchedulerActor T) (inputs : List (Input T)) :
    Decidable (Unclaimed id actor inputs) :=
  inferInstanceAs (Decidable (Runs.Along _ _ _ _))

/-- Up to the first claim, every tick leaves no more time accumulated than the
activity was enabled; and that claim comes when it was enabled for its span. -/
def CountsEnabledTime (id : T) (insertion : Input T) (span : Duration)
    (actor : SchedulerActor T) (inputs : List (Input T)) : Prop :=
  ∀ before input later, inputs = before ++ input :: later → Unclaimed id actor before →
    (input.command = .tick → (actor.run (before ++ [input])).EntrySatisfies id fun activity =>
      activity.durationDelta ≤ (stopwatch id insertion (before ++ [input])).running) ∧
    (id ∈ (actor.run before).claimed input →
      span ≤ (stopwatch id insertion (before ++ [input])).running)

/-- Up to the first claim, at every tick, the disabled time in windows between
ticks that ended enabled is no more than the enabled time in windows that ended
disabled. -/
def DisabledTimeMadeUp (id : T) (insertion : Input T)
    (actor : SchedulerActor T) (inputs : List (Input T)) : Prop :=
  ∀ before input later, inputs = before ++ input :: later → Unclaimed id actor before →
    input.command = .tick →
      (stopwatch id insertion (before ++ [input])).overcounted ≤
        (stopwatch id insertion (before ++ [input])).skipped

/-- The activity shows what the stopwatch's meter shows. -/
structure Metered (watch : Stopwatch) (span : Duration) (activity : Activity T) : Prop where
  idle : activity.state.stripped = .idle
  paused : activity.state.isDisabled = watch.paused
  counted : activity.durationDelta = watch.counted
  lapped : activity.lastTick = watch.lastLap
  target : activity.activationTarget = .duration span
  interval : activity.spec.schedule.isOneShot = false

/-- The id is present as an interval activity metered by a balanced stopwatch. -/
def Tracked (id : T) (span : Duration) (actor : SchedulerActor T) (watch : Stopwatch) : Prop :=
  actor.Keyed ∧ watch.Balanced ∧
    ∃ activity, actor.activities.lookup id = some activity ∧ Metered watch span activity

/-- Ticks are the laps. -/
theorem signal_lap_iff (id : T) (command : Command T) :
    signalOf id command = .lap ↔ command = .tick := by
  cases command with
  | setEnabled target enabled =>
    by_cases same : target = id <;> cases enabled <;> simp [signalOf, same]
  | _ => simp [signalOf]

/-- What an event at an id does to its stopwatch. -/
def eventSignal : Event T → Signal
  | .tick => .lap
  | .setEnabled enabled => if enabled then .resume else .pause
  | _ => .pass

/-- The signal of a command is that of its event at the id. -/
theorem signal_of_event (actor : SchedulerActor T) (id : T) (command : Command T) :
    signalOf id command = eventSignal (actor.eventAt id command) := by
  cases command <;> simp only [signalOf, eventAt] <;> (try split) <;> rfl

/-- An idle activity waits exactly when it is enabled. -/
theorem idle_scheduled (state : ActivityState) (idle : state.stripped = .idle) :
    state.isScheduled = !state.isDisabled := by
  cases state <;> simp_all [ActivityState.stripped, ActivityState.isScheduled,
    ActivityState.isDisabled]

omit [DecidableEq T] in
/-- The meter follows the activity through every move that neither dispatches nor
acknowledges nor claims it. A tick is a lap because it counts the whole time
since the last one, or nothing of it, as the activity is enabled now. -/
theorem Metered.move {watch : Stopwatch} {span : Duration} {event : Event T} {reading : Reading}
    {before after : Activity T} (metered : Metered watch span before)
    (move : event.Moves reading before after) (undispatched : event ≠ .setImmediate)
    (unfinished : ∀ ack, event ≠ .finish ack)
    (unclaimed : event = .claimDue → ¬ before.shouldRun reading = true) :
    Metered (watch.signal reading.now (eventSignal event)) span after := by
  obtain ⟨idle, paused, counted, lapped, target, interval⟩ := metered
  cases move with
  | tick _ survives =>
    have uncollected : before.isCollectable reading = false := by
      simp [Activity.isCollectable, interval]
    rw [Activity.tick_eq, uncollected]
    refine ⟨idle, paused, ?_, rfl, target, interval⟩
    change (if before.state.isScheduled then before.durationDelta + (reading.now - before.lastTick)
      else before.durationDelta) = (watch.signal reading.now .lap).counted
    rw [idle_scheduled before.state idle, paused, counted, lapped, Stopwatch.lap_counted]
    cases watch.paused <;> rfl
  | setEnabled _ enabled =>
    have bare : before.state.stripped.isDisabled = false := by rw [idle]; rfl
    have stillIdle := (before.set_enabled_stripped enabled bare).trans idle
    have toggled := before.set_enabled_disabled enabled bare
    have between : eventSignal (.setEnabled enabled : Event T) ≠ .lap := by
      cases enabled <;> simp [eventSignal]
    obtain ⟨sameMeter, sameLap, _⟩ := watch.signal_between reading.now _ between
    have watchToggled :
        (watch.signal reading.now (eventSignal (.setEnabled enabled : Event T))).paused
          = !enabled := by cases enabled <;> rfl
    refine ⟨stillIdle, toggled.trans watchToggled.symm, ?_, ?_, ?_, ?_⟩
    · rw [sameMeter, Activity.set_enabled_eq, ← counted]
    · rw [sameLap, Activity.set_enabled_eq, ← lapped]
    · rw [Activity.set_enabled_eq]; exact target
    · rw [Activity.set_enabled_eq]; exact interval
  | claimDue =>
    rw [Activity.claim_eq, if_neg (unclaimed rfl)]
    exact ⟨idle, paused, counted, lapped, target, interval⟩
  | setImmediate => exact absurd rfl undispatched
  | finish _ ack remains => exact absurd rfl (unfinished ack)
  | skip => exact ⟨idle, paused, counted, lapped, target, interval⟩

/-- The stopwatch tracks the id through every input that leaves it alone and does
not claim it. An interval activity is never removed by such an input. -/
theorem tracked_step (id : T) (span : Duration) (actor : SchedulerActor T) (watch : Stopwatch)
    (input : Input T) (tracked : Tracked id span actor watch)
    (inTime : watch.moment ≤ input.nowAt id) (undisturbed : Undisturbed id actor input)
    (unclaimed : id ∉ actor.claimed input) :
    Tracked id span (actor.step input)
      (watch.signal (input.nowAt id) (signalOf id input.command)) := by
  obtain ⟨keyed, balanced, activity, present, metered⟩ := tracked
  refine ⟨keyed_step input keyed, balanced.signal _ _ inTime, ?_⟩
  have unfinished := undisturbed.2.unfinished
  rcases present_step present undisturbed.2.1 with
    ⟨after, held, move⟩ | ⟨_, ⟨_, collected⟩ | ⟨ack, event, _⟩⟩
  · rw [signal_of_event actor id input.command]
    refine ⟨after, held, metered.move move undisturbed.undispatched unfinished ?_⟩
    intro event
    exact unclaimed_not_due keyed input present ((event_claim_due_iff actor id _).mp event) unclaimed
  · have collectable := (activity.tick_collects_iff _ (Or.inl metered.idle)).mp collected
    simp [Activity.isCollectable, metered.interval] at collectable
  · exact absurd event (unfinished ack)

/-- The stopwatch's time is that of one of its inputs. -/
theorem stopwatch_moment (id : T) (insertion : Input T) (inputs : List (Input T)) :
    ∃ latest ∈ insertion :: inputs, (stopwatch id insertion inputs).moment = latest.nowAt id := by
  rcases List.eq_nil_or_concat inputs with rfl | ⟨before, latest, rfl⟩
  · exact ⟨insertion, List.mem_cons_self, rfl⟩
  · exact ⟨latest, by simp, by simp⟩

/-- In time, the stopwatch tracks the id until its first claim. The induction is
on the last input. -/
theorem tracked_run (id : T) (span : Duration) (actor : SchedulerActor T) (insertion : Input T)
    (started : Tracked id span actor (.start (insertion.nowAt id))) (inputs : List (Input T))
    (clocked : Clocked id (insertion :: inputs))
    (undisturbed : Runs.Along step (Undisturbed id) actor inputs)
    (unclaimed : Unclaimed id actor inputs) :
    Tracked id span (actor.run inputs) (stopwatch id insertion inputs) := by
  induction inputs using List.reverseRecOn with
  | nil => exact started
  | append_singleton before input inductionHypothesis =>
    obtain ⟨undisturbedBefore, undisturbedHere, _⟩ := (Runs.along_append _ _ _).mp undisturbed
    obtain ⟨unclaimedBefore, unclaimedHere, _⟩ := (Runs.along_append _ _ _).mp unclaimed
    rw [← List.cons_append] at clocked
    obtain ⟨clockedBefore, _, inTime⟩ := (Runs.clocked_append _ _).mp clocked
    obtain ⟨latest, member, moment⟩ := stopwatch_moment id insertion before
    rw [run_append, stopwatch_append]
    refine tracked_step id span _ _ input
      (inductionHypothesis clockedBefore undisturbedBefore unclaimedBefore) ?_
      undisturbedHere unclaimedHere
    rw [moment]
    exact inTime latest member input List.mem_cons_self

/-- A tick reports nothing. -/
theorem tick_unclaimed (id : T) (actor : SchedulerActor T) (input : Input T)
    (keyed : actor.Keyed) (ticks : input.command = .tick) : id ∉ actor.claimed input := by
  intro reported
  have claims := ((mem_claimed_iff keyed input).mp reported).1
  rw [ticks] at claims
  cases claims

section FirstClaim

variable {id : T} {span : Duration} {actor : SchedulerActor T} {insertion : Input T}
  {inputs : List (Input T)}
  (started : Tracked id span actor (.start (insertion.nowAt id)))
  (clocked : Clocked id (insertion :: inputs))
  (undisturbed : Runs.Along step (Undisturbed id) actor inputs)
include started clocked undisturbed

/-- Every prefix of the run up to the first claim is tracked, and the next input
is not earlier. -/
theorem tracked_prefix (before : List (Input T)) (input : Input T) (later : List (Input T))
    (split : inputs = before ++ input :: later) (unclaimed : Unclaimed id actor before) :
    Tracked id span (actor.run before) (stopwatch id insertion before) ∧
      (stopwatch id insertion before).moment ≤ input.nowAt id := by
  subst split
  obtain ⟨undisturbedBefore, _⟩ := (Runs.along_append _ _ _).mp undisturbed
  rw [← List.cons_append] at clocked
  obtain ⟨clockedBefore, _, inTime⟩ := (Runs.clocked_append _ _).mp clocked
  obtain ⟨latest, member, moment⟩ := stopwatch_moment id insertion before
  refine ⟨tracked_run id span actor insertion started before clockedBefore undisturbedBefore
    unclaimed, ?_⟩
  rw [moment]
  exact inTime latest member input List.mem_cons_self

/-- After a tick, the accumulated time is no more than the time enabled exactly
when the errors of the meter weigh no more than they should. -/
theorem tick_counts_iff (before : List (Input T)) (input : Input T) (later : List (Input T))
    (split : inputs = before ++ input :: later) (unclaimed : Unclaimed id actor before)
    (ticks : input.command = .tick) :
    ((actor.run (before ++ [input])).EntrySatisfies id fun activity =>
        activity.durationDelta ≤ (stopwatch id insertion (before ++ [input])).running) ↔
      (stopwatch id insertion (before ++ [input])).overcounted ≤
        (stopwatch id insertion (before ++ [input])).skipped := by
  obtain ⟨tracked, inTime⟩ :=
    tracked_prefix started clocked undisturbed before input later split unclaimed
  have undisturbedHere : Undisturbed id (actor.run before) input :=
    (Runs.along_iff_split actor inputs).mp undisturbed before input later split
  have lapped := tracked_step id span _ _ input tracked inTime undisturbedHere
    (tick_unclaimed id _ input tracked.1 ticks)
  obtain ⟨_, _, activity, present, metered⟩ := lapped
  have outweighs := (stopwatch id insertion before).counted_le_iff (input.nowAt id)
    tracked.2.1 inTime
  rw [ticks, signalOf] at metered
  rw [run_append, stopwatch_append, ticks, signalOf, ← outweighs, ← metered.counted]
  exact entry_satisfies_iff present

omit started clocked undisturbed in
/-- Errors that are made up for at every tick are made up for after every input. -/
theorem made_up_prefix (madeUp : DisabledTimeMadeUp id insertion actor inputs)
    (before later : List (Input T)) (split : inputs = before ++ later)
    (unclaimed : Unclaimed id actor before) :
    (stopwatch id insertion before).overcounted ≤ (stopwatch id insertion before).skipped := by
  induction before using List.reverseRecOn generalizing later with
  | nil => exact Nat.le_refl 0
  | append_singleton front input inductionHypothesis =>
    obtain ⟨unclaimedFront, _⟩ := (Runs.along_append _ _ _).mp unclaimed
    have splitFront : inputs = front ++ input :: later := by simpa using split
    by_cases ticks : input.command = .tick
    · exact madeUp front input later splitFront unclaimedFront ticks
    · have between : signalOf id input.command ≠ .lap := mt (signal_lap_iff id _).mp ticks
      obtain ⟨_, _, sameOver, sameSkipped⟩ :=
        (stopwatch id insertion front).signal_between (input.nowAt id) _ between
      rw [stopwatch_append, sameOver, sameSkipped]
      exact inductionHypothesis (input :: later) splitFront unclaimedFront

end FirstClaim

/-- From its insertion to its first claim, the time an interval activity
accumulates is no more than the time it was enabled, at every tick and at that
claim, exactly when at every tick the disabled time it counted is made up for by
enabled time it left out.

The activity is a stopwatch's meter as long as it is left alone. -/
theorem enabled_time_iff (id : T) (history : List (Input T)) (insertion : Input T)
    (activity : Activity T) (span : Duration) (inputs : List (Input T))
    (inserts : (empty.run history).inserts id insertion)
    (present : (empty.run (history ++ [insertion])).activities.lookup id = some activity)
    (target : activity.activationTarget = .duration span)
    (clocked : Clocked id (insertion :: inputs))
    (undisturbed : Runs.Along step (Undisturbed id)
      (empty.run (history ++ [insertion])) inputs) :
    CountsEnabledTime id insertion span (empty.run (history ++ [insertion])) inputs ↔
      DisabledTimeMadeUp id insertion (empty.run (history ++ [insertion])) inputs := by
  have started : Tracked id span (empty.run (history ++ [insertion]))
      (.start (insertion.nowAt id)) := by
    refine ⟨keyed_run _, Stopwatch.start_balanced _, activity, present, ?_⟩
    obtain ⟨spec, event⟩ := inserts
    rw [run_append, run_cons, run_nil, lookup_step, event] at present
    obtain rfl : Activity.new spec (insertion.readings id) = activity := Option.some.inj present
    refine ⟨rfl, rfl, rfl, rfl, target, ?_⟩
    rcases from_schedule_kind (insertion.readings id).rng spec.schedule with
      ⟨date, _, dated⟩ | ⟨interval, _⟩
    · have both : ActivationTarget.date date = .duration span := dated.symm.trans target
      cases both
    · exact interval
  constructor
  · intro counts before input later split unclaimed ticks
    exact (tick_counts_iff started clocked undisturbed before input later split unclaimed ticks).mp
      ((counts before input later split unclaimed).1 ticks)
  · intro madeUp before input later split unclaimed
    constructor
    · intro ticks
      exact (tick_counts_iff started clocked undisturbed before input later split unclaimed
        ticks).mpr (madeUp before input later split unclaimed ticks)
    · intro reported
      obtain ⟨⟨keyed, balanced, waiting, held, metered⟩, _⟩ :=
        tracked_prefix started clocked undisturbed before input later split unclaimed
      obtain ⟨_, due⟩ := (present_claimed_iff keyed input held).mp reported
      have reached : span ≤ waiting.durationDelta := by
        simpa [Activity.isAtTarget, metered.target] using
          ((waiting.should_run_iff _).mp due).2
      have outweighed := made_up_prefix madeUp before (input :: later) split unclaimed
      calc span ≤ waiting.durationDelta := reached
        _ = (stopwatch id insertion before).counted := metered.counted
        _ ≤ (stopwatch id insertion before).running := balanced.counted_le outweighed
        _ ≤ (stopwatch id insertion (before ++ [input])).running := by
          rw [stopwatch_append]
          exact Stopwatch.running_mono _ _ _

/-- The insertion of an activity with an interval of 100, at 0. -/
def intervalAt0 : Input Nat := ⟨.register ⟨1, .fixedInterval 100⟩, fun _ => .least 0 0⟩

/-- Disabled from 10 to 60, with ticks at 50 and 100: the first leaves out 10
that were enabled, and the second counts 10 that were disabled. -/
theorem enabled_time_made_up :
    CountsEnabledTime 1 intervalAt0 100 (empty.run [intervalAt0])
      [⟨.setEnabled 1 false, fun _ => .least 10 10⟩, ⟨.tick, fun _ => .least 50 50⟩,
        ⟨.setEnabled 1 true, fun _ => .least 60 60⟩, ⟨.tick, fun _ => .least 100 100⟩] := by
  refine (enabled_time_iff 1 [] intervalAt0 _ 100 _ (by decide) rfl rfl (by decide)
    (by decide)).mpr ?_
  intro before input later split _ ticks
  rcases before with _ | ⟨disable, _ | ⟨tick, _ | ⟨enable, _ | ⟨last, rest⟩⟩⟩⟩ <;>
    simp only [List.nil_append, List.cons_append, List.cons.injEq] at split
  · obtain ⟨rfl, _⟩ := split
    cases ticks
  · obtain ⟨rfl, rfl, _⟩ := split
    decide
  · obtain ⟨rfl, rfl, rfl, _⟩ := split
    cases ticks
  · obtain ⟨rfl, rfl, rfl, rfl, _⟩ := split
    decide
  · simp at split

/-- Disabled from 10 to 90 between two ticks: the tick at 100 counts all 100, and
the activity is claimed after 20 enabled. -/
theorem disabled_time_counted :
    ¬ CountsEnabledTime 1 intervalAt0 100 (empty.run [intervalAt0])
      [⟨.setEnabled 1 false, fun _ => .least 10 10⟩,
        ⟨.setEnabled 1 true, fun _ => .least 90 90⟩, ⟨.tick, fun _ => .least 100 100⟩,
        ⟨.claimDue, fun _ => .least 100 100⟩] := by
  intro counts
  have claimed := (counts [_, _, _] ⟨.claimDue, fun _ => .least 100 100⟩ [] rfl (by decide)).2
  exact absurd (claimed (by decide)) (by decide)

end SchedulerActor

end Ritualist
