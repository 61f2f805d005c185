import Ritualist.Timing

/-!
# Dispatching an activity that is running

A dispatch stores its request in the activation target. The acknowledgement of a
run writes the target as well, and it does not look at what is there. So a
dispatch of a running activity is overwritten: after the acknowledgement the
activity waits for its schedule or its snooze as if it had never been dispatched.
`dispatch_taken_iff` says what the next claim does then: it reports the activity
exactly when the ticks since the acknowledgement counted the whole span.
-/

namespace Ritualist

universe u
variable {T : Type u} [DecidableEq T]

omit [DecidableEq T] in
/-- The target an acknowledgement gives to an activity that remains. -/
def Activity.restartTarget (activity : Activity T) (ack : AckMessage) (reading : Reading) :
    ActivationTarget :=
  match ack with
  | .snooze span => .duration span
  | .done => .fromSchedule reading.rng activity.spec.schedule

namespace SchedulerActor

/-- The time that the ticks among some inputs count for a waiting id, whose last
tick was read at an instant. -/
def counted (id : T) : Instant → List (Input T) → Duration
  | _, [] => 0
  | lastTick, input :: rest =>
    if input.command = .tick
    then (input.nowAt id).saturatingDurationSince lastTick + counted id (input.nowAt id) rest
    else counted id lastTick rest

/-- The id is present, enabled and running, with a specification. -/
def Flying (id : T) (spec : ActivitySpec T) (actor : SchedulerActor T) : Prop :=
  actor.Keyed ∧ ∃ flying, actor.activities.lookup id = some flying ∧ flying.state = .running ∧
    flying.spec = spec

/-- The id is present and waits for a span, with some time accumulated since a
tick instant. -/
def Waiting (id : T) (span : Duration) (lastTick : Instant) (delta : Duration)
    (actor : SchedulerActor T) : Prop :=
  actor.Keyed ∧ ∃ waiting, actor.activities.lookup id = some waiting ∧
    waiting.state.isScheduled = true ∧ waiting.activationTarget = .duration span ∧
    waiting.lastTick = lastTick ∧ waiting.durationDelta = delta

/-- An enabled activity that is left aside stays present. -/
theorem aside_present (id : T) (actor : SchedulerActor T) (input : Input T) (before : Activity T)
    (present : actor.activities.lookup id = some before) (enabled : before.state.isDisabled = false)
    (settled : before.state.Settled) (aside : Aside id actor input) :
    ∃ after, (actor.step input).activities.lookup id = some after ∧
      (actor.eventAt id input.command).Moves (input.readings id) before after := by
  rcases present_step present aside.1.2.1 with moved | ⟨_, ⟨_, collected⟩ | ⟨ack, event, _⟩⟩
  · exact moved
  · have collectable := (before.tick_collects_iff _ settled).mp collected
    simp [Activity.isCollectable, enabled] at collectable
  · exact absurd event (aside.1.2.unfinished ack)

/-- A running activity that is left aside goes on running. -/
theorem flying_step (id : T) (spec : ActivitySpec T) (actor : SchedulerActor T) (input : Input T)
    (flies : Flying id spec actor) (aside : Aside id actor input) :
    Flying id spec (actor.step input) := by
  obtain ⟨keyed, before, present, running, sameSpec⟩ := flies
  have bare : before.state.stripped = .running := by rw [running]; rfl
  obtain ⟨after, held, move⟩ := aside_present id actor input before present
    (by rw [running]; rfl) (Or.inr (Or.inl bare)) aside
  refine ⟨keyed_step input keyed, after, held, ?_, move.spec_eq.trans sameSpec⟩
  rcases aside.moves move with ⟨_, survives, rfl⟩ | ⟨_, rfl⟩ | ⟨_, rfl⟩
  · exact (before.tick_state_of_survives _ survives).trans running
  · rw [Activity.claim_eq]
    split
    · rfl
    · exact running
  · exact running

/-- A dispatch of a running activity leaves it running. -/
theorem dispatched_flying (id : T) (spec : ActivitySpec T) (actor : SchedulerActor T)
    (dispatching : Input T) (flies : Flying id spec actor)
    (dispatches : dispatching.command = .setImmediate id) :
    Flying id spec (actor.step dispatching) := by
  obtain ⟨keyed, before, present, running, sameSpec⟩ := flies
  refine ⟨keyed_step dispatching keyed, before.setImmediate (dispatching.readings id), ?_, ?_, ?_⟩
  · rw [lookup_step, present, dispatches]
    simp [eventAt, Event.advance]
  · rw [Activity.set_immediate_eq]; exact running
  · rw [Activity.set_immediate_eq]; exact sameSpec

/-- What an acknowledgement leaves of an activity that it restarts: it waits for
the span the acknowledgement asks for, whatever its target was. -/
theorem restarted_waiting (id : T) (actor : SchedulerActor T) (acknowledging : Input T)
    (ack : AckMessage) (flying : Activity T) (span : Duration) (keyed : actor.Keyed)
    (present : actor.activities.lookup id = some flying)
    (acknowledges : acknowledging.command = .finish id ack)
    (restarts : flying.restartTarget ack (acknowledging.readings id) = .duration span) :
    Waiting id span flying.lastTick 0 (actor.step acknowledging) := by
  refine ⟨keyed_step acknowledging keyed, flying.finish ack (acknowledging.readings id), ?_⟩
  rw [lookup_step, present, acknowledges]
  cases ack with
  | snooze period =>
    obtain rfl : period = span := ActivationTarget.duration.inj restarts
    simp [eventAt, Event.advance, Activity.finish_snooze, ActivityState.isScheduled]
  | done =>
    have interval : flying.spec.schedule.isOneShot = false := by
      rcases from_schedule_kind (acknowledging.readings id).rng flying.spec.schedule with
        ⟨date, _, dated⟩ | ⟨interval, _⟩
      · have both : ActivationTarget.date date = .duration span := dated.symm.trans restarts
        cases both
      · exact interval
    have target : ActivationTarget.fromSchedule (acknowledging.readings id).rng
      flying.spec.schedule = .duration span := restarts
    simp [eventAt, Event.advance, Activity.finish_done, interval, target,
      ActivityState.isScheduled]

/-- A waiting activity that is left aside and not reported accumulates the time its
ticks count. -/
theorem waiting_run (id : T) (span : Duration) (actor : SchedulerActor T) (inputs : List (Input T))
    (lastTick : Instant) (delta : Duration) (waits : Waiting id span lastTick delta actor)
    (aside : Runs.Along step (fun reached input => Aside id reached input ∧
      id ∉ reached.claimed input) actor inputs) :
    ∃ latest, Waiting id span latest (delta + counted id lastTick inputs) (actor.run inputs) := by
  induction inputs generalizing actor lastTick delta with
  | nil => exact ⟨lastTick, waits⟩
  | cons input rest inductionHypothesis =>
    obtain ⟨⟨asideHere, unclaimed⟩, asideRest⟩ := aside
    obtain ⟨keyed, before, present, scheduled, target, ticked, accumulated⟩ := waits
    have enabled := ActivityState.scheduled_enabled before.state scheduled
    have settled := ActivityState.scheduled_settled before.state scheduled
    obtain ⟨after, held, move⟩ := aside_present id actor input before present enabled settled asideHere
    have keyedAfter := keyed_step input keyed
    by_cases ticks : input.command = .tick
    · rcases asideHere.moves move with ⟨_, _, rfl⟩ | ⟨claims, _⟩ | ⟨unticked, _⟩
      · rw [Activity.tick_waiting _ _ scheduled] at held
        obtain ⟨latest, waiting⟩ := inductionHypothesis (actor.step input) (input.nowAt id)
          (delta + (input.nowAt id - lastTick))
          ⟨keyedAfter, _, held, scheduled, target, rfl, by rw [← accumulated, ← ticked]; rfl⟩
          asideRest
        refine ⟨latest, ?_⟩
        simp only [counted, ticks, if_true, Instant.saturatingDurationSince]
        rwa [← Nat.add_assoc]
      · rw [ticks] at claims
        cases claims
      · exact absurd ticks unticked
    · -- nothing but a tick changes an activity that is left aside and not reported
      have same : after = before := by
        rcases asideHere.moves move with ⟨ticked, _⟩ | ⟨claims, rfl⟩ | ⟨_, rfl⟩
        · exact absurd ticked ticks
        · rw [Activity.claim_eq, if_neg (unclaimed_not_due keyed input present claims unclaimed)]
        · rfl
      rw [same] at held
      have tail := inductionHypothesis (actor.step input) lastTick delta
        ⟨keyedAfter, before, held, scheduled, target, ticked, accumulated⟩ asideRest
      rw [run_cons]
      simpa only [counted, ticks, if_false] using tail

/-- A claim reports a waiting id exactly when it accumulated its span. -/
theorem waiting_claimed_iff (id : T) (span : Duration) (actor : SchedulerActor T)
    (lastTick : Instant) (delta : Duration) (claiming : T → Reading)
    (waits : Waiting id span lastTick delta actor) :
    id ∈ actor.claimed ⟨.claimDue, claiming⟩ ↔ span ≤ delta := by
  obtain ⟨keyed, waiting, present, scheduled, target, _, rfl⟩ := waits
  rw [present_claimed_iff keyed _ present]
  constructor
  · rintro ⟨_, due⟩
    simpa [Activity.isAtTarget, target] using ((waiting.should_run_iff _).mp due).2
  · intro elapsed
    refine ⟨rfl, (waiting.should_run_iff _).mpr ⟨scheduled, ?_⟩⟩
    simpa [Activity.isAtTarget, target] using elapsed

/-- An enabled running activity is dispatched, and its run is acknowledged later
with nothing else done to it between. The acknowledgement restarts it with a
span: it is a snooze, or the schedule is an interval. -/
structure DispatchedInFlight (id : T) (history : List (Input T)) (activity : Activity T)
    (dispatching : Input T) (between : List (Input T)) (acknowledging : Input T)
    (ack : AckMessage) (span : Duration) : Prop where
  present : (empty.run history).activities.lookup id = some activity
  running : activity.state = .running
  dispatches : dispatching.command = .setImmediate id
  aside : Runs.Along step (Aside id) (empty.run (history ++ [dispatching])) between
  acknowledges : acknowledging.command = .finish id ack
  restarts : activity.restartTarget ack (acknowledging.readings id) = .duration span

/-- After a dispatch in flight and the acknowledgement of the run, the first
claim reports the activity exactly when the ticks between them counted the span
that the acknowledgement asked for, from the last tick before it.

The acknowledgement finds the activity running and overwrites the target that the
dispatch had set, so that the dispatch has no part in the condition. -/
theorem dispatch_taken_iff (id : T) (history : List (Input T)) (activity : Activity T)
    (dispatching : Input T) (between : List (Input T)) (acknowledging : Input T)
    (ack : AckMessage) (span : Duration) (after : List (Input T)) (claiming : T → Reading)
    (scenario : DispatchedInFlight id history activity dispatching between acknowledging ack span)
    (aside : Runs.Along step (fun reached input => Aside id reached input ∧
        input.command ≠ .claimDue)
      (empty.run (history ++ dispatching :: between ++ [acknowledging])) after) :
    ∃ flying, (empty.run (history ++ dispatching :: between)).activities.lookup id = some flying ∧
      (id ∈ (empty.run (history ++ dispatching :: between ++ [acknowledging] ++ after)).claimed
          ⟨.claimDue, claiming⟩ ↔
        span ≤ counted id flying.lastTick after) := by
  obtain ⟨present, running, dispatches, asideBetween, acknowledges, restarts⟩ := scenario
  have dispatched : Flying id activity.spec (empty.run (history ++ [dispatching])) := by
    rw [run_append, run_cons, run_nil]
    exact dispatched_flying id activity.spec _ dispatching
      ⟨keyed_run history, activity, present, running, rfl⟩ dispatches
  have flies := Runs.invariant_after (flying_step id activity.spec) dispatched asideBetween
  have reached : empty.run (history ++ dispatching :: between) =
      (empty.run (history ++ [dispatching])).run between := by simp
  obtain ⟨keyed, flying, held, _, sameSpec⟩ := flies
  change ((empty.run (history ++ [dispatching])).run between).activities.lookup id = _ at held
  rw [← reached] at held
  refine ⟨flying, held, ?_⟩
  have sameRestart : flying.restartTarget ack (acknowledging.readings id) = .duration span := by
    rw [← restarts]
    unfold Activity.restartTarget
    rw [sameSpec]
  have restarted := restarted_waiting id _ acknowledging ack flying span (keyed_run _) held
    acknowledges sameRestart
  rw [run_append, run_cons, run_nil] at aside
  have unreported : Runs.Along step (fun reached input => Aside id reached input ∧
      id ∉ reached.claimed input)
      ((empty.run (history ++ dispatching :: between)).step acknowledging) after := by
    apply aside.mono
    intro reached input admitted
    exact ⟨admitted.1, by simp [claimed_eq_nil reached input admitted.2]⟩
  obtain ⟨latest, waits⟩ := waiting_run id span _ after flying.lastTick 0 restarted unreported
  rw [Nat.zero_add] at waits
  rw [run_append, run_append, run_cons, run_nil]
  exact waiting_claimed_iff id span _ latest _ claiming waits

/-- An activity with an interval of 100, running since 100. -/
def runningAt100 : List (Input Nat) :=
  [⟨.register ⟨1, .fixedInterval 100⟩, fun _ => .least 0 0⟩,
    ⟨.tick, fun _ => .least 100 100⟩, ⟨.claimDue, fun _ => .least 100 100⟩]

/-- Dispatched at 110 and acknowledged at 120, it is due again at 200. -/
theorem dispatch_taken_late :
    1 ∈ (empty.run (runningAt100 ++ ⟨.setImmediate 1, fun _ => .least 110 110⟩ :: [] ++
        [⟨.finish 1 .done, fun _ => .least 120 120⟩] ++
        [⟨.tick, fun _ => .least 200 200⟩])).claimed ⟨.claimDue, fun _ => .least 200 200⟩ := by
  obtain ⟨flying, held, taken⟩ := dispatch_taken_iff 1 runningAt100 _
    ⟨.setImmediate 1, fun _ => .least 110 110⟩ [] ⟨.finish 1 .done, fun _ => .least 120 120⟩ .done
    100 [⟨.tick, fun _ => .least 200 200⟩] (fun _ => .least 200 200)
    ⟨rfl, rfl, rfl, trivial, rfl, rfl⟩ (by decide)
  obtain rfl := Option.some.inj held
  exact taken.mpr (by decide)

/-- Dispatched at 110 and acknowledged at 120, it is not reported at 121: the
acknowledgement has overwritten the dispatch. -/
theorem dispatch_lost :
    (∃ activity, DispatchedInFlight 1 runningAt100 activity
        ⟨.setImmediate 1, fun _ => .least 110 110⟩ [] ⟨.finish 1 .done, fun _ => .least 120 120⟩
        .done 100) ∧
      1 ∉ (empty.run (runningAt100 ++ ⟨.setImmediate 1, fun _ => .least 110 110⟩ :: [] ++
        [⟨.finish 1 .done, fun _ => .least 120 120⟩] ++
        [⟨.tick, fun _ => .least 121 121⟩])).claimed ⟨.claimDue, fun _ => .least 121 121⟩ :=
  ⟨⟨_, rfl, rfl, rfl, trivial, rfl, rfl⟩, by decide⟩

end SchedulerActor

end Ritualist
