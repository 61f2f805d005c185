import Ritualist.Claiming
import Ritualist.DueTime

/-!
# A dispatch fires once

A dispatch writes a target that is reached already, of the kind that was there: no
time at all, or the present date. Nothing but another dispatch changes it before
the claim, so the next claim reports a waiting activity, and reports it once. The
claim itself keeps the target, but a running activity is passed over, and the
acknowledgement that ends the run writes a new target from the schedule.

What the acknowledgement leaves of an interval activity is determined by its
specification, its creation, the ticks, and the acknowledgement's own reading.
Whether the run was dispatched cannot be seen in it. For a one-shot the date of the
dispatch must not be ahead of the claim, which a wall clock that jumps back makes
possible.
-/

namespace Ritualist

universe u
variable {T : Type u} [DecidableEq T]

omit [DecidableEq T] in
/-- The target a dispatch at a date leaves: reached at that date, and of the same kind. -/
def ActivationTarget.immediate (target : ActivationTarget) (date : DateTime) : ActivationTarget :=
  match target with
  | .duration _ => .duration 0
  | .date _ => .date date

/-- Of two dispatches the later one stands. -/
theorem immediate_again (target : ActivationTarget) (first second : DateTime) :
    (target.immediate first).immediate second = target.immediate second := by
  cases target <;> rfl

omit [DecidableEq T] in
/-- A dispatch changes the target alone. -/
theorem set_immediate_target (activity : Activity T) (reading : Reading) :
    activity.setImmediate reading =
      { activity with activationTarget := activity.activationTarget.immediate reading.nowUtc } :=
  activity.set_immediate_eq reading

namespace SchedulerActor

/-- The input dispatches the id, or is no command for it and no claim. -/
def DispatchedOrAside (id : T) (actor : SchedulerActor T) (input : Input T) : Prop :=
  input.command = .setImmediate id ∨ Aside id actor input ∧ input.command ≠ .claimDue

instance dispatchedOrAsideDecidable (id : T) (actor : SchedulerActor T) (input : Input T) :
    Decidable (DispatchedOrAside id actor input) :=
  inferInstanceAs (Decidable (_ ∨ _))

/-- A dispatch leaves a run alone, and so does what is no command for the id. -/
theorem DispatchedOrAside.leaves {id : T} {actor : SchedulerActor T} {input : Input T}
    (admitted : DispatchedOrAside id actor input) : LeavesRun id actor input := by
  rcases admitted with dispatches | ⟨aside, _⟩
  · constructor
    · rintro ⟨spec, inserted⟩
      rw [(event_set_immediate_iff actor id _).mpr dispatches] at inserted
      cases inserted
    · intro acknowledges
      obtain ⟨ack, acknowledged⟩ := (acknowledges_iff id input).mp acknowledges
      rw [dispatches] at acknowledged
      cases acknowledged
  · exact aside.1.2

/-- What the wall clock showed at the latest dispatch of the id among some inputs,
or earlier if there is none. -/
def latestDispatch (id : T) : DateTime → List (Input T) → DateTime
  | latest, [] => latest
  | latest, input :: rest =>
    latestDispatch id (if input.command = .setImmediate id then input.wallAt id else latest) rest

/-- The id waits with an immediate target, of the kind of another target. -/
def Primed (id : T) (target : ActivationTarget) (date : DateTime) (actor : SchedulerActor T) :
    Prop :=
  actor.Keyed ∧ ∃ primed, actor.activities.lookup id = some primed ∧
    primed.state.isScheduled = true ∧ primed.activationTarget = target.immediate date

/-- A dispatch of a waiting activity primes it. -/
theorem dispatch_primes (id : T) (target : ActivationTarget) (actor : SchedulerActor T)
    (dispatching : Input T) (activity : Activity T) (keyed : actor.Keyed)
    (present : actor.activities.lookup id = some activity)
    (waiting : activity.state.isScheduled = true)
    (sameKind : ∀ date, activity.activationTarget.immediate date = target.immediate date)
    (dispatches : dispatching.command = .setImmediate id) :
    Primed id target (dispatching.wallAt id) (actor.step dispatching) := by
  refine ⟨keyed_step dispatching keyed, activity.setImmediate (dispatching.readings id), ?_, ?_, ?_⟩
  · rw [lookup_step, present, dispatches]
    simp [eventAt, Event.advance]
  · rw [set_immediate_target]
    exact waiting
  · rw [set_immediate_target]
    exact sameKind _

/-- A primed activity stays primed while it is only dispatched again. -/
theorem primed_step (id : T) (target : ActivationTarget) (date : DateTime)
    (actor : SchedulerActor T) (input : Input T) (primes : Primed id target date actor)
    (admitted : DispatchedOrAside id actor input) :
    Primed id target (if input.command = .setImmediate id then input.wallAt id else date)
      (actor.step input) := by
  obtain ⟨keyed, before, present, waiting, immediate⟩ := primes
  by_cases dispatches : input.command = .setImmediate id
  · rw [if_pos dispatches]
    apply dispatch_primes id target actor input before keyed present waiting _ dispatches
    intro later
    rw [immediate, immediate_again]
  · rw [if_neg dispatches]
    obtain ⟨aside, unclaimed⟩ := admitted.resolve_left dispatches
    obtain ⟨after, held, move⟩ := aside_present id actor input before present
      (ActivityState.scheduled_enabled _ waiting) (ActivityState.scheduled_settled _ waiting) aside
    have sameTarget := move.target_eq aside.1.undispatched aside.1.2.unfinished
    refine ⟨keyed_step input keyed, after, held, ?_, sameTarget.trans immediate⟩
    rcases aside.moves move with ⟨_, survives, rfl⟩ | ⟨claims, _⟩ | ⟨_, rfl⟩
    · rw [before.tick_state_of_survives _ survives]
      exact waiting
    · exact absurd claims unclaimed
    · exact waiting

/-- The latest dispatch of a run is the one that stands after it. -/
theorem primed_run (id : T) (target : ActivationTarget) (date : DateTime)
    (actor : SchedulerActor T) (inputs : List (Input T)) (primes : Primed id target date actor)
    (admitted : Runs.Along step (DispatchedOrAside id) actor inputs) :
    Primed id target (latestDispatch id date inputs) (actor.run inputs) := by
  induction inputs generalizing actor date with
  | nil => exact primes
  | cons input rest inductionHypothesis =>
    have primesHere := primed_step id target date actor input primes admitted.1
    exact inductionHypothesis _ (actor.step input) primesHere admitted.2

/-- A claim reports a primed activity once, if the wall clock is not behind the
date of the dispatch or the target is a span. -/
theorem primed_claimed (id : T) (target : ActivationTarget) (date : DateTime)
    (actor : SchedulerActor T) (claiming : T → Reading) (primes : Primed id target date actor)
    (notBehind : ∀ moment, target = .date moment → date ≤ (claiming id).nowUtc) :
    (actor.claimed ⟨.claimDue, claiming⟩).count id = 1 := by
  obtain ⟨keyed, primed, present, waiting, immediate⟩ := primes
  have reached : primed.isAtTarget (claiming id) = true := by
    cases kind : target with
    | duration span => simp [Activity.isAtTarget, immediate, kind, ActivationTarget.immediate]
    | date moment =>
      simpa [Activity.isAtTarget, immediate, kind, ActivationTarget.immediate] using
        notBehind moment kind
  have reported : id ∈ actor.claimed ⟨.claimDue, claiming⟩ :=
    (mem_claimed_iff keyed _).mpr
      ⟨rfl, primed, present, (primed.should_run_iff _).mpr ⟨waiting, reached⟩⟩
  exact List.count_eq_one_of_mem (claimed_nodup actor _ keyed) reported

/-! ### What the acknowledgement leaves -/

/-- The id holds the activity, in whatever state, with its latest tick at an instant. -/
def Continues (id : T) (activity : Activity T) (latest : Instant) (actor : SchedulerActor T) :
    Prop :=
  ∃ held, actor.activities.lookup id = some held ∧ held.state.Settled ∧
    held.spec = activity.spec ∧ held.createdAt = activity.createdAt ∧ held.lastTick = latest

/-- An interval activity is still there after any inputs that neither insert nor
acknowledge it, and only its ticks have moved its tick instant. -/
theorem continues_run (id : T) (activity : Activity T) (latest : Instant)
    (actor : SchedulerActor T) (inputs : List (Input T))
    (interval : activity.spec.schedule.isOneShot = false)
    (continues : Continues id activity latest actor)
    (leaves : Runs.Along step (LeavesRun id) actor inputs) :
    Continues id activity (latestTick id latest inputs) (actor.run inputs) := by
  induction inputs generalizing actor latest with
  | nil => exact continues
  | cons input rest inductionHypothesis =>
    obtain ⟨before, present, settled, sameSpec, sameCreation, ticked⟩ := continues
    refine inductionHypothesis _ (actor.step input) ?_ leaves.2
    rcases present_step present leaves.1.1 with
      ⟨after, held, move⟩ | ⟨_, ⟨_, collected⟩ | ⟨ack, event, _⟩⟩
    · obtain ⟨keptSpec, keptCreation⟩ := move.created_eq
      refine ⟨after, held, move.settled settled, keptSpec.trans sameSpec,
        keptCreation.trans sameCreation, ?_⟩
      by_cases ticks : input.command = .tick
      · rw [(event_tick_iff actor id _).mpr ticks] at move
        rw [if_pos ticks]
        exact move.last_tick_now
      · rw [if_neg ticks, ← ticked]
        exact move.last_tick_eq fun event => ticks ((event_tick_iff actor id _).mp event)
    · have collectable := (before.tick_collects_iff _ settled).mp collected
      rw [Activity.isCollectable, sameSpec, interval] at collectable
      cases collectable
    · exact absurd event (leaves.1.unfinished ack)

/-- An acknowledgement restarts an interval activity from its specification, in
whatever state and with whatever target it finds it. -/
theorem continues_done (id : T) (activity : Activity T) (latest : Instant)
    (actor : SchedulerActor T) (finishing : Input T)
    (interval : activity.spec.schedule.isOneShot = false)
    (continues : Continues id activity latest actor)
    (done : finishing.command = .finish id .done) :
    (actor.step finishing).activities.lookup id =
      some { activity with
        state := .idle
        durationDelta := 0
        activationTarget :=
          .fromSchedule (finishing.readings id).rng activity.spec.schedule
        lastTick := latest
        lastRunAt := some (finishing.wallAt id) } := by
  obtain ⟨held, present, _, sameSpec, sameCreation, rfl⟩ := continues
  rw [lookup_step, present, done]
  simp [eventAt, Event.advance, Activity.finish_done, sameSpec, interval, ← sameCreation,
    Input.wallAt]

/-- A waiting activity is dispatched, and perhaps dispatched again, before a claim.
The claim reads no earlier date than the last dispatch, if the target is a date. -/
structure DispatchedWaiting (id : T) (history : List (Input T)) (activity : Activity T)
    (dispatching : Input T) (between : List (Input T)) (claiming : T → Reading) : Prop where
  present : (empty.run history).activities.lookup id = some activity
  waiting : activity.state = .idle ∨ ∃ duration, activity.state = .snoozed duration
  dispatches : dispatching.command = .setImmediate id
  admitted : Runs.Along step (DispatchedOrAside id) (empty.run (history ++ [dispatching])) between
  notBehind : ∀ date, activity.activationTarget = .date date →
    latestDispatch id (dispatching.wallAt id) between ≤ (claiming id).nowUtc

/-- A dispatch fires once. The next claim reports a dispatched waiting activity
exactly once, and no claim after it reports it again before it is acknowledged or
inserted anew. And a run of an interval activity that is done leaves it idle, with
no time accumulated and a target from its schedule: as it was before the dispatch
but for its latest tick and its last run. -/
theorem dispatch_fires_once (id : T) (history : List (Input T)) (activity : Activity T)
    (dispatching : Input T) (between : List (Input T)) (claiming : T → Reading)
    (scenario : DispatchedWaiting id history activity dispatching between claiming) :
    ((empty.run (history ++ dispatching :: between)).claimed ⟨.claimDue, claiming⟩).count id = 1 ∧
      ∀ later, Runs.Along step (LeavesRun id)
          (empty.run (history ++ dispatching :: between ++ [⟨.claimDue, claiming⟩])) later →
        Runs.Along step (fun reached input => id ∉ reached.claimed input)
            (empty.run (history ++ dispatching :: between ++ [⟨.claimDue, claiming⟩])) later ∧
          ∀ finishing, activity.spec.schedule.isOneShot = false →
            finishing.command = .finish id .done →
              (empty.run (history ++ dispatching :: between ++ ⟨.claimDue, claiming⟩ :: later ++
                  [finishing])).activities.lookup id =
                some { activity with
                  state := .idle
                  durationDelta := 0
                  activationTarget :=
                    .fromSchedule (finishing.readings id).rng activity.spec.schedule
                  lastTick := latestTick id activity.lastTick
                    (dispatching :: between ++ ⟨.claimDue, claiming⟩ :: later)
                  lastRunAt := some (finishing.wallAt id) } := by
  obtain ⟨present, waiting, dispatches, admitted, notBehind⟩ := scenario
  have keyed : (empty.run history : SchedulerActor T).Keyed := keyed_run history
  have scheduled := (ActivityState.scheduled_iff activity.state).mpr waiting
  have reached : empty.run (history ++ dispatching :: between) =
      ((empty.run history).step dispatching).run between := by simp
  rw [run_append, run_cons, run_nil] at admitted
  have primed := dispatch_primes id activity.activationTarget _ dispatching activity keyed present
    scheduled (fun _ => rfl) dispatches
  have primes := primed_run id activity.activationTarget _ _ between primed admitted
  have once := primed_claimed id activity.activationTarget _ _ claiming primes notBehind
  rw [← reached] at once
  refine ⟨once, fun later leaves => ⟨?_, ?_⟩⟩
  · have reported := List.count_pos_iff.mp (by rw [once]; exact Nat.zero_lt_one)
    have flies := claim_in_flight id _ claiming (keyed_run _) reported
    rw [run_append, run_cons, run_nil] at leaves ⊢
    exact in_flight_along id _ later flies leaves
  · intro finishing interval done
    have leavesAll : Runs.Along step (LeavesRun id) (empty.run history)
        (dispatching :: between ++ ⟨.claimDue, claiming⟩ :: later) := by
      refine (Runs.along_append _ _ _).mpr ⟨⟨?_, ?_⟩, ?_, ?_⟩
      · exact DispatchedOrAside.leaves (Or.inl dispatches)
      · exact admitted.mono fun _ _ admittedHere => admittedHere.leaves
      · simp [LeavesRun, inserts, eventAt, Acknowledges, acknowledged]
      · rw [run_append, run_append, run_cons, run_nil] at leaves
        exact leaves
    have continues := continues_run id activity activity.lastTick _ _ interval
      ⟨activity, present, settled_run history id activity present, rfl, rfl, rfl⟩ leavesAll
    have finished := continues_done id activity _ _ finishing interval continues done
    rw [← run_nil (step _ finishing), ← run_cons, ← run_append, ← run_append] at finished
    simpa using finished

/-- An interval of 100 with 30 of it accumulated. -/
def thirtyOf100 : List (Input Nat) :=
  [⟨.register ⟨1, .fixedInterval 100⟩, fun _ => .least 0 0⟩, ⟨.tick, fun _ => .least 30 30⟩]

/-- Dispatched at 40 and at 60, claimed at 60 and done at 110, it is idle with its
whole interval before it. -/
theorem dispatched_interval_done :
    (empty.run (thirtyOf100 ++ ⟨.setImmediate 1, fun _ => .least 40 40⟩ ::
        [⟨.tick, fun _ => .least 50 50⟩, ⟨.setImmediate 1, fun _ => .least 60 60⟩] ++
        ⟨.claimDue, fun _ => .least 60 60⟩ ::
        [⟨.claimDue, fun _ => .least 61 61⟩, ⟨.tick, fun _ => .least 100 100⟩] ++
        [⟨.finish 1 .done, fun _ => .least 110 110⟩])).activities.lookup 1 =
      some ⟨⟨1, .fixedInterval 100⟩, .idle, 0, .duration 100, 100, some 110, 0⟩ :=
  ((dispatch_fires_once 1 thirtyOf100 ⟨⟨1, .fixedInterval 100⟩, .idle, 30, .duration 100, 30, none, 0⟩
    ⟨.setImmediate 1, fun _ => .least 40 40⟩
    [⟨.tick, fun _ => .least 50 50⟩, ⟨.setImmediate 1, fun _ => .least 60 60⟩]
    (fun _ => .least 60 60) ⟨by decide, Or.inl rfl, rfl, by decide, by simp⟩).2
      [⟨.claimDue, fun _ => .least 61 61⟩, ⟨.tick, fun _ => .least 100 100⟩] (by decide)).2
    ⟨.finish 1 .done, fun _ => .least 110 110⟩ rfl rfl

end SchedulerActor

end Ritualist
