import Ritualist.Independence

/-!
# Interval activities do not read the wall clock

Every operation on an activity reads the wall clock on some branch: to stamp a
creation or a run, to make a date immediate, or to compare it. For an activity
with an interval those readings reach the stamps only, because its target is
never a date. So two runs that differ in their wall-clock readings treat it the
same, and their reports of it are the same.

Stamps are forgotten by `unstamped`, and wall-clock readings by `unwalled`. What
happens to an interval activity commutes with forgetting both.
-/

namespace Ritualist

universe u
variable {T : Type u}

/-- A reading without its wall-clock view. -/
def Reading.unwalled (reading : Reading) : Reading := { reading with nowUtc := 0 }

namespace Activity

/-- An activity without the stamps that nothing consults. -/
def unstamped (activity : Activity T) : Activity T :=
  { activity with lastRunAt := none, createdAt := 0 }

/-- An activity with an interval schedule waits for spans. -/
structure WaitsForSpans (activity : Activity T) : Prop where
  interval : activity.spec.schedule.isOneShot = false
  target : ∃ span, activity.activationTarget = .duration span

/-- Stamps are no part of the state. -/
@[simp] theorem unstamped_state (activity : Activity T) :
    activity.unstamped.state = activity.state := rfl

/-- Activities that differ in stamps wait for spans alike. -/
theorem unstamped_waits {first second : Activity T} (same : first.unstamped = second.unstamped)
    (waits : first.WaitsForSpans) : second.WaitsForSpans := by
  have sameSpec : first.unstamped.spec = second.unstamped.spec := by rw [same]
  have sameTarget : first.unstamped.activationTarget = second.unstamped.activationTarget := by
    rw [same]
  exact ⟨sameSpec ▸ waits.interval, sameTarget ▸ waits.target⟩

/-- Enabling and disabling read no clock. -/
theorem set_enabled_unstamped (activity : Activity T) (enabled : Bool) :
    (activity.setEnabled enabled).unstamped = (activity.unstamped.setEnabled enabled).unstamped := by
  rw [set_enabled_eq, set_enabled_eq]
  rfl

/-- A new activity with an interval schedule waits for spans. -/
theorem new_waits (spec : ActivitySpec T) (reading : Reading)
    (interval : spec.schedule.isOneShot = false) : (new spec reading).WaitsForSpans := by
  refine ⟨interval, ?_⟩
  rcases from_schedule_kind reading.rng spec.schedule with ⟨date, schedule, _⟩ | ⟨_, span, target⟩
  · simp [schedule, ActivitySchedule.isOneShot] at interval
  · exact ⟨span, target⟩

section Spans

variable (activity : Activity T) (reading : Reading) (waits : activity.WaitsForSpans)
include waits

/-- Whether such an activity is due is not a matter of the wall clock. -/
theorem should_run_unwalled :
    activity.shouldRun reading = activity.unstamped.shouldRun reading.unwalled := by
  obtain ⟨span, target⟩ := waits.target
  simp [shouldRun, isAtTarget, unstamped, target]

/-- Ticking such an activity stamps nothing and reads no date. -/
theorem tick_unwalled :
    (activity.tick reading).unstamped =
      (activity.unstamped.tick reading.unwalled).unstamped := by
  simp [tick_eq, isCollectable, unstamped, Reading.unwalled, waits.interval]

/-- Claiming such an activity reads no date. -/
theorem claim_unwalled :
    (activity.claimIfDue reading).1.unstamped =
      (activity.unstamped.claimIfDue reading.unwalled).1.unstamped := by
  rw [claim_eq, claim_eq, ← activity.should_run_unwalled reading waits]
  split <;> rfl

/-- Dispatching such an activity reads no date. -/
theorem set_immediate_unwalled :
    (activity.setImmediate reading).unstamped =
      (activity.unstamped.setImmediate reading.unwalled).unstamped := by
  obtain ⟨span, target⟩ := waits.target
  simp [set_immediate_eq, unstamped, target]

/-- Acknowledging a run of such an activity reads the wall clock for a stamp. -/
theorem finish_unwalled (ack : AckMessage) :
    (activity.finish ack reading).unstamped =
      (activity.unstamped.finish ack reading.unwalled).unstamped := by
  cases ack with
  | snooze span => simp [finish_snooze, unstamped]
  | done => simp [finish_done, unstamped, waits.interval, Reading.unwalled]

end Spans

end Activity

/-- What an event leaves of an activity that waits for spans waits for spans. -/
theorem Event.Moves.waits {event : Event T} {reading : Reading} {before after : Activity T}
    (move : event.Moves reading before after) (waits : before.WaitsForSpans) :
    after.WaitsForSpans := by
  refine ⟨by rw [move.spec_eq]; exact waits.interval, ?_⟩
  obtain ⟨span, target⟩ := waits.target
  cases move with
  | tick _ survives => exact ⟨span, (before.tick_target reading).trans target⟩
  | setEnabled _ enabled => exact ⟨span, by rw [Activity.set_enabled_eq]; exact target⟩
  | claimDue => exact ⟨span, by rw [Activity.claim_eq]; split <;> exact target⟩
  | setImmediate => exact ⟨0, by rw [Activity.set_immediate_eq]; simp [target]⟩
  | finish _ ack remains =>
    cases ack with
    | snooze period => exact ⟨period, by rw [Activity.finish_snooze]⟩
    | done =>
      rw [Activity.finish_done, waits.interval]
      exact (Activity.new_waits before.spec reading waits.interval).target
  | skip => exact ⟨span, target⟩

/-- What an event does to an entry that waits for spans does not depend on the
wall clock, but for stamps. -/
theorem Event.advance_unwalled (event : Event T) (reading : Reading) (entry : Option (Activity T))
    (waits : ∀ activity, entry = some activity → activity.WaitsForSpans) :
    (event.advance reading entry).map Activity.unstamped =
      (event.advance reading.unwalled (entry.map Activity.unstamped)).map Activity.unstamped := by
  cases entry with
  | none => cases event <;> rfl
  | some activity =>
    have span := waits activity rfl
    cases event with
    | insert spec => rfl
    | tick =>
      have same := activity.tick_unwalled reading span
      have sameState : (activity.tick reading).state =
          (activity.unstamped.tick reading.unwalled).state := by
        simpa using congrArg Activity.state same
      simp only [advance, Option.bind_some, Option.map_some, sameState]
      split
      · simpa using same
      · rfl
    | setEnabled enabled => simpa [advance] using activity.set_enabled_unstamped enabled
    | claimDue => simpa [advance] using activity.claim_unwalled reading span
    | setImmediate => simpa [advance] using activity.set_immediate_unwalled reading span
    | finish ack =>
      have same := activity.finish_unwalled reading span ack
      have sameState : (activity.finish ack reading).state =
          (activity.unstamped.finish ack reading.unwalled).state := by
        simpa using congrArg Activity.state same
      simp only [advance, Option.bind_some, Option.map_some, sameState]
      split
      · rfl
      · simpa using same
    | skip => rfl

namespace SchedulerActor

variable [DecidableEq T]

omit [DecidableEq T] in
/-- Two inputs that differ in their wall-clock readings at most. -/
structure SameButWall (first second : Input T) : Prop where
  command : first.command = second.command
  readings : ∀ id, (first.readings id).unwalled = (second.readings id).unwalled

/-- What is compared after a command: what of the id's entry decides its
schedule, and whether the command's reply reports the id. -/
def observe (id : T) (actor : SchedulerActor T) (walk : Walk T) :
    Option (Option (Activity T) × Bool) :=
  some (((actor.stepWalk walk).activities.lookup id).map Activity.unstamped,
    decide (id ∈ actor.claimedWalk walk))

/-- Two actors whose entries of an id differ in stamps at most, and wait for spans. -/
structure AgreeButStamps (id : T) (first second : SchedulerActor T) : Prop where
  keyed : first.Keyed
  keyed' : second.Keyed
  waits : first.EntrySatisfies id Activity.WaitsForSpans
  entry : (first.activities.lookup id).map Activity.unstamped =
    (second.activities.lookup id).map Activity.unstamped

/-- The command inserts no one-shot for the id. -/
def InsertsInterval (id : T) (actor : SchedulerActor T) (walk : Walk T) : Prop :=
  Unbatched walk.input ∧ ∀ spec, actor.eventAt id walk.input.command = .insert spec →
    spec.schedule.isOneShot = false

/-- The entry of the second actor waits for spans as well. -/
theorem AgreeButStamps.waits' {id : T} {first second : SchedulerActor T}
    (agree : AgreeButStamps id first second) :
    second.EntrySatisfies id Activity.WaitsForSpans := by
  intro activity present
  have entry := agree.entry
  rw [present] at entry
  obtain ⟨other, held, same⟩ := Option.map_eq_some_iff.mp entry
  exact Activity.unstamped_waits same (agree.waits other held)

/-- A command that inserts intervals only leaves the id's entry waiting for spans. -/
theorem waits_walk (id : T) (actor : SchedulerActor T) (walk : Walk T)
    (waits : actor.EntrySatisfies id Activity.WaitsForSpans)
    (admitted : InsertsInterval id actor walk) :
    (actor.stepWalk walk).EntrySatisfies id Activity.WaitsForSpans := by
  intro after present
  rw [lookup_walk] at present
  rcases Event.advance_some _ _ _ after present with ⟨spec, inserted, rfl⟩ | ⟨before, held, move⟩
  · exact Activity.new_waits spec _ (admitted.2 spec inserted)
  · exact move.waits (waits before held)

/-- An entry that waits for spans is reported whatever the wall clock reads. -/
theorem claimed_unwalled_iff (id : T) (actor : SchedulerActor T) (walk : Walk T)
    (keyed : actor.Keyed) (waits : actor.EntrySatisfies id Activity.WaitsForSpans) :
    id ∈ actor.claimedWalk walk ↔ walk.input.command = .claimDue ∧
      ∃ activity, (actor.activities.lookup id).map Activity.unstamped = some activity ∧
        activity.shouldRun (walk.input.readings id).unwalled = true := by
  rw [claimed_walk_iff id actor walk keyed]
  refine and_congr_right fun _ => ?_
  constructor
  · rintro ⟨activity, present, due⟩
    refine ⟨activity.unstamped, by rw [present]; rfl, ?_⟩
    rw [← activity.should_run_unwalled _ (waits activity present)]
    exact due
  · rintro ⟨_, mapped, due⟩
    obtain ⟨activity, present, rfl⟩ := Option.map_eq_some_iff.mp mapped
    refine ⟨activity, present, ?_⟩
    rw [activity.should_run_unwalled _ (waits activity present)]
    exact due

/-- Inputs that differ in their wall-clock readings do the same to an entry that
waits for spans, and are replied to the same about it. -/
theorem agree_but_stamps_step (id : T) (first second : SchedulerActor T) (walk walk' : Walk T)
    (agree : AgreeButStamps id first second) (admitted : InsertsInterval id first walk)
    (same : SameButWall walk.input walk'.input) :
    AgreeButStamps id (first.stepWalk walk) (second.stepWalk walk') ∧
      observe id first walk = observe id second walk' := by
  have presence : id ∈ first.activities ↔ id ∈ second.activities := by
    rw [← AList.lookup_isSome, ← AList.lookup_isSome, ← Option.isSome_map, agree.entry,
      Option.isSome_map]
  have sameEvent : first.eventAt id walk.input.command = second.eventAt id walk'.input.command := by
    rw [← same.command]
    exact event_congr id first second walk.input.command admitted.1 presence
  have entry : ((first.stepWalk walk).activities.lookup id).map Activity.unstamped =
      ((second.stepWalk walk').activities.lookup id).map Activity.unstamped := by
    rw [lookup_walk, lookup_walk,
      Event.advance_unwalled _ _ _ agree.waits, Event.advance_unwalled _ _ _ agree.waits',
      sameEvent, agree.entry, same.readings]
  refine ⟨⟨keyed_walk first walk agree.keyed, keyed_walk second walk' agree.keyed',
    waits_walk id first walk agree.waits admitted, entry⟩, ?_⟩
  have sameReport : id ∈ first.claimedWalk walk ↔ id ∈ second.claimedWalk walk' := by
    rw [claimed_unwalled_iff id first walk agree.keyed agree.waits,
      claimed_unwalled_iff id second walk' agree.keyed' agree.waits', agree.entry, same.readings,
      same.command]
  simp only [observe, entry, sameReport]

/-- Two runs without batch registrations whose inputs differ in their wall-clock
readings at most treat an id the same, if only intervals are inserted for it:
after every command its entries differ in their stamps at most, and every reply
reports it in both runs or in neither.

The invariant is that its entry, if there is one, waits for spans. -/
theorem intervals_ignore_wall_clock (id : T) (first second : List (Walk T))
    (same : List.Forall₂ (fun walk walk' : Walk T => SameButWall walk.input walk'.input) first second)
    (intervals : Runs.Along stepWalk (InsertsInterval id) empty first) :
    Runs.outputs stepWalk (observe id) empty first =
      Runs.outputs stepWalk (observe id) empty second := by
  have initial : AgreeButStamps id (empty : SchedulerActor T) empty :=
    ⟨keyed_run [], keyed_run [], empty_satisfies id _, rfl⟩
  have aligned : Runs.Aligned (fun _ : Walk T => False) (fun _ : Walk T => False)
      (fun walk walk' : Walk T => SameButWall walk.input walk'.input) first second :=
    Runs.aligned_forall₂ same
  exact (Runs.compare (fun _ _ _ _ never => never.elim) (fun _ _ _ _ never => never.elim)
    (agree_but_stamps_step id) aligned initial intervals).2

/-- A command at a moment, while the wall clock reads some date. -/
def walkWhile (moment : Instant) (wall : DateTime) (command : Command Nat) : Walk Nat :=
  ⟨⟨command, fun _ => .least moment wall⟩, .stored⟩

/-- A wall clock that jumps back over an interval makes no difference to it. -/
theorem interval_ignores_jump :
    Runs.outputs stepWalk (observe 1) empty
        [walkWhile 0 0 (.register ⟨1, .fixedInterval 10⟩), walkWhile 10 10 .tick,
          walkWhile 10 10 .claimDue, walkWhile 12 12 (.finish 1 .done)] =
      Runs.outputs stepWalk (observe 1) empty
        [walkWhile 0 500 (.register ⟨1, .fixedInterval 10⟩), walkWhile 10 (-90) .tick,
          walkWhile 10 (-90) .claimDue, walkWhile 12 7 (.finish 1 .done)] := by
  have same (moment : Instant) (wall wall' : DateTime) (command : Command Nat) :
      SameButWall (walkWhile moment wall command).input (walkWhile moment wall' command).input :=
    ⟨rfl, fun _ => rfl⟩
  apply intervals_ignore_wall_clock
  · exact .cons (same 0 0 500 _) (.cons (same 10 10 (-90) _) (.cons (same 10 10 (-90) _)
      (.cons (same 12 12 7 _) .nil)))
  · refine ⟨⟨by simp [Unbatched, walkWhile], ?_⟩, ?_⟩
    · intro spec inserted
      have interval : (empty : SchedulerActor Nat).eventAt 1 (.register ⟨1, .fixedInterval 10⟩) =
        .insert ⟨1, .fixedInterval 10⟩ := by decide
      obtain rfl := Event.insert.inj (interval.symm.trans inserted)
      rfl
    · simp [walkWhile, InsertsInterval, Unbatched, eventAt]

end SchedulerActor

end Ritualist
