import Ritualist.Entries

/-!
# The representation invariant of the scheduler's map

Between commands an entry is stored under its own id and is idle, running or
snoozed, possibly wrapped once by disabling; the states of completion and
collection are removed in the command that produces them. Its accumulated time
and its target agree with its state and schedule, for the state under the
wrapper: a running activity has accumulated nothing, a snoozed one waits for its
snooze, and an idle one for what its schedule asks for, unless a dispatch made
the target immediate.

The invariant is a field of `Registry`, whose step is the actor's step on
validated commands; `Registry.run_actor` says that a registry's run is the
actor's run. An acknowledgement may come in any state, so the invariant asks
nothing of the state an activity is finished in.
-/

namespace Ritualist

universe u
variable {T : Type u}

/-- What holds of the entry of an id between commands. -/
structure Represents (id : T) (activity : Activity T) : Prop where
  key : activity.spec.id = id
  valid : activity.spec.validate = .ok ()
  settled : activity.state.Settled
  running : activity.state.stripped = .running → activity.durationDelta = 0
  snoozed : ∀ duration, activity.state.stripped = .snoozed duration →
    activity.activationTarget = .duration duration ∨ activity.activationTarget = .duration 0
  fixedInterval : ∀ duration, activity.state.stripped = .idle →
    activity.spec.schedule = .fixedInterval duration →
      activity.activationTarget = .duration duration ∨ activity.activationTarget = .duration 0
  randomInterval : ∀ min max, activity.state.stripped = .idle →
    activity.spec.schedule = .randomInterval min max →
      (∃ drawn, min ≤ drawn ∧ drawn < max ∧ activity.activationTarget = .duration drawn) ∨
        activity.activationTarget = .duration 0
  scheduled : ∀ date, activity.state.stripped = .idle →
    activity.spec.schedule = .scheduled date → ∃ target, activity.activationTarget = .date target
  interval : activity.spec.schedule.isOneShot = false →
    ∃ span, activity.activationTarget = .duration span

namespace Represents

/-- A waiting activity with the target its validated schedule asks for. -/
theorem fresh (id : T) (activity : Activity T) (rng : Rng) (key : activity.spec.id = id)
    (valid : activity.spec.validate = .ok ()) (idle : activity.state = .idle)
    (target : activity.activationTarget = .fromSchedule rng activity.spec.schedule) :
    Represents id activity := by
  have nonempty := (validate_ok_iff activity.spec).mp valid
  have bare : activity.state.stripped = .idle := by rw [idle]; rfl
  refine ⟨key, valid, Or.inl bare, ?_, ?_, ?_, ?_, ?_, ?_⟩
  · intro running
    rw [bare] at running
    cases running
  · intro duration snoozed
    rw [bare] at snoozed
    cases snoozed
  · intro duration _ schedule
    rw [target, schedule]
    exact Or.inl rfl
  · intro min max _ schedule
    obtain ⟨least, bound⟩ := rng.within min max (nonempty min max schedule)
    rw [target, schedule]
    exact Or.inl ⟨_, least, bound, rfl⟩
  · intro date _ schedule
    rw [target, schedule]
    exact ⟨date, rfl⟩
  · intro repeats
    rcases from_schedule_kind rng activity.spec.schedule with ⟨date, schedule, _⟩ | ⟨_, span, same⟩
    · simp [schedule, ActivitySchedule.isOneShot] at repeats
    · exact ⟨span, target.trans same⟩

/-- A change that keeps the specification, the stripped state and the target
keeps the invariant, if it counts no time for a running activity. -/
theorem congr {id : T} {before after : Activity T} (represents : Represents id before)
    (spec : after.spec = before.spec) (state : after.state.stripped = before.state.stripped)
    (target : after.activationTarget = before.activationTarget)
    (running : before.state.stripped = .running → after.durationDelta = 0) :
    Represents id after where
  key := spec ▸ represents.key
  valid := spec ▸ represents.valid
  settled := by unfold ActivityState.Settled; rw [state]; exact represents.settled
  running stripped := running (state ▸ stripped)
  snoozed := by rw [state, target]; exact represents.snoozed
  fixedInterval := by rw [spec, state, target]; exact represents.fixedInterval
  randomInterval := by rw [spec, state, target]; exact represents.randomInterval
  scheduled := by rw [spec, state, target]; exact represents.scheduled
  interval := by rw [spec, target]; exact represents.interval

/-- An immediate target is one the state and the schedule allow, and it is a
date only where the target was one. -/
theorem setImmediate {id : T} {activity : Activity T} (represents : Represents id activity)
    (reading : Reading) : Represents id (activity.setImmediate reading) := by
  rw [Activity.set_immediate_eq]
  cases target : activity.activationTarget with
  | duration span =>
    refine ⟨represents.key, represents.valid, represents.settled, represents.running,
      fun _ _ => Or.inr rfl, fun _ _ _ => Or.inr rfl, fun _ _ _ _ => Or.inr rfl, ?_,
      fun _ => ⟨0, rfl⟩⟩
    intro date idle schedule
    obtain ⟨moment, same⟩ := represents.scheduled date idle schedule
    rw [target] at same
    cases same
  | date moment =>
    have oneShot : activity.spec.schedule.isOneShot ≠ false := by
      intro repeats
      obtain ⟨span, same⟩ := represents.interval repeats
      rw [target] at same
      cases same
    refine ⟨represents.key, represents.valid, represents.settled, represents.running, ?_, ?_, ?_,
      fun _ _ _ => ⟨reading.nowUtc, rfl⟩, fun repeats => absurd repeats oneShot⟩
    · intro duration snoozed
      rcases represents.snoozed duration snoozed with same | same <;> rw [target] at same <;> cases same
    · intro duration _ schedule
      change activity.spec.schedule = .fixedInterval duration at schedule
      exact absurd (by rw [schedule]; rfl) oneShot
    · intro min max _ schedule
      change activity.spec.schedule = .randomInterval min max at schedule
      exact absurd (by rw [schedule]; rfl) oneShot

/-- A started activity has accumulated nothing. -/
theorem start {id : T} {activity : Activity T} (represents : Represents id activity) :
    Represents id { activity with state := .running, durationDelta := 0 } := by
  refine ⟨represents.key, represents.valid, Or.inr (Or.inl rfl), fun _ => rfl, ?_, ?_, ?_, ?_,
    represents.interval⟩
  · intro _ snoozed
    cases snoozed
  · intro _ idle
    cases idle
  · intro _ _ idle
    cases idle
  · intro _ idle
    cases idle

/-- A snooze leaves an activity that waits for it, whatever it found. -/
theorem finish_snooze {id : T} {activity : Activity T} (represents : Represents id activity)
    (duration : Duration) (reading : Reading) :
    Represents id (activity.finish (.snooze duration) reading) := by
  rw [Activity.finish_snooze]
  refine ⟨represents.key, represents.valid, Or.inr (Or.inr ⟨duration, rfl⟩), ?_, ?_, ?_, ?_, ?_,
    fun _ => ⟨duration, rfl⟩⟩
  · intro running
    cases running
  · intro other snoozed
    obtain rfl : duration = other := ActivityState.snoozed.inj snoozed
    exact Or.inl rfl
  · intro _ idle
    cases idle
  · intro _ _ idle
    cases idle
  · intro _ idle
    cases idle

/-- A completed run that leaves an activity present leaves it waiting for what
its schedule asks for, whatever it found. -/
theorem finish_done {id : T} {activity : Activity T} (represents : Represents id activity)
    (reading : Reading) (remains : (activity.finish .done reading).state ≠ .completed) :
    Represents id (activity.finish .done reading) := by
  rw [Activity.finish_done] at remains ⊢
  by_cases oneShot : activity.spec.schedule.isOneShot = true
  · simp [oneShot] at remains
  · simp only [oneShot, Bool.false_eq_true, if_false]
    exact fresh id _ reading.rng represents.key represents.valid rfl rfl

/-- Every move of a present activity keeps the invariant. -/
theorem move {id : T} {event : Event T} {reading : Reading} {before after : Activity T}
    (represents : Represents id before) (move : event.Moves reading before after) :
    Represents id after := by
  cases move with
  | tick _ survives =>
    refine represents.congr (before.tick_spec reading) ?_ (before.tick_target reading) ?_
    · rw [before.tick_state_of_survives reading survives]
    · intro running
      have still : before.state.isScheduled = false :=
        ActivityState.in_flight_not_scheduled before.state running
      rw [Activity.tick_eq]
      simpa [still] using represents.running running
  | setEnabled _ enabled =>
    refine represents.congr ?_ (before.set_enabled_stripped enabled represents.settled.bare) ?_ ?_
    · rw [Activity.set_enabled_eq]
    · rw [Activity.set_enabled_eq]
    · intro running
      rw [Activity.set_enabled_eq]
      exact represents.running running
  | claimDue =>
    rw [Activity.claim_eq]
    split
    · exact represents.start
    · exact represents
  | setImmediate => exact represents.setImmediate reading
  | finish _ ack remains =>
    cases ack with
    | done => exact represents.finish_done reading remains
    | snooze duration => exact represents.finish_snooze duration reading
  | skip => exact represents

end Represents

variable [DecidableEq T]

/-- A command whose specifications passed validation, as the client methods send. -/
abbrev ValidInput (T : Type u) [DecidableEq T] :=
  { input : Input T //
    ∀ spec ∈ SchedulerActor.commandSpecs input.command, spec.validate = .ok () }

/-- An actor all of whose entries satisfy the representation invariant. -/
structure Registry (T : Type u) [DecidableEq T] where
  actor : SchedulerActor T
  represents : ∀ id, actor.EntrySatisfies id (Represents id)

namespace Registry

/-- The registry of a spawned actor. -/
def empty : Registry T where
  actor := .empty
  represents id activity present := by simp [SchedulerActor.empty] at present

/-- The actor's step on a validated command keeps every entry's invariant. -/
def step (registry : Registry T) (input : ValidInput T) : Registry T where
  actor := registry.actor.step input.1
  represents id := by
    refine SchedulerActor.entry_step ?_ (fun _ _ _ move kept => kept.move move)
      (registry.represents id)
    intro spec inserted
    obtain ⟨member, key⟩ := SchedulerActor.event_insert registry.actor id input.1.command spec inserted
    exact Represents.fresh id _ (input.1.readings id).rng key (input.2 spec member) rfl rfl

/-- A registry's run is the actor's run on the same commands. -/
theorem run_actor (registry : Registry T) (inputs : List (ValidInput T)) :
    (inputs.foldl step registry).actor = registry.actor.run (inputs.map Subtype.val) := by
  induction inputs generalizing registry with
  | nil => rfl
  | cons input rest inductionHypothesis => exact inductionHypothesis (registry.step input)

end Registry

/-- Every entry of every map reachable by validated commands, in any order, with
any readings and any draws within their ranges, satisfies the invariant. -/
theorem every_entry_represented (inputs : List (Input T))
    (validated : ∀ input ∈ inputs, ∀ spec ∈ SchedulerActor.commandSpecs input.command,
      spec.validate = .ok ())
    (id : T) (activity : Activity T)
    (present : (SchedulerActor.empty.run inputs).activities.lookup id = some activity) :
    Represents id activity := by
  have same : (List.pmap Subtype.mk inputs validated).map Subtype.val = inputs := by
    simp [List.map_pmap]
  have registered := Registry.run_actor Registry.empty (List.pmap Subtype.mk inputs validated)
  rw [same] at registered
  exact (List.foldl Registry.step Registry.empty _).represents id activity (registered ▸ present)

/-- The invariant of a random interval that was claimed and acknowledged once. -/
theorem random_interval_represented :
    Represents 1 (⟨⟨1, .randomInterval 10 20⟩, .idle, 0, .duration 10, 20, some 30, 0⟩ :
      Activity Nat) :=
  every_entry_represented
    [⟨.register ⟨1, .randomInterval 10 20⟩, fun _ => .least 0 0⟩,
      ⟨.tick, fun _ => .least 20 20⟩, ⟨.claimDue, fun _ => .least 20 20⟩,
      ⟨.finish 1 .done, fun _ => .least 30 30⟩]
    (by decide) 1 _ (by decide)

end Ritualist
