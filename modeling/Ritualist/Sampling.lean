import Ritualist.Driver

/-!
# Draws from nonempty ranges

A schedule is evaluated in the actor, at every insertion and whenever a run is
done, and long after the client method that validated it has returned. The draw
for a random interval panics on an empty range, and a panic there ends the one
task that serves every activity.

The operations here are the handler's with that panic: a range without a value
ends the command, and the run, with an error. `send_or_panic_valid` says that
they are the handler's own operations while the specifications stored and sent
are valid; that the stored ones are is kept by every command that brings in
valid ones, and the client methods send no others.
-/

namespace Ritualist

universe u
variable {T : Type u}

/-- The panic of a draw from an empty range. -/
structure EmptyRange where
  min : Duration
  max : Duration
  deriving DecidableEq, Repr

/-- Draw from `min..max`, panicking on an empty range. -/
def Rng.draw (rng : Rng) (min max : Duration) : Except EmptyRange Duration :=
  if min < max then .ok (rng.randomRange min max) else .error ⟨min, max⟩

/-- The target a schedule asks for, evaluated with the panic of its draw. -/
def ActivationTarget.fromScheduleOrPanic (rng : Rng) :
    ActivitySchedule → Except EmptyRange ActivationTarget
  | .fixedInterval span => .ok (.duration span)
  | .randomInterval min max => (rng.draw min max).map .duration
  | .scheduled moment => .ok (.date moment)

/-- The schedule of a valid specification is evaluated without a panic. -/
theorem from_schedule_or_panic_valid (rng : Rng) (spec : ActivitySpec T)
    (valid : spec.validate = .ok ()) :
    ActivationTarget.fromScheduleOrPanic rng spec.schedule =
      .ok (.fromSchedule rng spec.schedule) := by
  have nonempty := (validate_ok_iff spec).mp valid
  cases schedule : spec.schedule with
  | fixedInterval span => rfl
  | randomInterval least bound =>
    have drawn : rng.draw least bound = .ok (rng.randomRange least bound) := by
      rw [Rng.draw, if_pos (nonempty least bound schedule)]
    simp [ActivationTarget.fromScheduleOrPanic, ActivationTarget.fromSchedule, drawn, Except.map]
  | scheduled moment => rfl

/-- A schedule that is evaluated has the total evaluation's target. -/
theorem from_schedule_or_panic_ok {rng : Rng} {schedule : ActivitySchedule}
    {target : ActivationTarget}
    (sampled : ActivationTarget.fromScheduleOrPanic rng schedule = .ok target) :
    target = .fromSchedule rng schedule := by
  cases schedule with
  | fixedInterval span => exact (Except.ok.inj sampled).symm
  | randomInterval least bound =>
    by_cases nonempty : least < bound
    · rw [ActivationTarget.fromScheduleOrPanic, Rng.draw, if_pos nonempty] at sampled
      exact (Except.ok.inj sampled).symm
    · rw [ActivationTarget.fromScheduleOrPanic, Rng.draw, if_neg nonempty] at sampled
      cases sampled
  | scheduled moment => exact (Except.ok.inj sampled).symm

namespace Activity

/-- Create an activity, `Activity::new`, with the panic of its draw. -/
def newOrPanic (spec : ActivitySpec T) (reading : Reading) : Except EmptyRange (Activity T) :=
  (ActivationTarget.fromScheduleOrPanic reading.rng spec.schedule).map fun activationTarget =>
    { spec := spec
      state := .idle
      durationDelta := 0
      activationTarget := activationTarget
      lastTick := reading.now
      lastRunAt := none
      createdAt := reading.nowUtc }

/-- Apply an acknowledgement, `Activity::finish`, with the panic of its draw. The
schedule is evaluated for a run that is done, before the test for a one-shot. -/
def finishOrPanic (activity : Activity T) (ack : AckMessage) (reading : Reading) :
    Except EmptyRange (Activity T) :=
  let next : Except EmptyRange (ActivityState × ActivationTarget) := match ack with
    | .snooze duration => .ok (.snoozed duration, .duration duration)
    | .done => (ActivationTarget.fromScheduleOrPanic reading.rng activity.spec.schedule).map
        fun durationTarget => (.idle, durationTarget)
  next.map fun (nextState, durationTarget) =>
    if activity.spec.schedule.isOneShot && !nextState.isSnoozed
    then { activity with state := .completed }
    else
      { activity with
        lastRunAt := some reading.nowUtc
        activationTarget := durationTarget
        durationDelta := 0
        state := nextState }

/-- An activity of a valid specification is created without a panic. -/
theorem new_or_panic_valid (spec : ActivitySpec T) (reading : Reading)
    (valid : spec.validate = .ok ()) : newOrPanic spec reading = .ok (new spec reading) := by
  rw [newOrPanic, from_schedule_or_panic_valid reading.rng spec valid]
  rfl

/-- An activity of a valid specification is finished without a panic. -/
theorem finish_or_panic_valid (activity : Activity T) (ack : AckMessage) (reading : Reading)
    (valid : activity.spec.validate = .ok ()) :
    activity.finishOrPanic ack reading = .ok (activity.finish ack reading) := by
  cases ack with
  | snooze duration => rfl
  | done =>
    rw [finishOrPanic, from_schedule_or_panic_valid reading.rng activity.spec valid]
    rfl

/-- An activity that is created is the total operation's. -/
theorem new_or_panic_ok {spec : ActivitySpec T} {reading : Reading} {activity : Activity T}
    (created : newOrPanic spec reading = .ok activity) : activity = new spec reading := by
  cases sampled : ActivationTarget.fromScheduleOrPanic reading.rng spec.schedule with
  | error range => simp [newOrPanic, sampled, Except.map] at created
  | ok target =>
    rw [newOrPanic, sampled, from_schedule_or_panic_ok sampled] at created
    exact (Except.ok.inj created).symm

/-- An activity that is finished is the total operation's. -/
theorem finish_or_panic_ok {activity finished : Activity T} {ack : AckMessage} {reading : Reading}
    (ended : activity.finishOrPanic ack reading = .ok finished) :
    finished = activity.finish ack reading := by
  cases ack with
  | snooze duration => exact (Except.ok.inj ended).symm
  | done =>
    cases sampled : ActivationTarget.fromScheduleOrPanic reading.rng activity.spec.schedule with
    | error range => simp [finishOrPanic, sampled, Except.map] at ended
    | ok target =>
      rw [finishOrPanic, sampled, from_schedule_or_panic_ok sampled] at ended
      exact (Except.ok.inj ended).symm

end Activity

variable [DecidableEq T]

namespace SchedulerActor

/-- Insert one specification after another, refusing at the first id present,
with the panic of a draw. -/
def registerEachOrPanic (readings : T → Reading) :
    Table T (Activity T) → List (ActivitySpec T) →
      Except EmptyRange (Table T (Activity T) × Except SchedulerError Unit)
  | activities, [] => .ok (activities, .ok ())
  | activities, spec :: rest =>
    if spec.id ∈ activities then .ok (activities, .error .activityAlreadyRegistered)
    else do
      let activity ← Activity.newOrPanic spec (readings spec.id)
      registerEachOrPanic readings (activities.insert spec.id activity) rest

/-- Insert every specification, with the panic of a draw. -/
def resetEachOrPanic (readings : T → Reading) (activities : Table T (Activity T))
    (specs : List (ActivitySpec T)) : Except EmptyRange (Table T (Activity T)) :=
  specs.foldlM (fun table spec => do
    let activity ← Activity.newOrPanic spec (readings spec.id)
    return table.insert spec.id activity) activities

/-- Process one command, with the panic of a draw. The commands that evaluate no
schedule are the handler's. -/
def sendOrPanic (actor : SchedulerActor T) (cmd : Command T) (readings : T → Reading) :
    Except EmptyRange (SchedulerActor T × Option (Reply T)) :=
  match cmd with
  | .register spec =>
    if spec.id ∈ actor.activities
    then .ok (actor, some (.registered (.error .activityAlreadyRegistered)))
    else do
      let activity ← Activity.newOrPanic spec (readings spec.id)
      return (⟨actor.activities.insert spec.id activity⟩, some (.registered (.ok ())))
  | .registerMany specs => do
    let (activities, result) ← registerEachOrPanic readings actor.activities specs
    return (⟨activities⟩, some (.registered result))
  | .reset spec => do
    let activity ← Activity.newOrPanic spec (readings spec.id)
    return (⟨actor.activities.insert spec.id activity⟩, none)
  | .resetMany specs => do
    let activities ← resetEachOrPanic readings actor.activities specs
    return (⟨activities⟩, none)
  | .finish id ack =>
    match actor.activities.lookup id with
    | some activity => do
      let finished ← activity.finishOrPanic ack (readings id)
      let activities := Table.modify id (fun _ => finished) actor.activities
      if finished.state = .completed then return (⟨activities.erase id⟩, none)
      else return (⟨activities⟩, none)
    | none => .ok (actor, none)
  | other => .ok (actor.send other readings)

/-- The actor after one command, unless it panics. -/
def stepOrPanic (actor : SchedulerActor T) (input : Input T) :
    Except EmptyRange (SchedulerActor T) :=
  (actor.sendOrPanic input.command input.readings).map Prod.fst

/-- The actor after a list of commands, unless one of them panics. -/
def runOrPanic (actor : SchedulerActor T) (inputs : List (Input T)) :
    Except EmptyRange (SchedulerActor T) :=
  inputs.foldlM stepOrPanic actor

/-- A batch of valid specifications is registered without a panic. -/
theorem register_each_or_panic_valid (readings : T → Reading) (specs : List (ActivitySpec T))
    (valid : ∀ spec ∈ specs, spec.validate = .ok ()) (activities : Table T (Activity T)) :
    registerEachOrPanic readings activities specs =
      .ok (registerEach readings activities specs) := by
  induction specs generalizing activities with
  | nil => rfl
  | cons spec rest inductionHypothesis =>
    obtain ⟨specValid, restValid⟩ := List.forall_mem_cons.mp valid
    rw [registerEachOrPanic, registerEach]
    by_cases present : spec.id ∈ activities
    · rw [if_pos present, if_pos present]
    · rw [if_neg present, if_neg present, Activity.new_or_panic_valid spec _ specValid]
      exact inductionHypothesis restValid _

/-- A batch of valid specifications is reset without a panic. -/
theorem reset_each_or_panic_valid (readings : T → Reading) (specs : List (ActivitySpec T))
    (valid : ∀ spec ∈ specs, spec.validate = .ok ()) (activities : Table T (Activity T)) :
    resetEachOrPanic readings activities specs = .ok (resetEach readings activities specs) := by
  induction specs generalizing activities with
  | nil => rfl
  | cons spec rest inductionHypothesis =>
    obtain ⟨specValid, restValid⟩ := List.forall_mem_cons.mp valid
    simp only [resetEachOrPanic, resetEach, List.foldlM_cons, List.foldl_cons,
      Activity.new_or_panic_valid spec _ specValid] at inductionHypothesis ⊢
    exact inductionHypothesis restValid _

/-- A batch that is registered is the total operation's. -/
theorem register_each_or_panic_ok (readings : T → Reading) (specs : List (ActivitySpec T))
    (activities : Table T (Activity T)) {outcome : Table T (Activity T) × Except SchedulerError Unit}
    (registered : registerEachOrPanic readings activities specs = .ok outcome) :
    outcome = registerEach readings activities specs := by
  induction specs generalizing activities with
  | nil => exact (Except.ok.inj registered).symm
  | cons spec rest inductionHypothesis =>
    rw [registerEachOrPanic] at registered
    rw [registerEach]
    by_cases present : spec.id ∈ activities
    · rw [if_pos present] at registered ⊢
      exact (Except.ok.inj registered).symm
    · rw [if_neg present] at registered ⊢
      obtain ⟨activity, created, continued⟩ := Runs.bind_eq_ok.mp registered
      rw [← Activity.new_or_panic_ok created]
      exact inductionHypothesis _ continued

/-- A batch that is reset is the total operation's. -/
theorem reset_each_or_panic_ok (readings : T → Reading) (specs : List (ActivitySpec T))
    (activities : Table T (Activity T)) {outcome : Table T (Activity T)}
    (replaced : resetEachOrPanic readings activities specs = .ok outcome) :
    outcome = resetEach readings activities specs := by
  induction specs generalizing activities with
  | nil => exact (Except.ok.inj replaced).symm
  | cons spec rest inductionHypothesis =>
    simp only [resetEachOrPanic, resetEach, List.foldlM_cons, List.foldl_cons]
      at inductionHypothesis replaced ⊢
    obtain ⟨table, inserted, continued⟩ := Runs.bind_eq_ok.mp replaced
    obtain ⟨activity, created, placed⟩ := Runs.bind_eq_ok.mp inserted
    obtain rfl := Except.ok.inj placed
    rw [← Activity.new_or_panic_ok created]
    exact inductionHypothesis _ continued

/-- A finished activity replaces the one present. -/
theorem modify_finished {actor : SchedulerActor T} {id : T} {activity : Activity T}
    (found : actor.activities.lookup id = some activity) (ack : AckMessage) (reading : Reading) :
    Table.modify id (fun _ => activity.finish ack reading) actor.activities =
      Table.modify id (fun held => held.finish ack reading) actor.activities := by
  apply Table.modify_congr
  intro held present
  obtain rfl : activity = held := Option.some.inj (found.symm.trans present)
  rfl

/-- A command that is processed is processed as by the total handler. -/
theorem send_or_panic_ok (actor : SchedulerActor T) (cmd : Command T) (readings : T → Reading)
    {outcome : SchedulerActor T × Option (Reply T)}
    (processed : actor.sendOrPanic cmd readings = .ok outcome) :
    outcome = actor.send cmd readings := by
  cases cmd with
  | register spec =>
    rw [sendOrPanic] at processed
    rw [send]
    by_cases present : spec.id ∈ actor.activities
    · rw [if_pos present] at processed ⊢
      exact (Except.ok.inj processed).symm
    · rw [if_neg present] at processed ⊢
      obtain ⟨activity, created, returned⟩ := Runs.bind_eq_ok.mp processed
      rw [← Activity.new_or_panic_ok created]
      exact (Except.ok.inj returned).symm
  | registerMany specs =>
    obtain ⟨result, registered, returned⟩ := Runs.bind_eq_ok.mp processed
    obtain rfl := register_each_or_panic_ok readings specs actor.activities registered
    exact (Except.ok.inj returned).symm
  | reset spec =>
    obtain ⟨activity, created, returned⟩ := Runs.bind_eq_ok.mp processed
    obtain rfl := Activity.new_or_panic_ok created
    exact (Except.ok.inj returned).symm
  | resetMany specs =>
    obtain ⟨activities, replaced, returned⟩ := Runs.bind_eq_ok.mp processed
    obtain rfl := reset_each_or_panic_ok readings specs actor.activities replaced
    exact (Except.ok.inj returned).symm
  | finish id ack =>
    cases found : actor.activities.lookup id with
    | none =>
      simp only [sendOrPanic, found] at processed
      rw [← Except.ok.inj processed]
      simp [send, found]
    | some activity =>
      simp only [sendOrPanic, found] at processed
      obtain ⟨finished, ended, returned⟩ := Runs.bind_eq_ok.mp processed
      obtain rfl := Activity.finish_or_panic_ok ended
      rw [modify_finished found] at returned
      by_cases completed : (activity.finish ack (readings id)).state = .completed
      · rw [if_pos completed] at returned
        rw [← Except.ok.inj returned]
        simp [send, found, completed]
      · rw [if_neg completed] at returned
        rw [← Except.ok.inj returned]
        simp [send, found, completed]
  | _ => exact (Except.ok.inj processed).symm

/-- Every stored specification is valid. -/
def StoresValid (actor : SchedulerActor T) : Prop :=
  ∀ id, actor.EntrySatisfies id fun activity => activity.spec.validate = .ok ()

/-- A command with valid specifications keeps the stored ones valid: an
insertion stores one of the command's, and nothing else changes any. -/
theorem stores_valid_step (actor : SchedulerActor T) (input : Input T) (stored : actor.StoresValid)
    (sent : ∀ spec ∈ commandSpecs input.command, spec.validate = .ok ()) :
    (actor.step input).StoresValid := by
  intro id
  refine entry_step (fun spec inserted => ?_) (fun before after _ move valid => ?_) (stored id)
  · exact sent spec (event_insert actor id input.command spec inserted).1
  · rw [move.spec_eq]
    exact valid

/-- While the specifications stored and sent are valid, a command is processed
without a panic, as the handler processes it. -/
theorem send_or_panic_valid (actor : SchedulerActor T) (cmd : Command T) (readings : T → Reading)
    (stored : actor.StoresValid) (sent : ∀ spec ∈ commandSpecs cmd, spec.validate = .ok ()) :
    actor.sendOrPanic cmd readings = .ok (actor.send cmd readings) := by
  cases cmd with
  | register spec =>
    have created := Activity.new_or_panic_valid spec (readings spec.id)
      (sent spec (List.mem_singleton.mpr rfl))
    rw [sendOrPanic, send, created]
    split <;> rfl
  | registerMany specs =>
    rw [sendOrPanic, send, register_each_or_panic_valid readings specs sent]
    rfl
  | reset spec =>
    have created := Activity.new_or_panic_valid spec (readings spec.id)
      (sent spec (List.mem_singleton.mpr rfl))
    rw [sendOrPanic, send, created]
    rfl
  | resetMany specs =>
    rw [sendOrPanic, send, reset_each_or_panic_valid readings specs sent]
    rfl
  | finish id ack =>
    cases found : actor.activities.lookup id with
    | none => simp [sendOrPanic, send, found]
    | some activity =>
      have finished := activity.finish_or_panic_valid ack (readings id) (stored id activity found)
      by_cases completed : (activity.finish ack (readings id)).state = .completed <;>
        simp [sendOrPanic, send, found, finished, modify_finished found, completed, bind,
          Except.bind, pure, Except.pure]
  | _ => rfl

/-- A step that does not panic is the total step. -/
theorem step_or_panic_ok (actor : SchedulerActor T) (input : Input T) (after : SchedulerActor T)
    (stepped : actor.stepOrPanic input = .ok after) : after = actor.step input := by
  obtain ⟨outcome, processed, rfl⟩ := Runs.map_eq_ok.mp stepped
  rw [send_or_panic_ok actor input.command input.readings processed]
  rfl

/-- A run that ends without a panic ends where the total run does. -/
theorem run_or_panic_ok (actor : SchedulerActor T) (inputs : List (Input T))
    {after : SchedulerActor T} (ended : actor.runOrPanic inputs = .ok after) :
    after = actor.run inputs :=
  Runs.foldlM_sound step_or_panic_ok ended

end SchedulerActor

/-- The commands of a run in which specifications come from the client methods:
a client's validated request, or a command without one. -/
inductive Issued : Command T → Prop
  | request (request : Request T) (command : Command T)
      (accepted : request.command = .ok command) : Issued command
  | tick : Issued .tick
  | claimDue : Issued .claimDue
  | setEnabled (id : T) (enabled : Bool) : Issued (.setEnabled id enabled)
  | setImmediate (id : T) : Issued (.setImmediate id)
  | finish (id : T) (ack : AckMessage) : Issued (.finish id ack)
  | snapshot : Issued .snapshot

omit [DecidableEq T] in
/-- An issued command brings in valid specifications only. -/
theorem Issued.valid {command : Command T} (issued : Issued command) :
    ∀ spec ∈ SchedulerActor.commandSpecs command, spec.validate = .ok () := by
  cases issued with
  | request request _ accepted => exact ((request_sent_iff request command).mp accepted).2
  | _ => simp [SchedulerActor.commandSpecs]

namespace SchedulerActor

/-- On issued commands the panicking actor does what the total one does: the
stored specifications stay valid, so no draw finds an empty range. -/
theorem step_or_panic_issued (actor : SchedulerActor T) (input : Input T)
    (stored : actor.StoresValid) (issued : Issued input.command) :
    actor.stepOrPanic input = .ok (actor.step input) := by
  rw [stepOrPanic, send_or_panic_valid actor input.command input.readings stored issued.valid]
  rfl

/-- The empty map stores nothing invalid. -/
theorem empty_stores_valid : (empty : SchedulerActor T).StoresValid :=
  fun id => empty_satisfies id _

/-- No run in which specifications come from the client methods draws from an
empty range: the actor with the panic goes through every such run, in any order
of commands and with any readings, and ends where the total actor does. -/
theorem never_draws_from_empty (inputs : List (Input T))
    (issued : ∀ input ∈ inputs, Issued input.command) :
    empty.runOrPanic inputs = .ok (empty.run inputs) := by
  have admitted : Runs.Along step (fun _ input => Issued input.command) empty inputs :=
    Runs.along_of_forall empty fun input member _ => issued input member
  apply Runs.foldlM_ok _ _ empty_stores_valid admitted
  · intro actor input stored sent
    exact stores_valid_step actor input stored sent.valid
  · intro actor input stored sent
    exact step_or_panic_issued actor input stored sent

/-- A random interval is drawn at its registration, when its run is done, and
when it is reset in a batch. -/
theorem draws_three_times :
    (empty : SchedulerActor Nat).runOrPanic
        [⟨.register ⟨1, .randomInterval 10 20⟩, fun _ => .least 0 0⟩,
          ⟨.tick, fun _ => .least 20 20⟩, ⟨.claimDue, fun _ => .least 20 20⟩,
          ⟨.finish 1 .done, fun _ => .least 30 30⟩,
          ⟨.resetMany [⟨2, .fixedInterval 5⟩, ⟨1, .randomInterval 3 4⟩], fun _ => .least 40 40⟩] =
      .ok (empty.run
        [⟨.register ⟨1, .randomInterval 10 20⟩, fun _ => .least 0 0⟩,
          ⟨.tick, fun _ => .least 20 20⟩, ⟨.claimDue, fun _ => .least 20 20⟩,
          ⟨.finish 1 .done, fun _ => .least 30 30⟩,
          ⟨.resetMany [⟨2, .fixedInterval 5⟩, ⟨1, .randomInterval 3 4⟩], fun _ => .least 40 40⟩]) := by
  apply never_draws_from_empty
  simp only [List.forall_mem_cons]
  exact ⟨.request (.register ⟨1, .randomInterval 10 20⟩) _ rfl, .tick, .claimDue,
    .finish 1 .done, .request (.resetMany [⟨2, .fixedInterval 5⟩, ⟨1, .randomInterval 3 4⟩]) _ rfl,
    fun _ absent => absurd absent List.not_mem_nil⟩

end SchedulerActor

/-- In every interleaving of the actor, the driver, its tasks, consumers and
clients, the actor has processed its commands without an empty draw, and those
in its queue are issued ones. -/
theorem interleavings_never_panic {bufferSize : Nat} {world : World T}
    (reached : Reachable bufferSize world) :
    (∃ history, SchedulerActor.empty.runOrPanic history = .ok world.actor) ∧
      world.actor.StoresValid ∧ ∀ message ∈ world.queue, Issued message.command := by
  induction reached with
  | refl => exact ⟨⟨[], rfl⟩, SchedulerActor.empty_stores_valid, by simp [World.initial]⟩
  | @tail before after _ step inductionHypothesis =>
    obtain ⟨⟨history, processed⟩, stored, queued⟩ := inductionHypothesis
    have enqueued : ∀ sent : Message T, Issued sent.command →
        ∀ message ∈ before.queue ++ [sent], Issued message.command := by
      intro sent issued message member
      rcases List.mem_append.mp member with earlier | last
      · exact queued message earlier
      · obtain rfl := List.mem_singleton.mp last
        exact issued
    cases step with
    | request request command accepted room =>
      exact ⟨⟨history, processed⟩, stored, enqueued _ (.request request command accepted)⟩
    | tick selecting room => exact ⟨⟨history, processed⟩, stored, enqueued _ .tick⟩
    | claimDue claiming room => exact ⟨⟨history, processed⟩, stored, enqueued _ .claimDue⟩
    | finish earlier run ack later live room =>
      exact ⟨⟨history, processed⟩, stored, enqueued _ (.finish run.id ack)⟩
    | process message rest first readings =>
      have issued : Issued message.command := queued message (first ▸ List.mem_cons_self)
      refine ⟨⟨history ++ [⟨message.command, readings⟩], ?_⟩,
        SchedulerActor.stores_valid_step before.actor _ stored issued.valid,
        fun other member => queued other (first ▸ List.mem_cons_of_mem message member)⟩
      have here := SchedulerActor.step_or_panic_issued before.actor
        ⟨message.command, readings⟩ stored issued
      simp only [SchedulerActor.runOrPanic, List.foldlM_append, List.foldlM_cons,
        List.foldlM_nil] at processed ⊢
      rw [processed]
      simp only [bind, Except.bind, here, pure, Except.pure]
      rfl
    | _ => exact ⟨⟨history, processed⟩, stored, queued⟩

end Ritualist
