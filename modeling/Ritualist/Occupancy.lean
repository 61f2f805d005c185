import Ritualist.Claiming
import Ritualist.Conservation

/-!
# One run at a time for every insertion

An entry that is waiting can be claimed once, and is then occupied until an
acknowledgement for its id frees it. A run of an id that is outstanding while the
entry is free again is one whose activity was replaced, or collected and inserted
anew. So an id never has more runs outstanding than times it was inserted, and the
last one only while its entry is occupied: `Housed`. An id that is inserted once has
one run at a time, from the claim to the acknowledgement that the actor processes.

That rests on acknowledgements coming from dispatch tasks alone, as they do while
clients keep to `WithScheduler`: `Scheduler::finish` in a client's hands would free an
entry whose run is outstanding. It holds of every such interleaving, aborted ones
included: what they drop is outstanding no more. What consumers have been given and not
answered is part of what is outstanding only while no task is dropped.
-/

namespace Ritualist

universe u
variable {T : Type u}

namespace World

/-- The number of runs of an id that are outstanding. -/
def runsOf [DecidableEq T] (world : World T) (id : T) : Nat :=
  world.outstanding.countP fun run => decide (run.id = id)

/-- Every acknowledgement in the queue is a task's, of its own run. -/
def Genuine (world : World T) : Prop :=
  ∀ id ack, Message.plain (.finish id ack) ∉ world.queue

end World

namespace SchedulerActor

variable [DecidableEq T]

/-- One if the entry of an id is there and not occupied by a run. -/
def vacancy (actor : SchedulerActor T) (id : T) : Nat :=
  match actor.activities.lookup id with
  | some activity => if activity.state.stripped = .running then 0 else 1
  | none => 0

/-- An id has room for one run. -/
theorem vacancy_le_one (actor : SchedulerActor T) (id : T) : actor.vacancy id ≤ 1 := by
  unfold vacancy
  split
  · split <;> omega
  · omega

/-- An id has no room exactly if its entry is absent or running. -/
theorem vacancy_zero_iff (actor : SchedulerActor T) (id : T) :
    actor.vacancy id = 0 ↔
      actor.EntrySatisfies id fun activity => activity.state.stripped = .running := by
  unfold vacancy EntrySatisfies
  cases actor.activities.lookup id <;> simp

/-- What a claim reports had room, and has none after it. -/
theorem claimed_vacancy {actor : SchedulerActor T} {id : T} (keyed : actor.Keyed) (input : Input T)
    (reported : id ∈ actor.claimed input) :
    0 < actor.vacancy id ∧ (actor.step input).vacancy id = 0 := by
  obtain ⟨command, readings⟩ := input
  obtain ⟨claims, activity, present, due⟩ := (mem_claimed_iff keyed _).mp reported
  obtain rfl : command = .claimDue := claims
  constructor
  · by_contra none
    have running := (vacancy_zero_iff actor id).mp (Nat.eq_zero_of_not_pos none) activity present
    have waiting := ((activity.should_run_iff _).mp due).1
    rw [ActivityState.in_flight_not_scheduled _ running] at waiting
    cases waiting
  · exact (vacancy_zero_iff _ id).mpr (claim_in_flight id actor readings keyed reported).2

/-- What a command frees pays for what it reports and what it leaves free: a claim
occupies what it reports, and only an acknowledgement or an insertion frees an id. -/
theorem vacancy_step (actor : SchedulerActor T) (input : Input T) (id : T) (keyed : actor.Keyed) :
    (actor.claimed input).count id + (actor.step input).vacancy id ≤
      actor.vacancy id + (if actor.inserts id input then 1 else 0) +
        (if Acknowledges id input then 1 else 0) := by
  have once := List.nodup_iff_count_le_one.mp (claimed_nodup actor input keyed) id
  by_cases reported : id ∈ actor.claimed input
  · obtain ⟨free, occupied⟩ := claimed_vacancy keyed input reported
    omega
  · rw [List.count_eq_zero_of_not_mem reported, Nat.zero_add]
    have bounded := vacancy_le_one (actor.step input) id
    by_cases leaves : LeavesRun id actor input
    · by_cases occupied : actor.vacancy id = 0
      · have flying : InFlight id actor := ⟨keyed, (vacancy_zero_iff actor id).mp occupied⟩
        have still := (in_flight_step id actor input flying leaves).2
        rw [(vacancy_zero_iff _ id).mpr still]
        exact Nat.zero_le _
      · omega
    · by_cases inserted : actor.inserts id input
      · simp only [inserted, if_true]
        omega
      · have finishes : Acknowledges id input := by
          by_contra unfinished
          exact leaves ⟨inserted, unfinished⟩
        simp only [finishes, if_true]
        omega

end SchedulerActor

namespace World

variable [DecidableEq T]

/-- Only a dispatch task queues an acknowledgement. -/
theorem genuine_step {bufferSize : Nat} {before after : World T}
    (step : Step bufferSize before after) (genuine : before.Genuine) : after.Genuine := by
  cases step with
  | request request command accepted room =>
    intro id ack member
    rcases List.mem_append.mp member with earlier | last
    · exact genuine id ack earlier
    · obtain ⟨rfl, _⟩ := (request_sent_iff request command).mp accepted
      have same := Message.plain.inj (List.mem_singleton.mp last)
      cases request <;> cases same
  | tick selecting room =>
    intro id ack member
    rcases List.mem_append.mp member with earlier | last
    · exact genuine id ack earlier
    · cases List.mem_singleton.mp last
  | claimDue claiming room =>
    intro id ack member
    rcases List.mem_append.mp member with earlier | last
    · exact genuine id ack earlier
    · cases List.mem_singleton.mp last
  | finish front run ack back live room =>
    intro id outcome member
    rcases List.mem_append.mp member with earlier | last
    · exact genuine id outcome earlier
    · cases List.mem_singleton.mp last
  | process message rest first readings =>
    intro id ack member
    exact genuine id ack (first ▸ List.mem_cons_of_mem message member)
  | _ => exact genuine

/-- A message that acknowledges an id is the acknowledgement of a run of it. -/
theorem acknowledged_run {world : World T} {message : Message T} {rest : List (Message T)}
    (genuine : world.Genuine) (first : world.queue = message :: rest) (readings : T → Reading)
    (id : T) : (if SchedulerActor.Acknowledges id ⟨message.command, readings⟩ then 1 else 0) =
      message.runs.countP fun run => decide (run.id = id) := by
  cases message with
  | plain command =>
    have other : ¬ SchedulerActor.Acknowledges id ⟨(Message.plain command).command, readings⟩ := by
      intro acknowledges
      obtain ⟨ack, same⟩ := (SchedulerActor.acknowledges_iff id _).mp acknowledges
      have member : Message.plain (.finish id ack) ∈ world.queue := by
        rw [first, ← show command = .finish id ack from same]
        exact List.mem_cons_self
      exact genuine id ack member
    simp [other, Message.runs]
  | finish run ack =>
    simp [Message.command, Message.runs, SchedulerActor.Acknowledges, SchedulerActor.acknowledged,
      List.countP_cons]

/-- A step that leaves the actor and its records alone. It may lose runs, and has
none twice. -/
structure Dwindles (before after : World T) : Prop where
  actor : after.actor = before.actor
  births : after.births = before.births
  claimed : after.claimed = before.claimed
  finished : after.finished = before.finished
  outstanding : ∀ kind, after.outstanding.countP kind ≤ before.outstanding.countP kind
  deliveries : ∀ kind, after.deliveries.tally kind ≤ before.deliveries.tally kind

/-- A step loses runs at most, or it is the actor's. -/
theorem dwindles_step {bufferSize : Nat} {before after : World T}
    (step : Step bufferSize before after) :
    Dwindles before after ∨ ∃ message rest readings, before.queue = message :: rest ∧
      after = before.process message rest readings := by
  cases step with
  | process message rest first readings => exact Or.inr ⟨message, rest, readings, first, rfl⟩
  | request request command accepted room =>
    refine Or.inl ⟨rfl, rfl, rfl, rfl, fun kind => ?_, fun kind => le_rfl⟩
    simp [enqueue_outstanding, Message.runs]
  | tick here room | claimDue here room | resume here | drain here cancelled | stop here joined
  | expire here =>
    refine Or.inl ⟨rfl, rfl, rfl, rfl, fun kind => ?_, fun kind => ?_⟩
    · simp [outstanding, enqueue, moveTo, DriverPoint.runs, here, Message.runs]
    · simp [deliveries, undelivered, Ledger.tally, enqueue, moveTo, DriverPoint.runs, here]
  | abort =>
    refine Or.inl ⟨rfl, rfl, rfl, rfl, fun kind => ?_, fun kind => ?_⟩
    · simp [outstanding, moveTo, DriverPoint.runs]
    · simp [deliveries, undelivered, Ledger.tally, moveTo, DriverPoint.runs]
  | collect runs replied =>
    refine Or.inl ⟨rfl, rfl, rfl, rfl, fun kind => ?_, fun kind => ?_⟩
    · simp [outstanding, moveTo, DriverPoint.runs, replied]
    · simp [deliveries, undelivered, Ledger.tally, moveTo, DriverPoint.runs, replied]
  | spawn run rest spawning =>
    refine Or.inl ⟨rfl, rfl, rfl, rfl, fun kind => ?_, fun kind => ?_⟩
    · simp [outstanding, moveTo, setTasks, DriverPoint.runs, spawning, List.countP_cons]
      omega
    · simp [deliveries, undelivered, Ledger.tally, moveTo, setTasks, DriverPoint.runs, spawning,
        List.countP_cons]
      omega
  | dropTask front task back live cut =>
    refine Or.inl ⟨rfl, rfl, rfl, rfl, fun kind => ?_, fun kind => ?_⟩
    · simp [outstanding, setTasks, live, List.countP_cons]
    · have fewer : (front ++ back).Sublist (front ++ task :: back) :=
        (List.sublist_cons_self task back).append_left front
      have sending := ((fewer.filter fun task => decide (task.phase = .sending)).map
        Task.run).countP_le (p := kind)
      simpa [deliveries, undelivered, Ledger.tally, setTasks, live] using sending
  | deliver front run back live receiving room =>
    refine Or.inl ⟨rfl, rfl, rfl, rfl, fun kind => ?_, fun kind => ?_⟩
    · simp [outstanding, setTasks, put, live]
    · simp [deliveries, undelivered, Ledger.tally, setTasks, put, live, List.countP_cons]
      omega
  | refuse front run back live closed =>
    refine Or.inl ⟨rfl, rfl, rfl, rfl, fun kind => ?_, fun kind => ?_⟩
    · simp [outstanding, setTasks, reject, live]
    · simp [deliveries, undelivered, Ledger.tally, setTasks, reject, live, List.countP_cons]
      omega
  | finish front run ack back live room =>
    refine Or.inl ⟨rfl, rfl, rfl, rfl, fun kind => ?_, fun kind => ?_⟩
    · simp [outstanding, enqueue, setTasks, live, Message.runs, List.countP_cons]
      omega
    · simp [deliveries, undelivered, Ledger.tally, enqueue, setTasks, live]
  | acknowledge run ack holds | dropSender run holds | dropReceiver holds =>
    refine Or.inl ⟨rfl, rfl, rfl, rfl, fun kind => ?_, fun kind => ?_⟩
    · simp [outstanding, answer, closeChannel, resolve_runs]
    · simp [deliveries, undelivered, Ledger.tally, answer, closeChannel, resolve_sending]
  | cancel | receive run rest oldest =>
    exact Or.inl ⟨rfl, rfl, rfl, rfl, fun kind => le_rfl, fun kind => le_rfl⟩

omit [DecidableEq T] in
/-- A reply reaches the driver or is lost. -/
theorem receive_counts (point : DriverPoint T) (runs : List (Run T)) (command : Command T)
    (kind : Run T → Bool) : (point.receive runs command).runs.countP kind ≤
      point.runs.countP kind + runs.countP kind := by
  unfold DriverPoint.receive
  split
  · simp [DriverPoint.runs]
  · exact Nat.le_add_right _ _

/-- The runs outstanding after the actor's step are among those before it, but for
the run acknowledged, and those that a claim reports. -/
theorem process_counts (world : World T) (message : Message T) (rest : List (Message T))
    (readings : T → Reading) (first : world.queue = message :: rest) (kind : Run T → Bool) :
    (world.process message rest readings).outstanding.countP kind + message.runs.countP kind ≤
      world.outstanding.countP kind +
        (world.issue (world.actor.claimed ⟨message.command, readings⟩)).countP kind := by
  have received := receive_counts world.driver
    (world.issue (world.actor.claimed ⟨message.command, readings⟩)) message.command kind
  simp only [outstanding, process, first, List.countP_append, List.flatMap_cons]
  omega

/-- A claim issues a run for every report of an id. -/
theorem issue_counts (world : World T) (ids : List T) (id : T) :
    (world.issue ids).countP (fun run => decide (run.id = id)) = ids.count id := by
  rw [← congrArg (List.count id) (world.issue_ids ids), List.count, List.countP_map]
  rfl

/-- An id has no more runs outstanding, and room for another, than it was inserted. -/
def Housed (world : World T) : Prop :=
  ∀ id, world.runsOf id + world.actor.vacancy id ≤ world.births id

/-- Every interleaving houses its runs. -/
theorem housed_reachable {bufferSize : Nat} {world : World T}
    (reached : Reachable bufferSize world) : world.Genuine ∧ world.Housed := by
  induction reached with
  | refl =>
    constructor
    · intro id ack member
      cases member
    · intro id
      simp [runsOf, outstanding, initial, DriverPoint.runs, SchedulerActor.vacancy,
        SchedulerActor.empty]
  | @tail before after path step inductionHypothesis =>
    obtain ⟨genuine, housed⟩ := inductionHypothesis
    refine ⟨genuine_step step genuine, fun id => ?_⟩
    rcases dwindles_step step with dwindles | ⟨message, rest, readings, first, rfl⟩
    · calc after.runsOf id + after.actor.vacancy id
          ≤ before.runsOf id + before.actor.vacancy id := by
            rw [dwindles.actor]
            exact Nat.add_le_add_right (dwindles.outstanding _) _
        _ ≤ before.births id := housed id
        _ = after.births id := by rw [dwindles.births]
    · obtain ⟨history, same⟩ := actor_run path
      have keyed : before.actor.Keyed := same ▸ SchedulerActor.keyed_run history
      have runs := process_counts before message rest readings first fun run =>
        decide (run.id = id)
      rw [issue_counts] at runs
      have room := before.actor.vacancy_step ⟨message.command, readings⟩ id keyed
      rw [acknowledged_run genuine first readings id] at room
      have here : before.outstanding.countP (fun run => decide (run.id = id)) +
        before.actor.vacancy id ≤ before.births id := housed id
      change (before.process message rest readings).outstanding.countP _ +
          (before.actor.step ⟨message.command, readings⟩).vacancy id ≤
        before.births id + if before.actor.inserts id ⟨message.command, readings⟩ then 1 else 0
      omega

/-- Every interleaving numbers its runs, and has none twice: of what was claimed
nothing is outstanding or acknowledged more than once, nor is anything delivered or
refused more than once. -/
theorem bounded_reachable {bufferSize : Nat} {world : World T}
    (reached : Reachable bufferSize world) :
    world.Numbered ∧ world.ledger.Bounded ∧ world.deliveries.Bounded := by
  induction reached with
  | refl => exact ⟨rfl, fun kind => le_rfl, fun kind => le_rfl⟩
  | @tail before after path step inductionHypothesis =>
    obtain ⟨numbered, runs, deliveries⟩ := inductionHypothesis
    rcases dwindles_step step with dwindles | ⟨message, rest, readings, first, rfl⟩
    · refine ⟨?_, fun kind => ?_, fun kind => ?_⟩
      · rw [Numbered, dwindles.claimed]
        exact numbered
      · simp only [ledger, Ledger.tally, dwindles.claimed, dwindles.finished]
        exact (Nat.add_le_add_left (dwindles.outstanding kind) _).trans (runs kind)
      · calc after.deliveries.tally kind
            ≤ before.deliveries.tally kind := dwindles.deliveries kind
          _ ≤ before.claimed.countP kind := deliveries kind
          _ = after.claimed.countP kind := by rw [dwindles.claimed]
    · have received := receive_counts before.driver
        (before.issue (before.actor.claimed ⟨message.command, readings⟩)) message.command
      refine ⟨before.issue_numbered _ numbered, fun kind => ?_, fun kind => ?_⟩
      · have counts := process_counts before message rest readings first kind
        have here : before.finished.countP kind + before.outstanding.countP kind ≤
          before.claimed.countP kind := runs kind
        change (message.runs ++ before.finished).countP kind +
          (before.process message rest readings).outstanding.countP kind ≤
            (before.claimed ++ before.issue _).countP kind
        rw [List.countP_append, List.countP_append]
        omega
      · have here : before.deliveries.tally kind ≤ before.claimed.countP kind := deliveries kind
        simp only [World.deliveries, undelivered, Ledger.tally, List.countP_append] at here
        simp only [World.deliveries, undelivered, Ledger.tally, process, List.countP_append]
        have reply := received kind
        omega

/-- No run is outstanding twice, or outstanding and acknowledged. -/
theorem runs_once {bufferSize : Nat} {world : World T} (reached : Reachable bufferSize world) :
    (world.finished ++ world.outstanding).Nodup := by
  obtain ⟨numbered, runs, _⟩ := bounded_reachable reached
  exact runs.once (numbered_distinct _ numbered)

/-- No run is delivered or refused twice, or before its task sends it. -/
theorem deliveries_once {bufferSize : Nat} {world : World T}
    (reached : Reachable bufferSize world) :
    (world.delivered ++ world.refused ++ world.undelivered).Nodup := by
  obtain ⟨numbered, _, deliveries⟩ := bounded_reachable reached
  exact deliveries.once (numbered_distinct _ numbered)

/-! ### What consumers have been given -/

/-- The runs whose tasks wait for an answer. -/
def waitingRuns (world : World T) : List (Run T) :=
  (world.tasks.filter fun task => decide (task.phase = .waiting)).map Task.run

/-- The runs that are on the channel or with consumers are those whose tasks wait. -/
def Entrusted (world : World T) : Prop := (world.channel ++ world.held).Perm world.waitingRuns

/-- Resolving receivers takes their runs from those that wait. -/
theorem resolve_waiting (runs : List (Run T)) (ack : AckMessage) (tasks : List (Task T)) :
    ((resolve runs ack tasks).filter fun task => decide (task.phase = .waiting)).map Task.run =
      ((tasks.filter fun task => decide (task.phase = .waiting)).map Task.run).filter
        fun run => decide (run ∉ runs) := by
  induction tasks with
  | nil => rfl
  | cons task rest inductionHypothesis =>
    unfold resolve at inductionHypothesis ⊢
    rw [List.map_cons]
    by_cases waiting : task.phase = .waiting
    · by_cases named : task.run ∈ runs
      · simp [waiting, named, inductionHypothesis]
      · simp [waiting, named, inductionHypothesis]
    · simp [waiting, inductionHypothesis]

/-- The runs that wait are distinct, as all that are outstanding. -/
theorem waiting_distinct {bufferSize : Nat} {world : World T}
    (reached : Reachable bufferSize world) : world.waitingRuns.Nodup := by
  have outstanding : world.outstanding.Nodup := (List.nodup_append.mp (runs_once reached)).2.1
  have tasks : (world.tasks.map Task.run).Nodup :=
    (List.nodup_append.mp (List.nodup_append.mp outstanding).1).2.1
  exact (List.filter_sublist.map Task.run).nodup tasks

/-- A consumer's answer takes its run from the waiting and from the held. -/
theorem answer_entrusted (world : World T) (run : Run T) (ack : AckMessage)
    (holds : run ∈ world.held) (distinct : world.waitingRuns.Nodup)
    (entrusted : world.Entrusted) : (world.answer run ack).Entrusted := by
  have given : (world.channel ++ world.held).Nodup := entrusted.nodup_iff.mpr distinct
  have offChannel : run ∉ world.channel := fun onChannel =>
    (List.nodup_append.mp given).2.2 run onChannel run holds rfl
  have taken := entrusted.erase run
  rw [List.erase_append_right _ offChannel, distinct.erase_eq_filter] at taken
  have waiting : (world.answer run ack).waitingRuns = world.waitingRuns.filter (· != run) := by
    refine (resolve_waiting [run] ack world.tasks).trans ?_
    refine List.filter_congr fun other _ => ?_
    simp [bne, beq_eq_decide]
  rw [Entrusted, waiting]
  exact taken

/-- No step of a world that stays uncut parts a waiting task from its run. -/
theorem entrusted_step {bufferSize : Nat} {before after : World T}
    (step : Step bufferSize before after) (uncut : after.Uncut)
    (distinct : before.waitingRuns.Nodup) (entrusted : before.Entrusted) : after.Entrusted := by
  unfold Entrusted at entrusted
  cases step with
  | spawn run rest spawning => simpa [Entrusted, waitingRuns, moveTo, setTasks] using entrusted
  | dropTask front task back live cut => exact (cut.elim uncut.1 uncut.2).elim
  | deliver front run back live receiving room =>
    have waiting : before.waitingRuns = ((front ++ back).filter fun task =>
        decide (task.phase = .waiting)).map Task.run := by
      simp [waitingRuns, live]
    rw [waiting, List.filter_append, List.map_append] at entrusted
    simp only [Entrusted, waitingRuns, setTasks, put, List.filter_append, List.filter_cons,
      decide_true, if_true, List.map_append, List.map_cons, List.append_assoc, List.singleton_append]
    exact List.perm_middle.trans ((entrusted.cons run).trans List.perm_middle.symm)
  | refuse front run back live closed =>
    simpa [Entrusted, waitingRuns, setTasks, reject, live] using entrusted
  | receive run rest oldest =>
    rw [oldest] at entrusted
    exact List.perm_middle.trans entrusted
  | acknowledge run ack holds => exact answer_entrusted before run ack holds distinct entrusted
  | dropSender run holds => exact answer_entrusted before run .done holds distinct entrusted
  | dropReceiver receiving =>
    have given : (before.channel ++ before.held).Nodup := entrusted.nodup_iff.mpr distinct
    have kept := entrusted.filter fun run => decide (run ∉ before.channel)
    have left : (before.channel ++ before.held).filter (fun run => decide (run ∉ before.channel)) =
        before.held := by
      rw [List.filter_append, List.filter_eq_nil_iff.mpr (by simp), List.nil_append,
        List.filter_eq_self]
      intro run held
      exact decide_eq_true fun onChannel =>
        (List.nodup_append.mp given).2.2 run onChannel run held rfl
    rw [left] at kept
    rw [Entrusted, show before.closeChannel.waitingRuns = _ from
      resolve_waiting before.channel .done before.tasks]
    exact kept
  | finish front run ack back live room =>
    simpa [Entrusted, waitingRuns, enqueue, setTasks, live] using entrusted
  | _ => exact entrusted

/-- A step does not mend a world that is cut. -/
theorem step_uncut {bufferSize : Nat} {before after : World T}
    (step : Step bufferSize before after) (uncut : after.Uncut) : before.Uncut := by
  rcases step_cases step uncut with quiet | ⟨message, rest, readings, _, rfl⟩
  · exact quiet.uncut
  · exact process_uncut before message rest readings uncut

/-- Every interleaving that is not cut entrusts consumers with the runs whose tasks
wait, and no others. -/
theorem entrusted_reachable {bufferSize : Nat} {world : World T}
    (reached : Reachable bufferSize world) (uncut : world.Uncut) : world.Entrusted := by
  induction reached with
  | refl => exact List.Perm.refl _
  | tail path step inductionHypothesis =>
    have before := step_uncut step uncut
    exact entrusted_step step uncut (waiting_distinct path) (inductionHypothesis before)

/-- One run at a time for every insertion. In every interleaving an id has no more
runs outstanding than times it was inserted, and when it has as many no claim reports
it. And while nothing is cut, what consumers have been given of it and not answered
is no more than that either. -/
theorem one_run_per_insertion (bufferSize : Nat) (world : World T)
    (reached : Reachable bufferSize world) (id : T) :
    world.runsOf id ≤ world.births id ∧
      (world.runsOf id = world.births id →
        ∀ readings, id ∉ world.actor.claimed ⟨.claimDue, readings⟩) ∧
      (world.Uncut → (world.channel ++ world.held).countP (fun run => decide (run.id = id)) ≤
        world.births id) := by
  obtain ⟨_, housed⟩ := housed_reachable reached
  have here := housed id
  refine ⟨(Nat.le_add_right _ _).trans here, ?_, ?_⟩
  · intro full readings reported
    obtain ⟨history, same⟩ := actor_run reached
    have keyed : world.actor.Keyed := same ▸ SchedulerActor.keyed_run history
    have free := (SchedulerActor.claimed_vacancy keyed _ reported).1
    omega
  · intro uncut
    have waiting : world.waitingRuns.Sublist (world.tasks.map Task.run) :=
      List.filter_sublist.map Task.run
    calc (world.channel ++ world.held).countP (fun run => decide (run.id = id))
        = world.waitingRuns.countP fun run => decide (run.id = id) :=
          (entrusted_reachable reached uncut).countP_eq _
      _ ≤ (world.tasks.map Task.run).countP fun run => decide (run.id = id) :=
          waiting.countP_le
      _ ≤ world.runsOf id := by
          simp only [runsOf, outstanding, List.countP_append]
          omega
      _ ≤ world.births id := (Nat.le_add_right _ _).trans here

/-- A run lies on the channel, and its id was inserted often enough for it. -/
theorem one_run_delivered :
    ∃ world : World Nat, Reachable 4 world ∧ world.delivered.map Run.id = [1] ∧
      world.runsOf 1 ≤ world.births 1 := by
  obtain ⟨world, reached, delivered, _⟩ := delivered_reachable
  exact ⟨world, reached, delivered, (one_run_per_insertion 4 world reached 1).1⟩

end World

end Ritualist
