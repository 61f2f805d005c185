import Ritualist.Library.Ledger
import Ritualist.SingleFlight
import Ritualist.Driver

/-!
# No run is lost, and no activity is stuck

A claim issues a token for every id it reports. The token waits in the reply and
in the driver's list, goes with the dispatch task, lies in the queue with the
acknowledgement, and is retired when the actor processes that. So every step is a
move of the ledger of runs, and reports balance with acknowledgements processed
and runs outstanding. A second ledger follows each token to its delivery.

The one step that could lose tokens is a claim whose reply nobody awaits. The
queue holds a claim exactly while the driver awaits its reply, so there is none.

An activity that is running has a run outstanding: only a claim makes it running,
and whatever acknowledgement is processed for its id, stale or not, ends that.
-/

namespace Ritualist

universe u
variable {T : Type u}

/-- The message is a claim. -/
def Message.asks : Message T → Bool
  | .plain .claimDue => true
  | _ => false

/-- The number of replies the driver awaits. -/
def DriverPoint.awaited : DriverPoint T → Nat
  | .awaiting => 1
  | _ => 0

namespace World

/-- The runs in an unread reply or the driver's list, in a live task, or in an
acknowledgement in the queue. -/
def outstanding (world : World T) : List (Run T) :=
  world.driver.runs ++ world.tasks.map Task.run ++ world.queue.flatMap Message.runs

/-- The runs that have not reached `sender.send`, or wait there. -/
def undelivered (world : World T) : List (Run T) :=
  world.driver.runs ++
    (world.tasks.filter fun task => decide (task.phase = .sending)).map Task.run

/-- The ledger of runs: a run is retired when its acknowledgement is processed. -/
def ledger (world : World T) : Ledger (Run T) :=
  ⟨world.claimed, world.finished, world.outstanding⟩

/-- The ledger of deliveries: a run is retired when the activity channel takes or
refuses it. -/
def deliveries (world : World T) : Ledger (Run T) :=
  ⟨world.claimed, world.delivered ++ world.refused, world.undelivered⟩

/-- The queue holds one claim while the driver awaits its reply, and none
otherwise. -/
def Asked (world : World T) : Prop :=
  world.queue.countP Message.asks = world.driver.awaited

/-- Runs are numbered in the order of their claims. -/
def Numbered (world : World T) : Prop :=
  world.claimed.map Run.serial = List.range world.claimed.length

/-! ### Identities of runs -/

/-- A claim issues one run for every id it reports. -/
theorem issue_ids (world : World T) (ids : List T) : (world.issue ids).map Run.id = ids := by
  rw [issue, List.map_map]
  exact List.zipIdx_map_fst _ ids

/-- Issued runs continue the numbering. -/
theorem issue_numbered (world : World T) (ids : List T) (numbered : world.Numbered) :
    (world.claimed ++ world.issue ids).map Run.serial =
      List.range (world.claimed ++ world.issue ids).length := by
  have serials : (world.issue ids).map Run.serial =
      List.range' world.claimed.length ids.length := by
    rw [issue, List.map_map]
    exact List.zipIdx_map_snd _ ids
  have issued : (world.issue ids).length = ids.length := by simp [issue]
  rw [List.map_append, numbered, serials, List.length_append, issued, List.range_add,
    ← List.range'_eq_map_range]

/-- Numbered runs are distinct. -/
theorem numbered_distinct (runs : List (Run T))
    (numbered : runs.map Run.serial = List.range runs.length) : runs.Nodup :=
  List.Nodup.of_map Run.serial (numbered ▸ List.nodup_range)

/-- Issued runs are distinct, and none was issued before. -/
theorem issue_fresh (world : World T) (ids : List T) (numbered : world.Numbered) :
    (world.issue ids).Nodup ∧ ∀ run ∈ world.issue ids, run ∉ world.claimed := by
  obtain ⟨_, distinct, disjoint⟩ :=
    List.nodup_append.mp (numbered_distinct _ (world.issue_numbered ids numbered))
  exact ⟨distinct, fun run issued claimed => disjoint run claimed run issued rfl⟩

/-! ### What a step does to the parts -/

/-- A message queued adds the run it acknowledges. -/
theorem enqueue_outstanding (world : World T) (message : Message T) :
    (world.enqueue message).outstanding = world.outstanding ++ message.runs := by
  simp [outstanding, enqueue]

/-- Nothing but a claim replies to the driver. -/
theorem receive_silent (point : DriverPoint T) (runs : List (Run T)) (message : Message T)
    (silent : message.asks = false) : point.receive runs message.command = point := by
  cases message with
  | plain command =>
    cases command with
    | claimDue => cases silent
    | _ => rfl
  | finish run ack => rfl

/-- A claim at the head of the queue is awaited by the driver. -/
theorem asked_head (world : World T) (message : Message T) (rest : List (Message T))
    (first : world.queue = message :: rest) (asks : message.asks = true) (asked : world.Asked) :
    message = .plain .claimDue ∧ world.driver = .awaiting := by
  have claims : message = .plain .claimDue := by
    cases message with
    | plain command =>
      cases command with
      | claimDue => rfl
      | _ => cases asks
    | finish run ack => cases asks
  refine ⟨claims, ?_⟩
  unfold Asked at asked
  rw [first, List.countP_cons_of_pos asks] at asked
  cases driver : world.driver with
  | awaiting => rfl
  | _ => simp [driver, DriverPoint.awaited] at asked

variable [DecidableEq T]

/-- Resolving receivers moves no run. -/
theorem resolve_runs (runs : List (Run T)) (ack : AckMessage) (tasks : List (Task T)) :
    (resolve runs ack tasks).map Task.run = tasks.map Task.run := by
  rw [resolve, List.map_map]
  refine List.map_congr_left fun task _ => ?_
  simp only [Function.comp]
  split <;> rfl

/-- Resolving receivers leaves the tasks that are sending as they are. -/
theorem resolve_sending (runs : List (Run T)) (ack : AckMessage) (tasks : List (Task T)) :
    (resolve runs ack tasks).filter (fun task => decide (task.phase = .sending)) =
      tasks.filter fun task => decide (task.phase = .sending) := by
  induction tasks with
  | nil => rfl
  | cons task rest inductionHypothesis =>
    unfold resolve at inductionHypothesis ⊢
    rw [List.map_cons, List.filter_cons, List.filter_cons, inductionHypothesis]
    by_cases resolved : task.run ∈ runs ∧ task.phase = .waiting
    · simp [resolved]
    · simp [resolved]

/-- No command but a claim reports runs. -/
theorem issue_silent (world : World T) (keyed : world.actor.Keyed) (message : Message T)
    (readings : T → Reading) (silent : message.asks = false) :
    world.issue (world.actor.claimed ⟨message.command, readings⟩) = [] := by
  have unreported : world.actor.claimed ⟨message.command, readings⟩ = [] := by
    refine List.eq_nil_iff_forall_not_mem.mpr fun id reported => ?_
    have claims := ((SchedulerActor.mem_claimed_iff keyed _).mp reported).1
    cases message with
    | plain command =>
      obtain rfl : command = .claimDue := claims
      cases silent
    | finish run ack => cases claims
  rw [unreported]
  rfl

/-! ### What the steps of the other parties do -/

/-- A step that leaves the actor and its records alone. It loses no outstanding
run, moves the ledger of deliveries, and keeps a claim in the queue awaited. -/
structure Quiet (before after : World T) : Prop where
  actor : after.actor = before.actor
  claimed : after.claimed = before.claimed
  finished : after.finished = before.finished
  outstanding : after.outstanding.Perm before.outstanding
  deliveries : Ledger.Move before.deliveries after.deliveries
  asked : before.Asked → after.Asked
  uncut : before.Uncut

omit [DecidableEq T] in
/-- The driver's loop moves on with the runs it holds. -/
theorem quiet_moveTo {world : World T} {point other : DriverPoint T}
    (here : world.driver = other) (runs : point.runs = other.runs)
    (awaited : point.awaited = other.awaited) (uncut : other ≠ .expired ∧ other ≠ .aborted) :
    Quiet world (world.moveTo point) := by
  subst here
  constructor
  case outstanding => simp [outstanding, moveTo, runs]
  case deliveries =>
    have same : (world.moveTo point).undelivered = world.undelivered := by
      simp [undelivered, moveTo, runs]
    exact .move (same ▸ List.Perm.refl _)
  case asked => exact fun asked => Eq.trans asked awaited.symm
  case uncut => exact uncut
  all_goals rfl

omit [DecidableEq T] in
/-- The driver's loop sends a command of its own and moves on: it awaits a reply
more exactly when the command is a claim. -/
theorem quiet_sends {world : World T} {command : Command T} {point other : DriverPoint T}
    (here : world.driver = other) (runs : point.runs = other.runs)
    (awaited : point.awaited = other.awaited + if Message.asks (.plain command) then 1 else 0)
    (uncut : other ≠ .expired ∧ other ≠ .aborted) :
    Quiet world ((world.enqueue (.plain command)).moveTo point) := by
  subst here
  constructor
  case outstanding => simp [outstanding, enqueue, moveTo, runs, Message.runs]
  case deliveries =>
    have same : ((world.enqueue (.plain command)).moveTo point).undelivered =
        world.undelivered := by
      simp [undelivered, enqueue, moveTo, runs]
    exact .move (same ▸ List.Perm.refl _)
  case asked =>
    intro asked
    rw [Asked] at asked
    simp only [Asked, enqueue, moveTo, List.countP_append, List.countP_singleton, awaited, asked]
  case uncut => exact uncut
  all_goals rfl

omit [DecidableEq T] in
/-- What consumers and the cancellation touch: no task moves out of the list or
to or from `sender.send`. -/
theorem quiet_tasks {world after : World T} (uncut : world.Uncut)
    (driver : after.driver = world.driver) (queue : after.queue = world.queue)
    (runs : after.tasks.map Task.run = world.tasks.map Task.run)
    (sending : (after.tasks.filter fun task => decide (task.phase = .sending)) =
      world.tasks.filter fun task => decide (task.phase = .sending))
    (records : after.actor = world.actor ∧ after.claimed = world.claimed ∧
      after.finished = world.finished ∧ after.delivered = world.delivered ∧
      after.refused = world.refused) : Quiet world after := by
  obtain ⟨actor, claimed, finished, delivered, refused⟩ := records
  constructor
  case actor => exact actor
  case claimed => exact claimed
  case finished => exact finished
  case outstanding => rw [outstanding, outstanding, driver, queue, runs]
  case deliveries =>
    have same : after.deliveries = world.deliveries := by
      rw [deliveries, deliveries, undelivered, undelivered, driver, sending, claimed, delivered,
        refused]
    rw [same]
    exact .move (List.Perm.refl _)
  case asked =>
    intro asked
    rw [Asked, driver, queue]
    exact asked
  case uncut => exact uncut

omit [DecidableEq T] in
/-- Taking a run from the task that sends it. -/
theorem undelivered_taken (world : World T) (front : List (Task T)) (run : Run T)
    (back : List (Task T)) (phase : Phase) (sent : phase ≠ .sending)
    (live : world.tasks = front ++ ⟨run, .sending⟩ :: back) (after : World T)
    (driver : after.driver = world.driver) (tasks : after.tasks = front ++ ⟨run, phase⟩ :: back) :
    world.undelivered.Perm (run :: after.undelivered) := by
  simp only [undelivered, driver, tasks, live, List.filter_append, List.filter_cons,
    decide_true, if_true, sent, decide_false, Bool.false_eq_true, if_false, List.map_append,
    List.map_cons, ← List.append_assoc]
  exact List.perm_middle

omit [DecidableEq T] in
/-- No operation of `WithScheduler` asks for what is due. -/
theorem request_silent (request : Request T) (command : Command T)
    (accepted : request.command = .ok command) : Message.asks (.plain command) = false := by
  obtain ⟨rfl, _⟩ := (request_sent_iff request command).mp accepted
  cases request <;> rfl

/-- A step of a world that stays uncut is quiet, or it is the actor's. -/
theorem step_cases {bufferSize : Nat} {before after : World T}
    (step : Step bufferSize before after) (uncut : after.Uncut) :
    Quiet before after ∨
      ∃ message rest readings, before.queue = message :: rest ∧
        after = before.process message rest readings := by
  cases step with
  | request request command accepted room =>
    have plain := request_silent request command accepted
    refine Or.inl ⟨rfl, rfl, rfl, ?_, .move (List.Perm.refl _), ?_, uncut⟩
    · rw [enqueue_outstanding, Message.runs, List.append_nil]
    · intro asked
      simpa [Asked, enqueue, List.countP_append, plain] using asked
  | tick selecting room => exact Or.inl (quiet_sends selecting rfl rfl (by simp))
  | claimDue claiming room => exact Or.inl (quiet_sends claiming rfl rfl (by simp))
  | collect runs replied => exact Or.inl (quiet_moveTo replied rfl rfl (by simp))
  | spawn run rest spawning =>
    refine Or.inl ⟨rfl, rfl, rfl, ?_, .move ?_, ?_, by simp [Uncut, spawning]⟩
    · simp [outstanding, moveTo, setTasks, spawning, DriverPoint.runs]
    · simp [undelivered, moveTo, setTasks, spawning, DriverPoint.runs]
    · intro asked
      simpa [Asked, moveTo, setTasks, spawning, DriverPoint.awaited] using asked
  | resume spawned => exact Or.inl (quiet_moveTo spawned rfl rfl (by simp))
  | cancel => exact Or.inl (quiet_tasks uncut rfl rfl rfl rfl ⟨rfl, rfl, rfl, rfl, rfl⟩)
  | drain selecting cancelled => exact Or.inl (quiet_moveTo selecting rfl rfl (by simp))
  | stop draining joined => exact Or.inl (quiet_moveTo draining rfl rfl (by simp))
  | expire draining => exact absurd rfl uncut.1
  | abort => exact absurd rfl uncut.2
  | dropTask front task back live cut => exact (cut.elim uncut.1 uncut.2).elim
  | deliver front run back live receiving room =>
    refine Or.inl ⟨rfl, rfl, rfl, ?_, .retire run ?_ (List.Perm.refl _), id, uncut⟩
    · simp [outstanding, setTasks, put, live]
    · exact undelivered_taken before front run back .waiting (by decide) live _ rfl rfl
  | refuse front run back live closed =>
    refine Or.inl ⟨rfl, rfl, rfl, ?_, .retire run ?_ List.perm_middle, id, uncut⟩
    · simp [outstanding, setTasks, reject, live]
    · exact undelivered_taken before front run back (.finishing .done) (by decide) live _ rfl rfl
  | receive run rest oldest =>
    exact Or.inl (quiet_tasks uncut rfl rfl rfl rfl ⟨rfl, rfl, rfl, rfl, rfl⟩)
  | acknowledge run ack holds =>
    exact Or.inl (quiet_tasks uncut rfl rfl (resolve_runs _ _ _) (resolve_sending _ _ _)
      ⟨rfl, rfl, rfl, rfl, rfl⟩)
  | dropSender run holds =>
    exact Or.inl (quiet_tasks uncut rfl rfl (resolve_runs _ _ _) (resolve_sending _ _ _)
      ⟨rfl, rfl, rfl, rfl, rfl⟩)
  | dropReceiver receiving =>
    exact Or.inl (quiet_tasks uncut rfl rfl (resolve_runs _ _ _) (resolve_sending _ _ _)
      ⟨rfl, rfl, rfl, rfl, rfl⟩)
  | finish front run ack back live room =>
    refine Or.inl ⟨rfl, rfl, rfl, ?_, .move ?_, ?_, uncut⟩
    · apply List.perm_iff_count.mpr
      intro token
      simp only [outstanding, enqueue, setTasks, live, List.map_append, List.map_cons,
        List.flatMap_append, List.flatMap_singleton, Message.runs, List.count_append,
        List.count_cons, List.count_nil]
      omega
    · simp [undelivered, enqueue, setTasks, live]
    · intro asked
      simpa [Asked, enqueue, setTasks, List.countP_append, Message.asks] using asked
  | process message rest first readings =>
    exact Or.inr ⟨message, rest, readings, first, rfl⟩

/-! ### What the actor's steps do -/

/-- Processing a claim issues the runs it reports; processing an acknowledgement
retires its run; processing anything else moves nothing. -/
theorem process_ledger (world : World T) (message : Message T) (rest : List (Message T))
    (readings : T → Reading) (first : world.queue = message :: rest) (asked : world.Asked)
    (numbered : world.Numbered) (keyed : world.actor.Keyed) :
    Ledger.Move world.ledger (world.process message rest readings).ledger := by
  cases asks : message.asks with
  | true =>
    obtain ⟨rfl, awaiting⟩ := asked_head world message rest first asks asked
    obtain ⟨distinct, fresh⟩ := world.issue_fresh
      (world.actor.claimed ⟨.claimDue, readings⟩) numbered
    refine .issue _ distinct fresh ?_
    simp [outstanding, process, first, awaiting, DriverPoint.receive, DriverPoint.runs,
      Message.command, Message.runs]
  | false =>
    have processed : (world.process message rest readings).ledger =
        ⟨world.claimed, message.runs ++ world.finished,
          world.driver.runs ++ world.tasks.map Task.run ++ rest.flatMap Message.runs⟩ := by
      simp only [ledger, outstanding, process, issue_silent world keyed message readings asks,
        receive_silent _ _ message asks, List.append_nil]
    rw [processed]
    cases message with
    | plain command =>
      refine .move ?_
      simp [outstanding, first, Message.runs]
    | finish run ack =>
      refine .retire run ?_ (List.Perm.refl _)
      simp only [outstanding, first, List.flatMap_cons, Message.runs, List.singleton_append]
      exact List.perm_middle

/-- Processing a claim issues runs to be delivered, and processing anything else
moves nothing. -/
theorem process_deliveries (world : World T) (message : Message T) (rest : List (Message T))
    (readings : T → Reading) (first : world.queue = message :: rest) (asked : world.Asked)
    (numbered : world.Numbered) (keyed : world.actor.Keyed) :
    Ledger.Move world.deliveries (world.process message rest readings).deliveries := by
  cases asks : message.asks with
  | true =>
    obtain ⟨rfl, awaiting⟩ := asked_head world message rest first asks asked
    obtain ⟨distinct, fresh⟩ := world.issue_fresh
      (world.actor.claimed ⟨.claimDue, readings⟩) numbered
    refine .issue _ distinct fresh ?_
    simp [undelivered, process, awaiting, DriverPoint.receive, DriverPoint.runs, Message.command]
  | false =>
    have silent := issue_silent world keyed message readings asks
    have processed : (world.process message rest readings).deliveries = world.deliveries := by
      simp only [deliveries, undelivered, process, silent, receive_silent _ _ message asks,
        List.append_nil]
    rw [processed]
    exact .move (List.Perm.refl _)

/-- Processing the claim answers the driver, and nothing else does. -/
theorem process_asked (world : World T) (message : Message T) (rest : List (Message T))
    (readings : T → Reading) (first : world.queue = message :: rest) (asked : world.Asked) :
    (world.process message rest readings).Asked := by
  unfold Asked at asked ⊢
  cases asks : message.asks with
  | true =>
    obtain ⟨rfl, awaiting⟩ := asked_head world message rest first asks asked
    simpa [first, process, awaiting, DriverPoint.awaited, DriverPoint.receive, Message.command,
      asks] using asked
  | false => simpa [process, first, receive_silent _ _ message asks, asks] using asked

/-- Processing a command does not cut a world, and does not mend one. -/
theorem process_uncut (world : World T) (message : Message T) (rest : List (Message T))
    (readings : T → Reading) (uncut : (world.process message rest readings).Uncut) :
    world.Uncut := by
  constructor
  · intro expired
    exact uncut.1 (by simp [process, expired, DriverPoint.receive])
  · intro aborted
    exact uncut.2 (by simp [process, aborted, DriverPoint.receive])

/-! ### A running activity has a run outstanding -/

/-- Every running activity, wrapped or not, has a run outstanding. -/
def Attended (world : World T) : Prop :=
  ∀ id, world.actor.EntrySatisfies id fun activity =>
    activity.state.stripped = .running → ∃ run ∈ world.outstanding, run.id = id

/-- What is outstanding after the actor's step: the runs a claim issues, and what
was outstanding but for the run acknowledged. -/
theorem process_outstanding (world : World T) (message : Message T) (rest : List (Message T))
    (readings : T → Reading) (first : world.queue = message :: rest) (asked : world.Asked)
    (keyed : world.actor.Keyed) (run : Run T) :
    (run ∈ world.issue (world.actor.claimed ⟨message.command, readings⟩) →
        run ∈ (world.process message rest readings).outstanding) ∧
      (run ∈ world.outstanding → run ∉ message.runs →
        run ∈ (world.process message rest readings).outstanding) := by
  cases asks : message.asks with
  | true =>
    obtain ⟨rfl, awaiting⟩ := asked_head world message rest first asks asked
    simp only [outstanding, process, first, awaiting, DriverPoint.receive, DriverPoint.runs,
      Message.command, Message.runs, List.flatMap_cons, List.nil_append, List.mem_append]
    exact ⟨fun issued => Or.inl (Or.inl issued), fun held _ => held.imp_left Or.inr⟩
  | false =>
    simp only [outstanding, process, first, issue_silent world keyed message readings asks,
      receive_silent _ _ message asks, List.flatMap_cons, List.mem_append, List.not_mem_nil,
      false_implies, true_and]
    rintro (held | acknowledged | later) other
    · exact Or.inl held
    · exact absurd acknowledged other
    · exact Or.inr later

/-- The actor's step leaves every running activity attended: a claim that makes
it running issues its run, and an acknowledgement for its id, of whichever run,
leaves it idle or snoozed, or absent. -/
theorem process_attended (world : World T) (message : Message T) (rest : List (Message T))
    (readings : T → Reading) (first : world.queue = message :: rest) (asked : world.Asked)
    (keyed : world.actor.Keyed)
    (settled : ∀ id, world.actor.EntrySatisfies id fun activity => activity.state.Settled)
    (attended : world.Attended) : (world.process message rest readings).Attended := by
  intro id after present running
  change (world.actor.step ⟨message.command, readings⟩).activities.lookup id = some after at present
  rw [SchedulerActor.lookup_step] at present
  rcases Event.advance_some _ _ _ after present with ⟨spec, _, rfl⟩ | ⟨before, held, move⟩
  · cases running
  · have kept := process_outstanding world message rest readings first asked keyed
    rcases move.running_from (settled id before held).bare running with
      ⟨wasRunning, unfinished⟩ | ⟨event, due⟩
    · obtain ⟨run, outstanding, rfl⟩ := attended id before held wasRunning
      refine ⟨run, (kept run).2 outstanding ?_, rfl⟩
      intro acknowledged
      cases message with
      | plain command => cases acknowledged
      | finish acknowledgedRun ack =>
        obtain rfl := List.mem_singleton.mp acknowledged
        exact unfinished ack ((world.actor.event_finish_iff run.id _ ack).mpr rfl)
    · have claims := (world.actor.event_claim_due_iff id _).mp event
      have reported : id ∈ world.actor.claimed ⟨message.command, readings⟩ :=
        (SchedulerActor.mem_claimed_iff keyed _).mpr ⟨claims, before, held, due⟩
      rw [← world.issue_ids (world.actor.claimed ⟨message.command, readings⟩)] at reported
      obtain ⟨run, issued, same⟩ := List.mem_map.mp reported
      exact ⟨run, (kept run).1 issued, same⟩

/-! ### Every world that is not cut -/

/-- What every step of an uncut world keeps. -/
structure Accounted (world : World T) : Prop where
  asked : world.Asked
  numbered : world.Numbered
  runs : world.ledger.Sound
  deliveries : world.deliveries.Sound
  attended : world.Attended

/-- Every interleaving keeps the accounts until it is cut. -/
theorem accounted_reachable {bufferSize : Nat} {world : World T}
    (reached : Reachable bufferSize world) (uncut : world.Uncut) : world.Accounted := by
  induction reached with
  | refl =>
    exact ⟨rfl, rfl, Ledger.empty_sound, Ledger.empty_sound, fun id =>
      SchedulerActor.empty_satisfies id _⟩
  | tail path step inductionHypothesis =>
    rename_i before after
    obtain ⟨history, same⟩ := actor_run path
    have keyed : before.actor.Keyed := same ▸ SchedulerActor.keyed_run history
    have settled : ∀ id, before.actor.EntrySatisfies id fun activity => activity.state.Settled :=
      same ▸ SchedulerActor.settled_run history
    rcases step_cases step uncut with quiet | ⟨message, rest, readings, first, rfl⟩
    · obtain ⟨asked, numbered, runs, deliveries, attended⟩ := inductionHypothesis quiet.uncut
      constructor
      case asked => exact quiet.asked asked
      case numbered => rw [Numbered, quiet.claimed]; exact numbered
      case runs =>
        apply runs.move
        rw [ledger, ledger, quiet.claimed, quiet.finished]
        exact .move quiet.outstanding
      case deliveries => exact deliveries.move quiet.deliveries
      case attended =>
        intro id activity present running
        rw [quiet.actor] at present
        obtain ⟨run, outstanding, sameId⟩ := attended id activity present running
        exact ⟨run, quiet.outstanding.mem_iff.mpr outstanding, sameId⟩
    · obtain ⟨asked, numbered, runs, deliveries, attended⟩ :=
        inductionHypothesis (process_uncut before message rest readings uncut)
      constructor
      case asked => exact process_asked before message rest readings first asked
      case numbered => exact before.issue_numbered _ numbered
      case runs =>
        exact runs.move (process_ledger before message rest readings first asked numbered keyed)
      case deliveries =>
        exact deliveries.move
          (process_deliveries before message rest readings first asked numbered keyed)
      case attended =>
        exact process_attended before message rest readings first asked keyed settled attended

/-- Conservation of runs. In every world an interleaving reaches before it is
cut, every id was reported as often as acknowledgements for it were processed and
runs of it are outstanding; no run was delivered twice, and none that was not
claimed; and a running activity, wrapped or not, has a run outstanding. -/
theorem runs_conserved (bufferSize : Nat) (world : World T)
    (reached : Reachable bufferSize world) (uncut : world.Uncut) (id : T) :
    (world.claimed.countP fun run => decide (run.id = id)) =
        (world.finished.countP fun run => decide (run.id = id)) +
          world.outstanding.countP (fun run => decide (run.id = id)) ∧
      (world.delivered.Nodup ∧ ∀ run ∈ world.delivered, run ∈ world.claimed) ∧
      (world.actor.EntrySatisfies id fun activity =>
        activity.state.stripped = .running → ∃ run ∈ world.outstanding, run.id = id) := by
  have accounted := accounted_reachable reached uncut
  refine ⟨accounted.runs.balance _, ⟨?_, ?_⟩, accounted.attended id⟩
  · exact (List.nodup_append.mp accounted.deliveries.retired_once).1
  · intro run delivered
    exact accounted.deliveries.retired_issued (List.mem_append_left _ delivered)

/-- An interleaving after which one run of an interval activity lies on the
activity channel. -/
theorem delivered_reachable :
    ∃ world : World Nat, Reachable 4 world ∧ world.delivered.map Run.id = [1] ∧ world.Uncut := by
  have registered : Reachable 4 _ := .tail (.tail .refl
      (.request World.initial (.register ⟨1, .fixedInterval 10⟩) _ rfl (by decide)))
    (.process _ _ _ rfl fun _ => .least 0 0)
  have claimed := (((registered.tail (.tick _ rfl (by decide))).tail
    (.process _ _ _ rfl fun _ => .least 10 10)).tail (.claimDue _ rfl (by decide))).tail
    (.process _ _ _ rfl fun _ => .least 10 10)
  have delivered := ((claimed.tail (.collect _ _ rfl)).tail (.spawn _ _ _ rfl)).tail
    (.deliver _ [] _ [] rfl rfl (by decide))
  exact ⟨_, delivered, rfl, by decide⟩

/-- A run on the activity channel is accounted for. -/
theorem runs_conserved_delivered :
    ∃ world : World Nat, Reachable 4 world ∧ world.Uncut ∧ world.delivered.map Run.id = [1] ∧
      (world.claimed.countP fun run => decide (run.id = 1)) =
        (world.finished.countP fun run => decide (run.id = 1)) +
          world.outstanding.countP (fun run => decide (run.id = 1)) := by
  obtain ⟨world, reached, delivered, uncut⟩ := delivered_reachable
  exact ⟨world, reached, uncut, delivered, (runs_conserved 4 world reached uncut 1).1⟩

end World

end Ritualist
