import Ritualist.Dispatching
import Ritualist.Lifecycle
import Ritualist.Polling

/-!
# A due activity is run, and slow consumers delay their own runs only

The driver hands every run to a task of its own, so that neither the driver nor the
scheduler waits for a consumer. Left to themselves they come to rest with the queue
empty and the driver selecting again, or draining what consumers hold. What remains
are tasks whose run a consumer holds or has not received, and tasks that wait for room
in a full channel.

So a poll always gets through. It reports an activity that is due by the time its tick
is processed, unless a client's command for the id comes in between. How the turns of
the parties interleave, what else is queued and whether consumers answer does not
matter for that.
-/

namespace Ritualist

universe u
variable {T : Type u} [DecidableEq T]

namespace World

/-! ### What the consumers do not delay -/

/-- The turn carries on, and is not a consumer's. -/
def Works (bufferSize : Nat) (world : World T) (turn : Turn T) : Prop :=
  Carries bufferSize world turn ∧ turn.consumes = false

omit [DecidableEq T] in
/-- What is under way waits for the consumers. -/
structure Served (bufferSize : Nat) (world : World T) : Prop where
  queue : world.queue = []
  tasks : ∀ task ∈ world.tasks,
    task.phase = .waiting ∧ (task.run ∈ world.channel ∨ task.run ∈ world.held) ∨
      task.phase = .sending ∧ world.receiving = true ∧ bufferSize ≤ world.channel.length
  driver : world.driver =
    if world.cancelled then (if world.tasks = [] then .stopped else .draining) else .selecting

/-- A world in which only consumers can carry on is served. One of the readings of
every command is enough to see that the actor cannot. -/
theorem rest_served {bufferSize : Nat} {world : World T} (room : 0 < bufferSize)
    (reached : Reachable bufferSize world) (uncut : world.Uncut) (readings : T → Reading)
    (never : ∀ turn : Turn T, turn.carriesOn = true → turn.consumes = false →
      (∀ others, turn = .process others → others = readings) →
        world.permits bufferSize turn = false) : world.Served bufferSize := by
  obtain ⟨answerable, ordered⟩ := orderly_reachable reached
  have asked := (accounted_reachable reached uncut).asked
  have queue : world.queue = [] := by
    simpa [permits] using never (.process readings) rfl rfl (by simp)
  have free : world.queue.length < bufferSize := by rw [queue]; exact room
  have tasks : ∀ task ∈ world.tasks,
      task.phase = .waiting ∧ (task.run ∈ world.channel ∨ task.run ∈ world.held) ∨
        task.phase = .sending ∧ world.receiving = true ∧ bufferSize ≤ world.channel.length := by
    intro task live
    obtain ⟨place, here⟩ := List.getElem?_of_mem live
    cases phase : task.phase with
    | sending =>
      refine Or.inr ⟨rfl, ?_⟩
      cases receiving : world.receiving with
      | true =>
        have full := never (.deliver place) rfl rfl (by simp)
        simpa [permits, phaseAt, here, phase, receiving] using full
      | false =>
        simpa [permits, phaseAt, here, phase, receiving] using
          never (.refuse place) rfl rfl (by simp)
    | waiting => exact Or.inl ⟨rfl, answerable task live phase⟩
    | finishing ack =>
      simpa [permits, phaseAt, here, phase, free] using never (.finish place) rfl rfl (by simp)
  refine ⟨queue, tasks, ?_⟩
  cases point : world.driver with
  | selecting =>
    have uncancelled : world.cancelled = false := by
      simpa [permits, point] using never .drain rfl rfl (by simp)
    simp [uncancelled]
  | claiming => simpa [permits, point, free] using never .claimDue rfl rfl (by simp)
  | awaiting => simp [Asked, queue, point, DriverPoint.awaited] at asked
  | replied runs => simpa [permits, point] using never .collect rfl rfl (by simp)
  | spawning runs =>
    cases runs with
    | nil => simpa [permits, point] using never .resume rfl rfl (by simp)
    | cons run rest => simpa [permits, point] using never .spawn rfl rfl (by simp)
  | draining =>
    have live : world.tasks ≠ [] := by
      simpa [permits, point] using never .stop rfl rfl (by simp)
    simp [ordered (Or.inl point), live]
  | stopped =>
    have gone := (driver_ended_iff reached).mp (by simp [driverEnded, point])
    simp [ordered (Or.inr point), gone.1]
  | expired => exact absurd point uncut.1
  | aborted => exact absurd point uncut.2

/-- In a served world the runs that are not finished are those of its tasks. -/
theorem served_runs {bufferSize : Nat} {world : World T} (reached : Reachable bufferSize world)
    (uncut : world.Uncut) (served : world.Served bufferSize) :
    world.claimed.Perm (world.finished ++ world.tasks.map Task.run) := by
  have driver : world.driver.runs = [] := by
    rw [served.driver]
    split
    · split <;> rfl
    · rfl
  have conserved := (accounted_reachable reached uncut).runs.conserved
  simpa [ledger, outstanding, driver, served.queue] using conserved

/-- Consumers delay their own runs only. From every world that an interleaving reaches
and that is not cut, the other parties get, with no consumer's turn at all, to a world
in which only consumers can carry on; and every such world is served: the scheduler has
processed its queue, the driver selects again or has only to join tasks, and every run
ever claimed is finished but for those that a consumer holds, that lie on the channel,
or that wait for room in it. -/
theorem consumers_delay_their_own (bufferSize : Nat) (room : 0 < bufferSize) (world : World T)
    (reached : Reachable bufferSize world) (uncut : world.Uncut) :
    (∃ turns, Runs.Along perform (Works bufferSize) world turns ∧
        Runs.AtRest (Works bufferSize) (turns.foldl perform world)) ∧
      ∀ turns, Runs.Along perform (Carries bufferSize) world turns →
        Runs.AtRest (Works bufferSize) (turns.foldl perform world) →
          (turns.foldl perform world).Served bufferSize ∧
            (turns.foldl perform world).claimed.Perm ((turns.foldl perform world).finished ++
              (turns.foldl perform world).tasks.map Task.run) := by
  constructor
  · have kept : ∀ (world : World T) (turn : Turn T), Reachable bufferSize world ∧ world.Uncut →
        Works bufferSize world turn →
          Reachable bufferSize (world.perform turn) ∧ (world.perform turn).Uncut :=
      fun world turn before works => carries_preserved world turn before works.1
    exact Runs.comes_to_rest kept
      (fun world turn _ works => carrying_on_falls world turn works.1.1 works.1.2) ⟨reached, uncut⟩
  · intro turns taken resting
    obtain ⟨path, stillUncut⟩ := Runs.invariant_after carries_preserved ⟨reached, uncut⟩ taken
    have served : (turns.foldl perform world).Served bufferSize := by
      refine rest_served room path stillUncut (fun _ => .least 0 0) fun turn carries works _ => ?_
      by_contra possible
      exact resting turn ⟨⟨by simpa using possible, carries⟩, works⟩
    exact ⟨served, served_runs path stillUncut served⟩

/-- While a consumer leaves a run on the channel, everything else is served. -/
theorem delivered_run_delays_itself :
    ∃ world : World Nat, Reachable 4 world ∧ world.Uncut ∧ world.delivered.map Run.id = [1] ∧
      ∃ turns, Runs.Along perform (Works 4) world turns ∧
        Runs.AtRest (Works 4) (turns.foldl perform world) := by
  obtain ⟨world, reached, delivered, uncut⟩ := delivered_reachable
  exact ⟨world, reached, uncut, delivered,
    (consumers_delay_their_own 4 (by decide) world reached uncut).1⟩

end World

/-! ### A due activity is run -/

/-- The command is for the id. -/
def Command.names (id : T) (command : Command T) : Bool :=
  (SchedulerActor.commandSpecs command).any (fun spec => decide (spec.id = id)) ||
    match command with
    | .setEnabled target _ => decide (target = id)
    | .setImmediate target => decide (target = id)
    | .finish target _ => decide (target = id)
    | _ => false

/-- A command that is not for the id leaves it aside. -/
theorem unnamed_aside {id : T} {command : Command T} (unnamed : command.names id = false)
    (actor : SchedulerActor T) (readings : T → Reading) :
    SchedulerActor.Aside id actor ⟨command, readings⟩ := by
  obtain ⟨specs, target⟩ := Bool.or_eq_false_iff.mp unnamed
  refine ⟨⟨?_, ?_, ?_⟩, ?_⟩
  · rintro (rfl : command = _)
    simp at target
  · rintro ⟨spec, inserted⟩
    obtain ⟨member, same⟩ := SchedulerActor.event_insert actor id command spec inserted
    have other := List.any_eq_false.mp specs spec member
    exact other (decide_eq_true same)
  · intro acknowledges
    obtain ⟨ack, same⟩ := (SchedulerActor.acknowledges_iff id _).mp acknowledges
    obtain rfl : command = .finish id ack := same
    simp at target
  · rintro enabled (rfl : command = _)
    simp at target

omit [DecidableEq T] in
/-- A tick at an instant would bring the activity to its target, for who reads a wall
time. -/
def Activity.DueBy (activity : Activity T) (instant : Instant) (wall : DateTime) : Prop :=
  match activity.activationTarget with
  | .duration span => span ≤ activity.durationDelta + (instant - activity.lastTick)
  | .date date => date ≤ wall

omit [DecidableEq T] in
/-- A waiting activity is at its target after a tick that is late enough. -/
theorem due_by_ticked {activity : Activity T} {instant : Instant} {wall : DateTime}
    (due : activity.DueBy instant wall) (waiting : activity.state.isScheduled = true)
    (reading : Reading) (late : instant ≤ reading.now) :
    (activity.tick reading).DueBy (activity.tick reading).lastTick wall := by
  rw [activity.tick_waiting reading waiting]
  unfold Activity.DueBy at due ⊢
  cases target : activity.activationTarget with
  | date date => simpa [target] using due
  | duration span =>
    have longer : instant - activity.lastTick ≤ reading.now - activity.lastTick :=
      Nat.sub_le_sub_right late activity.lastTick
    simp only [target, Nat.sub_self, Nat.add_zero] at due ⊢
    exact due.trans (Nat.add_le_add_left longer _)

omit [DecidableEq T] in
/-- A waiting activity at its target is started by a claim. -/
theorem due_by_claimed {activity : Activity T} {wall : DateTime}
    (due : activity.DueBy activity.lastTick wall) (waiting : activity.state.isScheduled = true)
    (reading : Reading) (late : wall ≤ reading.nowUtc) : activity.shouldRun reading = true := by
  refine (activity.should_run_iff reading).mpr ⟨waiting, ?_⟩
  unfold Activity.DueBy at due
  unfold Activity.isAtTarget
  cases target : activity.activationTarget with
  | date date =>
    simp only [target] at due ⊢
    exact decide_eq_true (due.trans late)
  | duration span =>
    simp only [target, Nat.sub_self, Nat.add_zero] at due ⊢
    exact decide_eq_true due

/-- What a turn of other parties may do while an id is due: no client asks anything for
the id, the clock shows the instant and the wall time, and nobody aborts the driver. -/
def Turn.Spares (id : T) (instant : Instant) (wall : DateTime) : Turn T → Prop
  | .request asked => asked.unchecked.names id = false
  | .process readings => instant ≤ (readings id).now ∧ wall ≤ (readings id).nowUtc
  | .abort => False
  | _ => True

namespace World

/-- The polls that a driver waits for have been sent after the tick. -/
def asking : DriverPoint T → List Poll
  | .awaiting => [.claim]
  | _ => []

/-- How often claims have reported an id. -/
def reportsOf (world : World T) (id : T) : Nat :=
  world.claimed.countP fun run => decide (run.id = id)

/-- The messages a turn queues. -/
def sent (world : World T) : Turn T → List (Message T)
  | .request request =>
    match request.command with
    | .ok command => [.plain command]
    | .error _ => []
  | .tick => [.plain .tick]
  | .claimDue => [.plain .claimDue]
  | .finish place =>
    match world.tasks[place]? with
    | some ⟨run, .finishing ack⟩ => [.finish run ack]
    | _ => []
  | _ => []

/-- A turn appends what it sends, unless it is the actor's. -/
theorem perform_queue (world : World T) (turn : Turn T)
    (other : ∀ readings, turn ≠ .process readings) :
    (world.perform turn).queue = world.queue ++ world.sent turn := by
  cases turn with
  | process readings => exact absurd rfl (other readings)
  | tick | claimDue => rfl
  | request request =>
    cases accepted : request.command <;> simp [perform, sent, accepted, enqueue]
  | finish place =>
    simp only [perform, sent]
    cases world.tasks[place]? with
    | none => exact (List.append_nil _).symm
    | some task =>
      obtain ⟨run, phase⟩ := task
      cases phase with
      | finishing ack => rfl
      | _ => exact (List.append_nil _).symm
  | collect | spawn | deliver | refuse | receive =>
    simp only [perform, sent, List.append_nil]
    split <;> rfl
  | _ => exact (List.append_nil _).symm

/-- A poll is under way whose claim will report the id: the tick that makes it due is
queued before the claim, or it has been processed. -/
structure Pending (id : T) (instant : Instant) (wall : DateTime) (world : World T) : Prop where
  underway : world.driver = .claiming ∨ world.driver = .awaiting
  alone : world.runsOf id = 0
  unnamed : ∀ message ∈ world.queue, message.command.names id = false
  due : ∃ activity, world.actor.activities.lookup id = some activity ∧
    activity.state.isScheduled = true ∧
      (polls (world.queue.map Message.command) = .tick :: asking world.driver ∧
          activity.DueBy instant wall ∨
        polls (world.queue.map Message.command) = asking world.driver ∧
          activity.DueBy activity.lastTick wall)

section Turns

variable {bufferSize : Nat} {world : World T} {turn : Turn T} {id : T} {instant : Instant}
  {wall : DateTime} (permitted : world.permits bufferSize turn = true)
include permitted

/-- A turn that is not the actor's loses runs at most. -/
theorem perform_dwindles (other : ∀ readings, turn ≠ .process readings) :
    Dwindles world (world.perform turn) := by
  rcases dwindles_step (step_of_permitted world turn permitted) with
    dwindles | ⟨message, rest, readings, first, processed⟩
  · exact dwindles
  · have shorter : (world.perform turn).queue = rest := by
      rw [processed]
      rfl
    have lengths := congrArg List.length ((world.perform_queue turn other).symm.trans shorter)
    simp [first] at lengths
    omega

/-- While a poll is under way the driver sends its claim, or it stays where it is. -/
theorem perform_underway (other : ∀ readings, turn ≠ .process readings)
    (spares : turn.Spares id instant wall)
    (underway : world.driver = .claiming ∨ world.driver = .awaiting) :
    turn = .claimDue ∧ world.driver = .claiming ∧ (world.perform turn).driver = .awaiting ∨
      (turn ≠ .claimDue ∧ turn ≠ .tick) ∧ (world.perform turn).driver = world.driver := by
  cases turn with
  | process readings => exact absurd rfl (other readings)
  | abort => exact spares.elim
  | claimDue =>
    obtain ⟨claiming, _⟩ := of_decide_eq_true permitted
    exact Or.inl ⟨rfl, claiming, rfl⟩
  | tick | drain | stop | resume | expire | collect | spawn =>
    rcases underway with here | here <;> simp [permits, here] at permitted
  | request | deliver | refuse | receive | finish =>
    refine Or.inr ⟨⟨by simp, by simp⟩, ?_⟩
    simp only [perform]
    split <;> rfl
  | _ => exact Or.inr ⟨⟨by simp, by simp⟩, rfl⟩

/-- Nothing that is sent names an id that has no run outstanding. -/
theorem sent_unnamed (spares : turn.Spares id instant wall) (alone : world.runsOf id = 0) :
    ∀ message ∈ world.sent turn, message.command.names id = false := by
  intro message member
  cases turn with
  | request request =>
    obtain ⟨command, accepted, _, _⟩ := request_found permitted
    simp only [sent, accepted, List.mem_singleton] at member
    obtain ⟨same, _⟩ := (request_sent_iff request command).mp accepted
    subst member
    exact same ▸ spares
  | tick | claimDue =>
    obtain rfl := List.mem_singleton.mp member
    rfl
  | finish place =>
    obtain ⟨front, run, ack, back, live, _, performed⟩ := finish_found permitted
    have queue := world.perform_queue (.finish place) (by simp)
    rw [performed] at queue
    have same : world.sent (.finish place) = [.finish run ack] := (List.append_cancel_left queue).symm
    rw [same] at member
    obtain rfl := List.mem_singleton.mp member
    have other : run.id ≠ id := by
      intro own
      have outstanding : run ∈ world.outstanding := by
        simp [outstanding, live]
      have none := List.countP_eq_zero.mp alone run outstanding
      exact none (decide_eq_true own)
    simp [Message.command, Command.names, SchedulerActor.commandSpecs, other]
  | _ => cases member

/-- Only the driver sends a part of a poll. -/
theorem sent_unpolled (others : turn ≠ .claimDue ∧ turn ≠ .tick) :
    polls ((world.sent turn).map Message.command) = [] := by
  cases turn with
  | claimDue => exact absurd rfl others.1
  | tick => exact absurd rfl others.2
  | request request =>
    obtain ⟨command, accepted, _, _⟩ := request_found permitted
    simp [sent, accepted, polls, Message.command, request_unpolled accepted]
  | finish place =>
    simp only [sent]
    split <;> rfl
  | _ => rfl

/-- The turns of the other parties keep a poll pending. -/
theorem pending_aside (other : ∀ readings, turn ≠ .process readings)
    (spares : turn.Spares id instant wall) (pending : world.Pending id instant wall) :
    (world.perform turn).Pending id instant wall := by
  obtain ⟨underway, alone, unnamed, activity, present, waiting, due⟩ := pending
  have dwindles := perform_dwindles permitted other
  have queue := world.perform_queue turn other
  have polled : polls ((world.perform turn).queue.map Message.command) =
      polls (world.queue.map Message.command) ++ polls ((world.sent turn).map Message.command) := by
    rw [queue, List.map_append]
    exact List.filterMap_append
  have asks : asking (world.perform turn).driver =
      asking world.driver ++ polls ((world.sent turn).map Message.command) := by
    rcases perform_underway permitted other spares underway with
      ⟨rfl, claiming, awaiting⟩ | ⟨others, stays⟩
    · rw [awaiting, claiming]
      rfl
    · rw [stays, sent_unpolled permitted others, List.append_nil]
  constructor
  case underway =>
    rcases perform_underway permitted other spares underway with ⟨_, _, awaiting⟩ | ⟨_, stays⟩
    · exact Or.inr awaiting
    · rwa [stays]
  case alone => exact Nat.eq_zero_of_le_zero (alone ▸ dwindles.outstanding _)
  case unnamed =>
    intro message member
    rcases List.mem_append.mp (queue ▸ member) with earlier | new
    · exact unnamed message earlier
    · exact sent_unnamed permitted spares alone message new
  case due =>
    refine ⟨activity, dwindles.actor ▸ present, waiting, ?_⟩
    rw [polled, asks]
    rcases due with ⟨here, due⟩ | ⟨here, due⟩
    · exact Or.inl ⟨by rw [here, List.cons_append], due⟩
    · exact Or.inr ⟨by rw [here], due⟩

end Turns

/-- The actor's turn ticks the activity, reports it, or keeps its poll pending. -/
theorem pending_process {world : World T} {message : Message T} {rest : List (Message T)}
    {readings : T → Reading} {id : T} {instant : Instant} {wall : DateTime}
    (keyed : world.actor.Keyed) (first : world.queue = message :: rest)
    (late : instant ≤ (readings id).now ∧ wall ≤ (readings id).nowUtc)
    (pending : world.Pending id instant wall) :
    (world.process message rest readings).Pending id instant wall ∨
      world.reportsOf id < (world.process message rest readings).reportsOf id := by
  obtain ⟨underway, alone, unnamed, activity, present, waiting, due⟩ := pending
  have later : ∀ other ∈ rest, other.command.names id = false := fun other member =>
    unnamed other (first ▸ List.mem_cons_of_mem message member)
  have polled : polls (world.queue.map Message.command) =
      message.command.poll.toList ++ polls (rest.map Message.command) := by
    rw [first]
    cases poll : message.command.poll <;> simp [polls, poll]
  by_cases claims : message.command = .claimDue
  · right
    rcases due with ⟨here, _⟩ | ⟨_, ripe⟩
    · -- the claim is behind the tick
      rw [polled, claims] at here
      cases here
    · have reported : id ∈ world.actor.claimed ⟨message.command, readings⟩ :=
        (SchedulerActor.present_claimed_iff keyed _ present).mpr
          ⟨claims, due_by_claimed ripe waiting (readings id) late.2⟩
      have counted := world.issue_counts (world.actor.claimed ⟨message.command, readings⟩) id
      have once := List.count_pos_iff.mpr reported
      simp only [reportsOf, process, List.countP_append]
      omega
  · left
    have aside := unnamed_aside (unnamed message (first ▸ List.mem_cons_self)) world.actor readings
    have silent : world.actor.claimed ⟨message.command, readings⟩ = [] :=
      SchedulerActor.claimed_eq_nil _ _ claims
    have stays : (world.process message rest readings).driver = world.driver := by
      rcases receive_cases (world.issue (world.actor.claimed ⟨message.command, readings⟩))
        message.command world.driver with ⟨asks, _⟩ | ⟨same, _⟩
      · exact absurd asks claims
      · exact same
    obtain ⟨after, held, move⟩ := SchedulerActor.aside_present id world.actor _ activity present
      (ActivityState.scheduled_enabled _ waiting) (ActivityState.scheduled_settled _ waiting) aside
    constructor
    case underway => rwa [stays]
    case alone =>
      have counts := world.process_counts message rest readings first
        fun run => decide (run.id = id)
      rw [silent] at counts
      have none : world.outstanding.countP (fun run => decide (run.id = id)) = 0 := alone
      rw [none] at counts
      simp only [issue, List.zipIdx_nil, List.map_nil, List.countP_nil] at counts
      unfold runsOf
      omega
    case unnamed => exact later
    case due =>
      rw [stays]
      change ∃ activity, (world.actor.step ⟨message.command, readings⟩).activities.lookup id =
        some activity ∧ _ ∧ (polls (rest.map Message.command) = _ ∧ _ ∨ _)
      rcases aside.moves move with ⟨ticks, _, rfl⟩ | ⟨asks, _⟩ | ⟨unticked, rfl⟩
      · obtain ticks : message.command = .tick := ticks
        rw [ticks] at polled
        rcases due with ⟨here, soon⟩ | ⟨here, _⟩
        · refine ⟨_, held, ?_, Or.inr ⟨?_, due_by_ticked soon waiting (readings id) late.1⟩⟩
          · rw [activity.tick_waiting _ waiting]
            exact waiting
          · exact (List.cons.inj (polled.symm.trans here)).2
        · rcases underway with claiming | awaiting
          · rw [polled, claiming] at here
            cases here
          · rw [polled, awaiting] at here
            cases here
      · exact absurd asks claims
      · refine ⟨_, held, waiting, ?_⟩
        have unpolled : message.command.poll = none := by
          obtain unticked : message.command ≠ .tick := unticked
          cases command : message.command with
          | tick => exact absurd command unticked
          | claimDue => exact absurd command claims
          | _ => rfl
        rw [polled, unpolled, Option.toList_none, List.nil_append] at due
        exact due

/-- No turn takes a report back. -/
theorem reports_grow (world : World T) (turn : Turn T) (id : T) :
    world.reportsOf id ≤ (world.perform turn).reportsOf id := by
  by_cases acts : ∃ readings, turn = .process readings
  · obtain ⟨readings, rfl⟩ := acts
    simp only [perform, processFirst]
    split
    · exact le_rfl
    · simp [reportsOf, process]
  · have same := perform_claimed world turn fun readings same => acts ⟨readings, same⟩
    rw [reportsOf, reportsOf, same]

/-- The turns of an interleaving from a poll on keep the poll pending until it has
reported the id. -/
theorem pending_run {bufferSize : Nat} {world : World T} {turns : List (Turn T)} {id : T}
    {instant : Instant} {wall : DateTime} (reached : Reachable bufferSize world)
    (pending : world.Pending id instant wall)
    (taken : Runs.Along perform (fun world turn => world.permits bufferSize turn = true ∧
      turn.Spares id instant wall) world turns) :
    world.reportsOf id ≤ (turns.foldl perform world).reportsOf id ∧
      ((turns.foldl perform world).Pending id instant wall ∨
        world.reportsOf id < (turns.foldl perform world).reportsOf id) := by
  have kept : ∀ (before : World T) (turn : Turn T),
      Reachable bufferSize before ∧ world.reportsOf id ≤ before.reportsOf id ∧
        (before.Pending id instant wall ∨ world.reportsOf id < before.reportsOf id) →
      before.permits bufferSize turn = true ∧ turn.Spares id instant wall →
        Reachable bufferSize (before.perform turn) ∧
          world.reportsOf id ≤ (before.perform turn).reportsOf id ∧
          ((before.perform turn).Pending id instant wall ∨
            world.reportsOf id < (before.perform turn).reportsOf id) := by
    rintro before turn ⟨path, least, state⟩ ⟨permitted, spares⟩
    have grows := before.reports_grow turn id
    refine ⟨path.tail (step_of_permitted before turn permitted), least.trans grows, ?_⟩
    rcases state with pending | reported
    · by_cases acts : ∃ readings, turn = .process readings
      · obtain ⟨readings, rfl⟩ := acts
        obtain ⟨message, rest, first, performed⟩ := process_found permitted
        obtain ⟨history, same⟩ := actor_run path
        have keyed : before.actor.Keyed := same ▸ SchedulerActor.keyed_run history
        rw [performed]
        exact (pending_process keyed first spares pending).imp_right least.trans_lt
      · exact Or.inl (pending_aside permitted (fun readings same => acts ⟨readings, same⟩) spares
          pending)
    · exact Or.inr (reported.trans_le grows)
  exact (Runs.invariant_after kept ⟨reached, le_rfl, Or.inl pending⟩ taken).2

/-- A driver that selects has no part of a poll in the queue. -/
theorem selecting_unpolled {bufferSize : Nat} {turns : List (Turn T)}
    (taken : Interleaving bufferSize turns) (selecting : (reached turns).driver = .selecting) :
    polls ((reached turns).queue.map Message.command) = [] := by
  obtain ⟨count, rounds, here⟩ := polled_reached taken
  have uncut : (reached turns).Uncut := by simp [Uncut, selecting]
  have asked := (accounted_reachable (reached_reachable taken) uncut).asked
  rw [selecting] at here
  have even : count % 2 = 0 := here
  by_contra queued
  obtain ⟨front, last, split⟩ := (List.eq_nil_or_concat _).resolve_left queued
  -- the last command of whole rounds is a claim, and the driver would await its reply
  have claim : last = .claim := by
    cases count with
    | zero =>
      have empty := congrArg List.length rounds
      simp [split, Poll.rounds] at empty
    | succ count =>
      rw [Poll.rounds_succ, if_neg (by omega), split, List.concat_eq_append,
        ← List.append_assoc] at rounds
      exact List.singleton_inj.mp (List.append_inj' rounds rfl).2
  have member : Poll.claim ∈ polls ((reached turns).queue.map Message.command) := by
    rw [split, claim]
    simp
  obtain ⟨command, sent, poll⟩ := List.mem_filterMap.mp member
  obtain ⟨message, inQueue, rfl⟩ := List.mem_map.mp sent
  have asks : message.asks = true := by
    cases message with
    | plain command => cases command <;> first | rfl | cases poll
    | finish run ack => cases poll
  have none : (reached turns).queue.countP Message.asks = 0 := by
    simpa [Asked, selecting, DriverPoint.awaited] using asked
  exact List.countP_eq_zero.mp none message inQueue asks

/-- A poll that starts while an activity is as good as due is pending for it. -/
theorem tick_pending {bufferSize : Nat} {turns : List (Turn T)} {id : T} {activity : Activity T}
    {instant : Instant} {wall : DateTime} (taken : Interleaving bufferSize (turns ++ [Turn.tick]))
    (present : (reached turns).actor.activities.lookup id = some activity)
    (waiting : activity.state.isScheduled = true) (due : activity.DueBy instant wall)
    (alone : (reached turns).runsOf id = 0)
    (unnamed : ∀ message ∈ (reached turns).queue, message.command.names id = false) :
    (reached (turns ++ [Turn.tick])).Pending id instant wall := by
  obtain ⟨earlier, permitted⟩ := (interleaving_append turns .tick).mp taken
  obtain ⟨selecting, _⟩ := of_decide_eq_true permitted
  have dwindles := perform_dwindles permitted (by simp)
  have unpolled := selecting_unpolled earlier selecting
  rw [reached_append]
  constructor
  case underway => exact Or.inl rfl
  case alone => exact Nat.eq_zero_of_le_zero (alone ▸ dwindles.outstanding _)
  case unnamed =>
    intro message member
    rcases List.mem_append.mp member with queued | new
    · exact unnamed message queued
    · obtain rfl := List.mem_singleton.mp new
      rfl
  case due =>
    refine ⟨activity, present, waiting, Or.inl ⟨?_, due⟩⟩
    unfold polls at unpolled
    simp [perform, moveTo, enqueue, polls, unpolled, Message.command, Command.poll, asking]

/-- The driver, its tasks and the actor bring a pending poll to its report. -/
theorem pending_reported {bufferSize : Nat} {world : World T} {id : T} {instant : Instant}
    {wall : DateTime} (room : 0 < bufferSize) (reached : Reachable bufferSize world)
    (pending : world.Pending id instant wall) :
    ∃ more, (∀ turn ∈ more, turn.carriesOn = true ∧ turn.consumes = false) ∧
      Runs.Along perform (fun world turn => world.permits bufferSize turn = true) world more ∧
        world.reportsOf id < (more.foldl perform world).reportsOf id := by
  have uncut : world.Uncut := by
    rcases pending.underway with here | here <;> simp [Uncut, here]
  have kept : ∀ (world : World T) (turn : Turn T), Reachable bufferSize world ∧ world.Uncut →
      Works bufferSize world turn ∧ turn.Spares id instant wall →
        Reachable bufferSize (world.perform turn) ∧ (world.perform turn).Uncut :=
    fun world turn before able => carries_preserved world turn before able.1.1
  obtain ⟨more, taken, resting⟩ := Runs.comes_to_rest kept
    (fun world turn _ able => carrying_on_falls world turn able.1.1.1 able.1.1.2) ⟨reached, uncut⟩
  obtain ⟨path, stillUncut⟩ := Runs.invariant_after kept ⟨reached, uncut⟩ taken
  have served : (more.foldl perform world).Served bufferSize := by
    refine rest_served room path stillUncut (fun _ => .least instant wall)
      fun turn carries works shown => ?_
    by_contra possible
    refine resting turn ⟨⟨⟨by simpa using possible, carries⟩, works⟩, ?_⟩
    cases turn with
    | request | abort => cases carries
    | process readings =>
      obtain rfl := shown readings rfl
      exact ⟨le_rfl, le_rfl⟩
    | _ => trivial
  refine ⟨more, ?_, taken.mono fun _ _ able => able.1.1.1, ?_⟩
  · intro turn member
    obtain ⟨before, after, rfl⟩ := List.append_of_mem member
    have able := (Runs.along_iff_split _ _).mp taken before turn after rfl
    exact ⟨able.1.1.2, able.1.2⟩
  · obtain ⟨_, outcome⟩ :=
      pending_run reached pending (taken.mono fun _ _ able => ⟨able.1.1.1, able.2⟩)
    refine outcome.resolve_left fun still => ?_
    have driver := served.driver
    rcases still.underway with here | here
    · rw [here] at driver
      split at driver <;> (try split at driver) <;> cases driver
    · rw [here] at driver
      split at driver <;> (try split at driver) <;> cases driver

/-- A due activity is run. Take any interleaving in which the driver ticks while an
activity waits, has no run outstanding, and would reach its target with a tick at some
instant and a claim at some wall time. Let the parties go on in any order, while the
clock shows the instant and the wall time at least, nobody asks anything for the id and
nobody aborts the driver. Then the driver waits for the reply of its claim, or the id
has been reported once more. And whatever consumers do, the turns of the other parties
suffice to get there. -/
theorem due_activity_is_run (bufferSize : Nat) (room : 0 < bufferSize) (first rest : List (Turn T))
    (id : T) (activity : Activity T) (instant : Instant) (wall : DateTime)
    (taken : Interleaving bufferSize (first ++ [Turn.tick] ++ rest))
    (present : (reached first).actor.activities.lookup id = some activity)
    (waiting : activity.state.isScheduled = true) (due : activity.DueBy instant wall)
    (alone : (reached first).runsOf id = 0)
    (unnamed : ∀ message ∈ (reached first).queue, message.command.names id = false)
    (spared : ∀ turn ∈ rest, turn.Spares id instant wall) :
    ((reached (first ++ [Turn.tick] ++ rest)).driver = .claiming ∨
        (reached (first ++ [Turn.tick] ++ rest)).driver = .awaiting ∨
          (reached first).reportsOf id < (reached (first ++ [Turn.tick] ++ rest)).reportsOf id) ∧
      ∃ more : List (Turn T), (∀ turn ∈ more, turn.carriesOn = true ∧ turn.consumes = false) ∧
        Interleaving bufferSize (first ++ [Turn.tick] ++ rest ++ more) ∧
          (reached first).reportsOf id <
            (reached (first ++ [Turn.tick] ++ rest ++ more)).reportsOf id := by
  obtain ⟨polling, goesOn⟩ := (Runs.along_append _ _ _).mp taken
  have pending := tick_pending polling present waiting due alone unnamed
  have unreported : (reached (first ++ [Turn.tick])).reportsOf id = (reached first).reportsOf id := by
    rw [reached_append]
    rfl
  have further : reached (first ++ [Turn.tick] ++ rest) =
      rest.foldl perform (reached (first ++ [Turn.tick])) := List.foldl_append
  obtain ⟨least, outcome⟩ := pending_run (reached_reachable polling) pending
    (goesOn.and (Runs.along_of_forall _ fun turn member _ => spared turn member))
  rw [← further, unreported] at least outcome
  refine ⟨?_, ?_⟩
  · rcases outcome with still | reported
    · exact still.underway.imp_right Or.inl
    · exact Or.inr (Or.inr reported)
  · rcases outcome with still | reported
    · obtain ⟨more, works, goesFurther, reported⟩ :=
        pending_reported room (reached_reachable taken) still
      have whole : reached (first ++ [Turn.tick] ++ rest ++ more) =
          more.foldl perform (reached (first ++ [Turn.tick] ++ rest)) := List.foldl_append
      refine ⟨more, works, (Runs.along_append _ _ _).mpr ⟨taken, goesFurther⟩, ?_⟩
      rw [whole]
      exact least.trans_lt reported
    · exact ⟨[], by simp, by simpa using taken, by simpa using reported⟩

/-- An interval of 10 is registered at 0, and a client dispatches another id. -/
def registered : List (Turn Nat) :=
  [.request (.register ⟨1, .fixedInterval 10⟩), .process fun _ => .least 0 0,
    .request (.dispatch 2)]

/-- From 10 on the next poll reports it, with the client's dispatch still queued before. -/
theorem registered_is_run :
    ∃ more : List (Turn Nat), (∀ turn ∈ more, turn.carriesOn = true ∧ turn.consumes = false) ∧
      Interleaving 4 (registered ++ [Turn.tick] ++ [Turn.process fun _ => .least 10 10] ++ more) ∧
      (reached registered).reportsOf 1 < (reached (registered ++ [Turn.tick] ++
        [Turn.process fun _ => .least 10 10] ++ more)).reportsOf 1 := by
  have due : (Activity.new (T := Nat) ⟨1, .fixedInterval 10⟩ (.least 0 0)).DueBy 10 10 :=
    Nat.le_refl 10
  have spared : ∀ turn ∈ [Turn.process (T := Nat) fun _ => .least 10 10], turn.Spares 1 10 10 := by
    simp [Turn.Spares, Reading.least]
  obtain ⟨more, works, taken, reported⟩ := (due_activity_is_run 4 (by decide) registered
    [.process fun _ => .least 10 10] 1 _ 10 10 (by decide) rfl rfl due (by decide) (by decide)
    spared).2
  exact ⟨more, works, taken, reported⟩

end World

end Ritualist
