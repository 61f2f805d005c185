import Mathlib.Algebra.GroupWithZero.Nat
import Mathlib.Data.Prod.Lex
import Ritualist.Library.Rest
import Ritualist.Conservation
import Ritualist.Turns

/-!
# What is under way comes to an end

Clients, the ticker and the owner start something, and a cut drops it. The other
turns carry on what was started: the driver collects and spawns, tasks deliver and
acknowledge, consumers receive and answer, and the actor processes. Two facts make
these come to an end whatever their order. Each lowers a rank, in which a run costs
less at every stage of its way, and a claim not yet processed more than any number
of runs that it may report. And nothing waits for itself: the actor waits for no one,
so that the queue has room again; a task waits for room in a channel or for a sender
that a consumer holds; and the driver waits for the actor only.

So a world that is left to its parties becomes idle. Consumers are parties here:
they may keep every run for as long as they like, but not for ever.
-/

namespace Ritualist

universe u
variable {T : Type u}

/-- The turn carries on what is under way. The other turns start something, or cut
it short. -/
def Turn.carriesOn : Turn T → Bool
  | .request _ => false
  | .tick => false
  | .cancel => false
  | .expire => false
  | .abort => false
  | .dropTask _ => false
  | .dropReceiver => false
  | _ => true

/-- The turn is a consumer's, who may take it late or never. -/
def Turn.consumes : Turn T → Bool
  | .receive => true
  | .acknowledge _ _ => true
  | .dropSender _ => true
  | _ => false

/-- The cost of where the driver's loop is, with the runs it holds. -/
def DriverPoint.cost : DriverPoint T → Nat
  | .claiming => 5
  | .awaiting => 3
  | .replied runs => 4 + 6 * runs.length
  | .spawning runs => 3 + 6 * runs.length
  | .selecting => 2
  | .draining => 1
  | _ => 0

/-- The cost of a live task. -/
def Task.cost (task : Task T) : Nat :=
  match task.phase with
  | .sending => 5
  | .waiting => 2
  | .finishing _ => 2

/-- One while the claim that follows a tick has not been sent. -/
def DriverPoint.unclaimed : DriverPoint T → Nat
  | .claiming => 1
  | _ => 0

namespace World

/-- The claims that are not processed. -/
def claims (world : World T) : Nat := world.driver.unclaimed + world.queue.countP Message.asks

/-- What is under way costs, the claims apart. -/
def cost (world : World T) : Nat :=
  world.driver.cost + (world.tasks.map Task.cost).sum + 2 * world.channel.length +
    world.held.length + world.queue.length

/-- The rank of a world: a claim weighs more than all that it may bring. -/
def rank (world : World T) : ℕ ×ₗ ℕ := toLex (world.claims, world.cost)

/-- The rank falls with the cost while the claims stay. -/
theorem rank_lt (before after : World T) (claims : after.claims = before.claims)
    (cost : after.cost < before.cost) : after.rank < before.rank :=
  Prod.Lex.toLex_lt_toLex.mpr (Or.inr ⟨claims, cost⟩)

/-- Every task that waits has its acknowledgement sender on the channel or with a
consumer. -/
def Answerable (world : World T) : Prop :=
  ∀ task ∈ world.tasks, task.phase = .waiting → task.run ∈ world.channel ∨ task.run ∈ world.held

/-- A driver that drains or has stopped was cancelled. -/
def Ordered (world : World T) : Prop :=
  world.driver = .draining ∨ world.driver = .stopped → world.cancelled = true

/-- Nothing is under way. -/
structure Idle (world : World T) : Prop where
  queue : world.queue = []
  tasks : world.tasks = []
  channel : world.channel = []
  held : world.held = []
  driver : world.driver = if world.cancelled then .stopped else .selecting

variable [DecidableEq T]

/-- Resolving receivers costs nothing. -/
theorem resolve_cost (runs : List (Run T)) (ack : AckMessage) (tasks : List (Task T)) :
    (resolve runs ack tasks).map Task.cost = tasks.map Task.cost := by
  rw [resolve, List.map_map]
  refine List.map_congr_left fun task _ => ?_
  simp only [Function.comp]
  split
  case isTrue resolved => simp [Task.cost, resolved.2]
  case isFalse => rfl

/-- Processing lowers the rank: a claim is done with, and any other command leaves
the queue. -/
theorem process_falls (world : World T) (message : Message T) (rest : List (Message T))
    (readings : T → Reading) (first : world.queue = message :: rest) :
    (world.process message rest readings).rank < world.rank := by
  cases asks : message.asks with
  | true =>
    have received : ∀ (point : DriverPoint T) (runs : List (Run T)),
        (point.receive runs message.command).unclaimed = point.unclaimed := by
      intro point runs
      cases message with
      | plain command =>
        cases command with
        | claimDue => cases point <;> rfl
        | _ => cases asks
      | finish run ack => cases asks
    refine Prod.Lex.toLex_lt_toLex.mpr (Or.inl ?_)
    change (world.process message rest readings).claims < world.claims
    simp only [claims, process, received, first, List.countP_cons_of_pos asks]
    omega
  | false =>
    apply rank_lt
    · simp [claims, process, receive_silent _ _ message asks, first, asks]
    · simp [cost, process, receive_silent _ _ message asks, first]

/-- A consumer's answer costs it the run it holds. -/
theorem answer_falls (world : World T) (run : Run T) (ack : AckMessage) (holds : run ∈ world.held) :
    (world.answer run ack).rank < world.rank := by
  apply rank_lt
  · rfl
  · have fewer : (world.held.erase run).length < world.held.length := by
      rw [List.length_erase_of_mem holds]
      have held := List.length_pos_of_mem holds
      omega
    simp only [cost, answer, resolve_cost]
    omega

/-- Every turn that carries on lowers the rank. -/
theorem carrying_on_falls {bufferSize : Nat} (world : World T) (turn : Turn T)
    (permitted : world.permits bufferSize turn = true) (carries : turn.carriesOn = true) :
    (world.perform turn).rank < world.rank := by
  cases turn with
  | request | tick | cancel | expire | abort | dropTask | dropReceiver => cases carries
  | claimDue =>
    obtain ⟨claiming, _⟩ := of_decide_eq_true permitted
    apply rank_lt
    · simp [claims, perform, moveTo, enqueue, claiming, DriverPoint.unclaimed, Message.asks]
      omega
    · simp [cost, perform, moveTo, enqueue, claiming, DriverPoint.cost]
      omega
  | collect =>
    obtain ⟨runs, replied, performed⟩ := collect_found permitted
    rw [performed]
    apply rank_lt
    · simp [claims, moveTo, replied, DriverPoint.unclaimed]
    · simp [cost, moveTo, replied, DriverPoint.cost]
  | spawn =>
    obtain ⟨run, rest, spawning, performed⟩ := spawn_found permitted
    rw [performed]
    apply rank_lt
    · simp [claims, moveTo, setTasks, spawning, DriverPoint.unclaimed]
    · simp [cost, moveTo, setTasks, spawning, DriverPoint.cost, Task.cost]
      omega
  | resume =>
    have spawned : world.driver = .spawning [] := of_decide_eq_true permitted
    apply rank_lt
    · simp [claims, perform, moveTo, spawned, DriverPoint.unclaimed]
    · simp [cost, perform, moveTo, spawned, DriverPoint.cost]
  | drain =>
    obtain ⟨selecting, _⟩ := of_decide_eq_true permitted
    apply rank_lt
    · simp [claims, perform, moveTo, selecting, DriverPoint.unclaimed]
    · simp [cost, perform, moveTo, selecting, DriverPoint.cost]
  | stop =>
    obtain ⟨draining, _⟩ := of_decide_eq_true permitted
    apply rank_lt
    · simp [claims, perform, moveTo, draining, DriverPoint.unclaimed]
    · simp [cost, perform, moveTo, draining, DriverPoint.cost]
  | deliver place =>
    obtain ⟨front, run, back, live, _, _, performed⟩ := deliver_found permitted
    rw [performed]
    apply rank_lt
    · rfl
    · simp [cost, setTasks, put, live, Task.cost]
      omega
  | refuse place =>
    obtain ⟨front, run, back, live, _, performed⟩ := refuse_found permitted
    rw [performed]
    apply rank_lt
    · rfl
    · simp [cost, setTasks, reject, live, Task.cost]
  | receive =>
    obtain ⟨run, rest, oldest, performed⟩ := receive_found permitted
    rw [performed]
    apply rank_lt
    · rfl
    · simp [cost, handOver, oldest]
      omega
  | acknowledge run ack => exact answer_falls world run ack (List.contains_iff_mem.mp permitted)
  | dropSender run => exact answer_falls world run .done (List.contains_iff_mem.mp permitted)
  | finish place =>
    obtain ⟨front, run, ack, back, live, _, performed⟩ := finish_found permitted
    rw [performed]
    apply rank_lt
    · simp [claims, setTasks, enqueue, Message.asks]
    · simp [cost, setTasks, enqueue, live, Task.cost]
      omega
  | process readings =>
    obtain ⟨message, rest, first, performed⟩ := process_found permitted
    rw [performed]
    exact process_falls world message rest readings first

/-! ### Nothing waits for itself -/

/-- A resolved task that still waits was not among those resolved. -/
theorem waiting_unresolved (runs : List (Run T)) (ack : AckMessage) (tasks : List (Task T))
    (task : Task T) (member : task ∈ resolve runs ack tasks) (waiting : task.phase = .waiting) :
    task ∈ tasks ∧ task.run ∉ runs := by
  obtain ⟨before, earlier, same⟩ := List.mem_map.mp member
  split at same
  case isTrue resolved =>
    subst same
    cases waiting
  case isFalse unresolved =>
    subst same
    exact ⟨earlier, fun named => unresolved ⟨named, waiting⟩⟩

/-- A consumer that answers a run leaves every other sender where it is. -/
theorem answer_answerable (world : World T) (run : Run T) (ack : AckMessage)
    (answerable : world.Answerable) : (world.answer run ack).Answerable := by
  intro task member waiting
  obtain ⟨earlier, unnamed⟩ := waiting_unresolved _ _ _ task member waiting
  have other : task.run ≠ run := by simpa using unnamed
  rcases answerable task earlier waiting with onChannel | held
  · exact Or.inl onChannel
  · exact Or.inr ((List.mem_erase_of_ne other).mpr held)

/-- No step leaves a task waiting for a sender that nobody has. -/
theorem answerable_step {bufferSize : Nat} {before after : World T}
    (step : Step bufferSize before after) (answerable : before.Answerable) : after.Answerable := by
  cases step with
  | spawn run rest spawning =>
    intro task member waiting
    rcases List.mem_cons.mp member with rfl | earlier
    · cases waiting
    · exact answerable task earlier waiting
  | dropTask front dropped back live cut =>
    intro task member waiting
    refine answerable task ?_ waiting
    rw [live]
    exact List.mem_append.mpr ((List.mem_append.mp member).imp_right (List.mem_cons_of_mem dropped))
  | deliver front run back live receiving room =>
    intro task member waiting
    rcases List.mem_append.mp member with earlier | later
    · have held := answerable task (live ▸ List.mem_append_left _ earlier) waiting
      exact held.imp_left (List.mem_append_left _)
    · rcases List.mem_cons.mp later with rfl | last
      · exact Or.inl (List.mem_append_right _ List.mem_cons_self)
      · have held := answerable task
          (live ▸ List.mem_append_right _ (List.mem_cons_of_mem _ last)) waiting
        exact held.imp_left (List.mem_append_left _)
  | refuse front run back live closed =>
    intro task member waiting
    refine answerable task ?_ waiting
    rw [live]
    rcases List.mem_append.mp member with earlier | later
    · exact List.mem_append_left _ earlier
    · rcases List.mem_cons.mp later with rfl | last
      · cases waiting
      · exact List.mem_append_right _ (List.mem_cons_of_mem _ last)
  | receive run rest oldest =>
    intro task member waiting
    rcases answerable task member waiting with onChannel | held
    · rw [oldest] at onChannel
      rcases List.mem_cons.mp onChannel with same | later
      · exact Or.inr (same ▸ List.mem_cons_self)
      · exact Or.inl later
    · exact Or.inr (List.mem_cons_of_mem run held)
  | acknowledge run ack holds => exact answer_answerable before run ack answerable
  | dropSender run holds => exact answer_answerable before run .done answerable
  | dropReceiver receiving =>
    intro task member waiting
    obtain ⟨earlier, unnamed⟩ := waiting_unresolved _ _ _ task member waiting
    exact Or.inr ((answerable task earlier waiting).resolve_left unnamed)
  | finish front run ack back live room =>
    intro task member waiting
    refine answerable task ?_ waiting
    rw [live]
    exact List.mem_append.mpr ((List.mem_append.mp member).imp_right (List.mem_cons_of_mem _))
  | _ => exact answerable

/-- The driver drains only when it is cancelled, and no cancellation is taken back. -/
theorem ordered_step {bufferSize : Nat} {before after : World T}
    (step : Step bufferSize before after) (ordered : before.Ordered) : after.Ordered := by
  cases step with
  | tick | claimDue | collect | spawn | resume | expire | abort =>
    intro halted
    simp [moveTo, enqueue, setTasks] at halted
  | cancel => exact fun _ => rfl
  | drain selecting cancelled => exact fun _ => cancelled
  | stop draining joined => exact fun _ => ordered (Or.inl draining)
  | process message rest first readings =>
    intro halted
    apply ordered
    cases message with
    | plain command =>
      cases command with
      | claimDue => cases driver : before.driver <;> simp_all [process, DriverPoint.receive,
          Message.command]
      | _ => exact halted
    | finish run ack => exact halted
  | _ => exact ordered

/-- Every interleaving keeps the tasks answerable and the driver in order. -/
theorem orderly_reachable {bufferSize : Nat} {world : World T}
    (reached : Reachable bufferSize world) : world.Answerable ∧ world.Ordered := by
  induction reached with
  | refl =>
    constructor
    · intro task member
      cases member
    · intro halted
      simp [initial] at halted
  | tail _ step inductionHypothesis =>
    exact ⟨answerable_step step inductionHypothesis.1, ordered_step step inductionHypothesis.2⟩

/-- A turn that carries on is possible. -/
def Carries (bufferSize : Nat) (world : World T) (turn : Turn T) : Prop :=
  world.permits bufferSize turn = true ∧ turn.carriesOn = true

/-- A world in which no turn carries on is idle. -/
theorem rest_idle {bufferSize : Nat} {world : World T} (room : 0 < bufferSize)
    (reached : Reachable bufferSize world) (uncut : world.Uncut)
    (resting : Runs.AtRest (Carries bufferSize) world) : world.Idle := by
  obtain ⟨answerable, ordered⟩ := orderly_reachable reached
  have asked := (accounted_reachable reached uncut).asked
  have never : ∀ turn : Turn T, turn.carriesOn = true → world.permits bufferSize turn = false := by
    intro turn carries
    by_contra possible
    exact resting turn ⟨by simpa using possible, carries⟩
  have queue : world.queue = [] := by
    simpa [permits] using never (.process fun _ => .least 0 0) rfl
  have free : world.queue.length < bufferSize := by rw [queue]; exact room
  have held : world.held = [] := by
    refine List.eq_nil_iff_forall_not_mem.mpr fun run holds => ?_
    simpa [permits, holds] using never (.acknowledge run .done) rfl
  have channel : world.channel = [] := by simpa [permits] using never .receive rfl
  have tasks : world.tasks = [] := by
    refine List.eq_nil_iff_forall_not_mem.mpr fun task live => ?_
    obtain ⟨place, here⟩ := List.getElem?_of_mem live
    cases phase : task.phase with
    | sending =>
      -- the channel has room, or is closed
      cases receiving : world.receiving with
      | true =>
        have refused := never (.deliver place) rfl
        simp [permits, phaseAt, here, phase, receiving, channel, room] at refused
      | false => simpa [permits, phaseAt, here, phase, receiving] using never (.refuse place) rfl
    | waiting => simpa [channel, held] using answerable task live phase
    | finishing ack => simpa [permits, phaseAt, here, phase, free] using never (.finish place) rfl
  have driver : world.driver = if world.cancelled then .stopped else .selecting := by
    cases point : world.driver with
    | selecting =>
      have uncancelled : world.cancelled = false := by simpa [permits, point] using never .drain rfl
      simp [uncancelled]
    | claiming => simpa [permits, point, free] using never .claimDue rfl
    | awaiting =>
      -- the claim that the driver awaits is in the queue
      simp [Asked, queue, point, DriverPoint.awaited] at asked
    | replied runs => simpa [permits, point] using never .collect rfl
    | spawning runs =>
      cases runs with
      | nil => simpa [permits, point] using never .resume rfl
      | cons run rest => simpa [permits, point] using never .spawn rfl
    | draining => simpa [permits, point, tasks] using never .stop rfl
    | stopped => simp [ordered (Or.inr point)]
    | expired => exact absurd point uncut.1
    | aborted => exact absurd point uncut.2
  exact ⟨queue, tasks, channel, held, driver⟩

omit [DecidableEq T] in
/-- An idle world has no run outstanding. -/
theorem Idle.none_outstanding {world : World T} (idle : world.Idle) : world.outstanding = [] := by
  have driver : world.driver.runs = [] := by
    rw [idle.driver]
    split <;> rfl
  simp [outstanding, driver, idle.tasks, idle.queue]

/-- Only an abort or the end of the grace period cuts a world. -/
theorem perform_uncut {bufferSize : Nat} (world : World T) (turn : Turn T) (uncut : world.Uncut)
    (permitted : world.permits bufferSize turn = true) (unexpired : turn ≠ .expire)
    (unaborted : turn ≠ .abort) : (world.perform turn).Uncut := by
  cases turn with
  | expire => exact absurd rfl unexpired
  | abort => exact absurd rfl unaborted
  | request asked =>
    obtain ⟨command, _, _, performed⟩ := request_found permitted
    exact performed ▸ uncut
  | tick => simp [Uncut, perform, moveTo, enqueue]
  | cancel | dropTask place | dropReceiver => exact uncut
  | claimDue | resume | drain | stop => simp [Uncut, perform, moveTo, enqueue]
  | collect =>
    obtain ⟨runs, _, performed⟩ := collect_found permitted
    simp [performed, Uncut, moveTo]
  | spawn =>
    obtain ⟨run, rest, _, performed⟩ := spawn_found permitted
    simp [performed, Uncut, moveTo, setTasks]
  | deliver place =>
    obtain ⟨front, run, back, _, _, _, performed⟩ := deliver_found permitted
    exact performed ▸ uncut
  | refuse place =>
    obtain ⟨front, run, back, _, _, performed⟩ := refuse_found permitted
    exact performed ▸ uncut
  | receive =>
    obtain ⟨run, rest, _, performed⟩ := receive_found permitted
    exact performed ▸ uncut
  | acknowledge run ack => exact uncut
  | dropSender run => exact uncut
  | finish place =>
    obtain ⟨front, run, ack, back, _, _, performed⟩ := finish_found permitted
    exact performed ▸ uncut
  | process readings =>
    obtain ⟨message, rest, first, performed⟩ := process_found permitted
    rw [performed]
    cases message with
    | plain command =>
      cases command with
      | claimDue => cases driver : world.driver <;> simp_all [process, Uncut, DriverPoint.receive,
          Message.command]
      | _ => exact uncut
    | finish run ack => exact uncut

/-- What every turn that carries on keeps. -/
theorem carries_preserved {bufferSize : Nat} (world : World T) (turn : Turn T)
    (kept : Reachable bufferSize world ∧ world.Uncut) (carries : Carries bufferSize world turn) :
    Reachable bufferSize (world.perform turn) ∧ (world.perform turn).Uncut := by
  obtain ⟨permitted, carriesOn⟩ := carries
  refine ⟨kept.1.tail (step_of_permitted world turn permitted),
    perform_uncut world turn kept.2 permitted ?_ ?_⟩
  · rintro rfl
    cases carriesOn
  · rintro rfl
    cases carriesOn

/-- What is under way comes to an end. From every world that an interleaving reaches
and that is not cut, the parties can carry on only finitely often, in whatever order
they take their turns. A world they reach in which none can is idle: every run ever
claimed was acknowledged, and no activity is running. And they can reach one. -/
theorem comes_to_an_end (bufferSize : Nat) (room : 0 < bufferSize) (world : World T)
    (reached : Reachable bufferSize world) (uncut : world.Uncut) :
    (∀ supply : ℕ → Turn T, ∃ count,
        ¬ Carries bufferSize (Runs.stateAt perform world supply count) (supply count)) ∧
      (∀ turns, Runs.Along perform (Carries bufferSize) world turns →
        Runs.AtRest (Carries bufferSize) (turns.foldl perform world) →
          (turns.foldl perform world).Idle ∧
            (turns.foldl perform world).claimed.Perm (turns.foldl perform world).finished ∧
            ∀ id, (turns.foldl perform world).actor.EntrySatisfies id fun activity =>
              activity.state.stripped ≠ .running) ∧
      ∃ turns, Runs.Along perform (Carries bufferSize) world turns ∧
        (turns.foldl perform world).Idle := by
  have falls : ∀ (world : World T) (turn : Turn T), Reachable bufferSize world ∧ world.Uncut →
      Carries bufferSize world turn → (world.perform turn).rank < world.rank :=
    fun world turn _ carries => carrying_on_falls world turn carries.1 carries.2
  refine ⟨Runs.ends carries_preserved falls ⟨reached, uncut⟩, ?_, ?_⟩
  · intro turns taken resting
    obtain ⟨path, stillUncut⟩ := Runs.invariant_after carries_preserved ⟨reached, uncut⟩ taken
    have idle := rest_idle room path stillUncut resting
    have accounted := accounted_reachable path stillUncut
    have none := idle.none_outstanding
    refine ⟨idle, ?_, ?_⟩
    · simpa [ledger, none] using accounted.runs.conserved
    · intro id activity present running
      obtain ⟨run, outstanding, _⟩ := accounted.attended id activity present running
      rw [none] at outstanding
      cases outstanding
  · obtain ⟨turns, taken, resting⟩ := Runs.comes_to_rest carries_preserved falls ⟨reached, uncut⟩
    obtain ⟨path, stillUncut⟩ := Runs.invariant_after carries_preserved ⟨reached, uncut⟩ taken
    exact ⟨turns, taken, rest_idle room path stillUncut resting⟩

/-- From the world in which a run lies on the activity channel the parties reach an
idle one. -/
theorem delivered_comes_to_an_end :
    ∃ world : World Nat, Reachable 4 world ∧ world.Uncut ∧ world.delivered.map Run.id = [1] ∧
      ∃ turns, Runs.Along perform (Carries 4) world turns ∧ (turns.foldl perform world).Idle := by
  obtain ⟨world, reached, delivered, uncut⟩ := delivered_reachable
  exact ⟨world, reached, uncut, delivered,
    (comes_to_an_end 4 (by decide) world reached uncut).2.2⟩

end World

end Ritualist
