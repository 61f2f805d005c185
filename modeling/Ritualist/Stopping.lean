import Ritualist.Lifecycle

/-!
# Shutdown and abort come to their end

A consumer may keep a run for ever, and the acknowledgement channel of its dispatch task
with it. The owner of a ritual does not wait for it: the grace period ends, or the abort
drops the task. So once the owner has begun to end a ritual, every move that brings the
end nearer lowers a rank, and while the ritual is not over some party other than the
consumers has such a move.

A client may go on to send requests meanwhile, and the ticker to tick until the driver
sees its token cancelled. These moves start something, and are not counted.
-/

namespace Ritualist

universe u
variable {T : Type u}

/-- The move of a consumer, which the end of a ritual does not wait for. -/
def Move.consumes : Move T → Bool
  | .turn other => other.consumes
  | _ => false

/-- The move carries on what is under way, or brings the ritual nearer to its end. -/
def Move.winds : Move T → Bool
  | .turn .expire => true
  | .turn .abort => true
  | .turn (.dropTask _) => true
  | .turn other => other.carriesOn
  | .shutdown => false
  | .abort => false
  | _ => true

/-- How many of the owner's moves are left. -/
def Owner.stage : Owner → Nat
  | .holding => 3
  | .joiningDriver => 2
  | .joiningScheduler => 1
  | .returned => 0
  | .aborted => 0

variable [DecidableEq T]

namespace World

/-- Nothing but an abort moves a driver that is aborted, and it stays there. -/
theorem aborted_kept {bufferSize : Nat} {world : World T} {turn : Turn T}
    (aborted : world.driver = .aborted) (permitted : world.permits bufferSize turn = true) :
    (world.perform turn).driver = .aborted := by
  cases turn with
  | tick | claimDue | resume | drain | stop | expire => simp [permits, aborted] at permitted
  | collect | spawn => simp [permits, aborted] at permitted
  | request | deliver | refuse | receive | finish =>
    simp only [perform]
    split <;> exact aborted
  | process readings =>
    obtain ⟨message, rest, _, performed⟩ := process_found permitted
    rw [performed]
    simp [process, aborted, DriverPoint.receive]
  | abort => rfl
  | _ => exact aborted

/-- The same after the end of the actor's task. -/
theorem aborted_kept_closed {bufferSize : Nat} {world : World T} {turn : Turn T}
    (aborted : world.driver = .aborted) (permitted : world.permitsClosed bufferSize turn = true) :
    (world.performClosed turn).driver = .aborted := by
  cases turn with
  | tick | claimDue => simp [permitsClosed, aborted] at permitted
  | request request | process readings | finish place => exact aborted
  | _ => exact @aborted_kept _ _ bufferSize _ _ aborted permitted

/-- A turn that winds up lowers the rank, but for the abort of the driver. -/
theorem winding_falls {bufferSize : Nat} {world : World T} {turn : Turn T}
    (permitted : world.permits bufferSize turn = true) (winds : (Move.turn turn).winds = true)
    (unaborted : turn ≠ .abort) : (world.perform turn).rank < world.rank := by
  cases turn with
  | abort => exact absurd rfl unaborted
  | expire =>
    have draining : world.driver = .draining := of_decide_eq_true permitted
    apply rank_lt
    · simp [claims, perform, moveTo, draining, DriverPoint.unclaimed]
    · simp [cost, perform, moveTo, draining, DriverPoint.cost]
  | dropTask place =>
    obtain ⟨bounded, _⟩ := of_decide_eq_true permitted
    apply rank_lt
    · rfl
    · obtain ⟨split, _, erased⟩ := tasks_split world.tasks place _ (List.getElem?_eq_getElem bounded)
      have positive : 0 < (world.tasks[place]).cost := by
        unfold Task.cost
        split <;> omega
      have whole := congrArg (fun tasks => (tasks.map Task.cost).sum) split
      simp only [List.map_append, List.map_cons, List.sum_append, List.sum_cons] at whole
      simp only [cost, perform, setTasks, erased, List.map_append, List.sum_append]
      omega
  | _ => exact carrying_on_falls world _ permitted winds

/-- The same after the end of the actor's task. -/
theorem winding_falls_closed {bufferSize : Nat} {world : World T} {turn : Turn T}
    (permitted : world.permitsClosed bufferSize turn = true)
    (winds : (Move.turn turn).winds = true) (unaborted : turn ≠ .abort) :
    (world.performClosed turn).rank < world.rank := by
  cases turn with
  | claimDue =>
    have claiming : world.driver = .claiming := of_decide_eq_true permitted
    refine Prod.Lex.toLex_lt_toLex.mpr (Or.inl ?_)
    simp [performClosed, claims, moveTo, claiming, DriverPoint.unclaimed]
  | finish place =>
    apply rank_lt
    · rfl
    · cases here : world.tasks[place]? with
      | none => simp [permitsClosed, phaseAt, here] at permitted
      | some task =>
        obtain ⟨split, _, erased⟩ := tasks_split world.tasks place _ here
        have positive : 0 < task.cost := by
          unfold Task.cost
          split <;> omega
        have whole := congrArg (fun tasks => (tasks.map Task.cost).sum) split
        simp only [List.map_append, List.map_cons, List.sum_append, List.sum_cons] at whole
        simp only [cost, performClosed, setTasks, erased, List.map_append, List.sum_append]
        omega
  | process readings => cases permitted
  | request | tick => cases winds
  | _ => exact @winding_falls _ _ bufferSize _ _ permitted winds unaborted

end World

/-- One until the driver is aborted. -/
def DriverPoint.abortable : DriverPoint T → Nat
  | .aborted => 0
  | _ => 1

omit [DecidableEq T] in
/-- A driver that stays aborted has no abort left. -/
theorem abortable_le {before after : DriverPoint T} (kept : before = .aborted → after = .aborted) :
    after.abortable ≤ before.abortable := by
  have most : after.abortable ≤ 1 := by
    unfold DriverPoint.abortable
    split <;> omega
  cases before with
  | aborted => rw [kept rfl]
  | _ => exact most

namespace RunningRitualist

/-- The moves of the owner, of the end of the actor's task and of the abort of the
driver that are left. -/
def stage (ritual : RunningRitualist T) : Nat :=
  ritual.owner.stage + (if ritual.ended then 0 else 1) + ritual.world.driver.abortable

/-- The rank of a ritual. -/
def rank (ritual : RunningRitualist T) : ℕ ×ₗ (ℕ ×ₗ ℕ) := toLex (ritual.stage, ritual.world.rank)

/-- The move winds the ritual up and can be taken. -/
def Winds (bufferSize : Nat) (ritual : RunningRitualist T) (move : Move T) : Prop :=
  ritual.permits bufferSize move = true ∧ move.winds = true

/-- A ritual that is over: no task is left but the consumers'. -/
structure Halted (ritual : RunningRitualist T) : Prop where
  ended : ritual.ended = true
  tasks : ritual.world.tasks = []
  settled : ritual.owner = .returned ∨ ritual.owner = .aborted ∧ ritual.world.driver = .aborted

/-- Every move that winds a ritual up lowers its rank. -/
theorem winding_up_falls {bufferSize : Nat} (ritual : RunningRitualist T) (move : Move T)
    (winds : Winds bufferSize ritual move) : (ritual.perform move).rank < ritual.rank := by
  obtain ⟨permitted, winding⟩ := winds
  cases move with
  | shutdown | abort => cases winding
  | turn turn =>
    obtain ⟨_, sees⟩ := turn_permitted permitted
    by_cases aborts : turn = .abort
    · subst aborts
      obtain ⟨_, live⟩ := of_decide_eq_true permitted
      refine Prod.Lex.toLex_lt_toLex.mpr (Or.inl ?_)
      cases ended : ritual.ended <;>
        simp [stage, perform, ended, World.performClosed, World.perform, World.moveTo,
          DriverPoint.abortable]
    · refine Prod.Lex.toLex_lt_toLex'.mpr ?_
      cases ended : ritual.ended with
      | true =>
        rw [ended, if_pos rfl] at sees
        have kept := abortable_le fun aborted => World.aborted_kept_closed aborted sees
        refine ⟨?_, fun _ => ?_⟩
        · simpa [stage, perform, ended] using kept
        · simpa [perform, ended] using World.winding_falls_closed sees winding aborts
      | false =>
        rw [ended, if_neg Bool.false_ne_true] at sees
        have kept := abortable_le fun aborted => World.aborted_kept aborted sees
        refine ⟨?_, fun _ => ?_⟩
        · simpa [stage, perform, ended] using kept
        · simpa [perform, ended] using World.winding_falls sees winding aborts
  | joinDriver =>
    have joining : ritual.owner = .joiningDriver :=
      of_decide_eq_true (Bool.and_eq_true_iff.mp permitted).1
    refine Prod.Lex.toLex_lt_toLex.mpr (Or.inl ?_)
    have fewer : Owner.stage .joiningScheduler < ritual.owner.stage := by
      rw [joining]
      decide
    exact Nat.add_lt_add_right (Nat.add_lt_add_right fewer _) _
  | joinScheduler =>
    have joining : ritual.owner = .joiningScheduler :=
      of_decide_eq_true (Bool.and_eq_true_iff.mp permitted).1
    refine Prod.Lex.toLex_lt_toLex.mpr (Or.inl ?_)
    have fewer : Owner.stage .returned < ritual.owner.stage := by
      rw [joining]
      decide
    exact Nat.add_lt_add_right (Nat.add_lt_add_right fewer _) _
  | endActor =>
    obtain ⟨_, running⟩ := Bool.and_eq_true_iff.mp permitted
    have alive : ritual.ended = false := by simpa using running
    have kept : ritual.world.dropQueue.driver.abortable ≤ ritual.world.driver.abortable := by
      refine abortable_le fun aborted => ?_
      simp [World.dropQueue, aborted]
    refine Prod.Lex.toLex_lt_toLex.mpr (Or.inl ?_)
    simp only [stage, perform, alive, if_true, Bool.false_eq_true, if_false]
    omega

/-- What every move that winds a ritual up keeps. -/
theorem winding_up_kept {bufferSize : Nat} (ritual : RunningRitualist T) (move : Move T)
    (kept : ritual.Orderly bufferSize ∧ ritual.owner ≠ .holding)
    (winds : Winds bufferSize ritual move) :
    (ritual.perform move).Orderly bufferSize ∧ (ritual.perform move).owner ≠ .holding := by
  refine ⟨orderly_perform kept.1 winds.1, ?_⟩
  cases move with
  | turn turn =>
    simp only [perform]
    split <;> exact kept.2
  | endActor => exact kept.2
  | _ =>
    intro holding
    cases holding

/-- A ritual that its owner ends and that no move but a consumer's winds up is over. -/
theorem rest_halted {bufferSize : Nat} {ritual : RunningRitualist T} (room : 0 < bufferSize)
    (orderly : ritual.Orderly bufferSize) (ending : ritual.owner ≠ .holding)
    (resting : Runs.AtRest (fun ritual move => Winds bufferSize ritual move ∧
      move.consumes = false) ritual) : ritual.Halted := by
  have never : ∀ move : Move T, move.winds = true → move.consumes = false →
      ritual.permits bufferSize move = false := by
    intro move winds others
    by_contra possible
    exact resting move ⟨⟨by simpa using possible, winds⟩, others⟩
  have hasEnded : ritual.owner.stopsScheduler = true → ritual.ended = true := by
    intro stops
    simpa [permits, stops] using never .endActor rfl rfl
  cases owner : ritual.owner with
  | holding => exact absurd owner ending
  | joiningScheduler =>
    have ended := hasEnded (by rw [owner]; rfl)
    simpa [permits, owner, ended] using never .joinScheduler rfl rfl
  | returned =>
    exact ⟨orderly.returned owner, (orderly.joined (Or.inr owner)).1, Or.inl owner⟩
  | aborted =>
    have ended := hasEnded (by rw [owner]; rfl)
    have aborted : ritual.world.driver = .aborted := by
      simpa [permits, owner] using never (.turn .abort) rfl rfl
    refine ⟨ended, List.eq_nil_iff_length_eq_zero.mpr ?_, Or.inr ⟨owner, aborted⟩⟩
    simpa [permits, ended, World.permitsClosed, World.permits, aborted] using
      never (.turn (.dropTask 0)) rfl rfl
  | joiningDriver =>
    -- the scheduler runs, and the driver always has something to do until it has ended
    exfalso
    have running := orderly.runs_while (by rw [owner]; rfl)
    obtain ⟨reached, _⟩ := orderly.alive running
    have cancelled := orderly.cancelled owner
    have queue : ritual.world.queue = [] := by
      simpa [permits, running, World.permits] using never (.turn (.process fun _ => .least 0 0)) rfl rfl
    have awaited : ritual.world.driverEnded = false := by
      simpa [permits, owner] using never .joinDriver rfl rfl
    cases driver : ritual.world.driver with
    | selecting =>
      simpa [permits, running, World.permits, driver, cancelled] using never (.turn .drain) rfl rfl
    | claiming =>
      have full := never (.turn .claimDue) rfl rfl
      simp [permits, running, World.permits, driver, queue] at full
      omega
    | awaiting =>
      have asked := (World.accounted_reachable reached (by simp [World.Uncut, driver])).asked
      simp [World.Asked, queue, driver, DriverPoint.awaited] at asked
    | replied runs =>
      simpa [permits, running, World.permits, driver] using never (.turn .collect) rfl rfl
    | spawning runs =>
      cases runs with
      | nil => simpa [permits, running, World.permits, driver] using never (.turn .resume) rfl rfl
      | cons run rest =>
        simpa [permits, running, World.permits, driver] using never (.turn .spawn) rfl rfl
    | draining =>
      simpa [permits, running, World.permits, driver] using never (.turn .expire) rfl rfl
    | stopped => simp [World.driverEnded, driver] at awaited
    | expired =>
      have tasks : ritual.world.tasks = [] := by
        simpa [permits, running, World.permits, driver] using never (.turn (.dropTask 0)) rfl rfl
      simp [World.driverEnded, driver, tasks] at awaited
    | aborted => cases owner.symm.trans (orderly.aborted driver)

/-- A run lies on the channel when the owner shuts the ritual down, and the consumers
never receive it. -/
def abandoned : List (Move Nat) := (World.snoozing.take 9).map .turn ++ [.shutdown]

end RunningRitualist

end Ritualist
