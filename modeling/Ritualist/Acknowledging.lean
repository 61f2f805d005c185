import Ritualist.Library.Custody
import Ritualist.Occupancy
import Ritualist.Turns

/-!
# What consumers answer is what the scheduler applies

A run goes to a consumer with an acknowledgement sender, the consumer answers, the
run's dispatch task queues the answer, and the actor applies it. Runs of one id may
be under way together, and their tasks take their turns in any order. Yet no answer
reaches another run: the sender is the run's own, and so is the task that waits for
it. A sender that is dropped, by a consumer, with the receiver, or because the closed
channel refused it, stands for `Done`.

So every acknowledgement that the actor applies is what a consumer answered for that
run, or it is `Done` for a run that nobody answered. That holds of every
interleaving in which clients leave `Scheduler::finish` to the tasks. Where nothing is
cut, no answer is lost either.
-/

namespace Ritualist

universe u
variable {T : Type u}

/-- The outcome that a dispatch task holds, if any. -/
def Task.outcome (task : Task T) : Option (Run T × AckMessage) :=
  match task.phase with
  | .finishing ack => some (task.run, ack)
  | _ => none

/-- The outcome that a message carries, if any. -/
def Message.outcome : Message T → Option (Run T × AckMessage)
  | .plain _ => none
  | .finish run ack => some (run, ack)

namespace World

/-- The outcomes on their way: those that tasks hold and those in the queue. -/
def outcomes (world : World T) : List (Run T × AckMessage) :=
  world.tasks.filterMap Task.outcome ++ world.queue.filterMap Message.outcome

/-- What a consumer answers in a turn, if it is the consumer's turn. -/
def answered : Turn T → Option (Run T × AckMessage)
  | .acknowledge run ack => some (run, ack)
  | _ => none

/-- The acknowledgement that the actor applies in a turn, if any. -/
def applied (world : World T) : Turn T → Option (Run T × AckMessage)
  | .process _ => world.queue.head?.bind Message.outcome
  | _ => none

/-- The runs that are with consumers or on the way to them, the answers so far, and
the outcomes that have been applied or are on their way. -/
def custody (answers acknowledgements : List (Run T × AckMessage)) (world : World T) :
    Custody (Run T) AckMessage :=
  ⟨world.delivered, world.channel ++ world.held, answers, world.outcomes ++ acknowledgements⟩

variable [DecidableEq T]

/-- The answers of consumers along some turns. -/
def answers (turns : List (Turn T)) : List (Run T × AckMessage) :=
  turns.filterMap answered

/-- The acknowledgements that the actor applies along some turns. -/
def acknowledgements (turns : List (Turn T)) : List (Run T × AckMessage) :=
  Runs.outputs perform applied initial turns

/-- The outcomes after a consumer's answer, or after senders are dropped. -/
theorem resolve_outcomes (runs : List (Run T)) (ack : AckMessage) (tasks : List (Task T)) :
    (resolve runs ack tasks).filterMap Task.outcome ⊆
      runs.map (fun run => (run, ack)) ++ tasks.filterMap Task.outcome := by
  intro entry member
  obtain ⟨task, live, outcome⟩ := List.mem_filterMap.mp member
  obtain ⟨before, earlier, same⟩ := List.mem_map.mp live
  split at same
  case isTrue resolved =>
    subst same
    obtain rfl := Option.some.inj outcome
    exact List.mem_append_left _ (List.mem_map_of_mem resolved.1)
  case isFalse =>
    subst same
    exact List.mem_append_right _ (List.mem_filterMap.mpr ⟨before, earlier, outcome⟩)

omit [DecidableEq T] in
/-- A message queued adds the outcome it carries. -/
theorem enqueue_outcomes (world : World T) (message : Message T) :
    (world.enqueue message).outcomes = world.outcomes ++ message.outcome.toList := by
  cases carried : message.outcome <;>
    simp [outcomes, enqueue, carried]

omit [DecidableEq T] in
/-- A plain command carries no outcome. -/
theorem plain_outcomes (world : World T) (command : Command T) :
    (world.enqueue (.plain command)).outcomes = world.outcomes := by
  rw [enqueue_outcomes]
  exact List.append_nil _

omit [DecidableEq T] in
/-- Processing a command takes the outcome it carries off its way. -/
theorem queue_outcomes (world : World T) (message : Message T) (rest : List (Message T))
    (first : world.queue = message :: rest) :
    world.outcomes = world.tasks.filterMap Task.outcome ++
      (message.outcome.toList ++ rest.filterMap Message.outcome) := by
  rw [outcomes, first]
  cases carried : message.outcome <;> simp [carried]

/-- A run that is answered, or given back, adds its outcome to those on their way. -/
theorem answer_outcomes (world : World T) (run : Run T) (ack : AckMessage) :
    (world.answer run ack).outcomes ⊆ (run, ack) :: world.outcomes := by
  have resolved := resolve_outcomes [run] ack world.tasks
  refine List.append_subset.mpr ⟨fun entry drawn => ?_, ?_⟩
  · rcases List.mem_cons.mp (resolved drawn) with same | earlier
    · exact same ▸ List.mem_cons_self
    · exact List.mem_cons_of_mem _ (List.mem_append_left _ earlier)
  · exact List.subset_cons_of_subset _ (List.subset_append_right _ _)

/-- A held run is taken from what consumers have been given. -/
theorem answer_taken (world : World T) (run : Run T) (ack : AckMessage) (holds : run ∈ world.held) :
    (world.channel ++ world.held).Perm
      (run :: ((world.answer run ack).channel ++ (world.answer run ack).held)) :=
  ((List.perm_cons_erase holds).append_left world.channel).trans List.perm_middle

omit [DecidableEq T] in
/-- An outcome on its way is in a task that has it or in the queue. -/
theorem mem_outcomes_iff (world : World T) (run : Run T) (ack : AckMessage) :
    (run, ack) ∈ world.outcomes ↔
      ⟨run, .finishing ack⟩ ∈ world.tasks ∨ .finish run ack ∈ world.queue := by
  rw [outcomes, List.mem_append, List.mem_filterMap, List.mem_filterMap]
  refine or_congr ⟨?_, ?_⟩ ⟨?_, ?_⟩
  · rintro ⟨⟨holder, phase⟩, live, outcome⟩
    cases phase with
    | finishing held =>
      obtain ⟨rfl, rfl⟩ := Prod.mk.inj (Option.some.inj outcome)
      exact live
    | _ => cases outcome
  · intro live
    exact ⟨_, live, rfl⟩
  · rintro ⟨message, queued, outcome⟩
    cases message with
    | plain command => cases outcome
    | finish holder held =>
      obtain ⟨rfl, rfl⟩ := Prod.mk.inj (Option.some.inj outcome)
      exact queued
  · intro queued
    exact ⟨_, queued, rfl⟩

/-- A run whose task sends it was not delivered, and has come to nothing yet. -/
theorem sending_fresh {bufferSize : Nat} {world : World T} (reached : Reachable bufferSize world)
    {front back : List (Task T)} {run : Run T}
    (live : world.tasks = front ++ ⟨run, .sending⟩ :: back) :
    run ∉ world.delivered ∧ run ∉ world.finished ∧ ∀ entry ∈ world.outcomes, entry.1 ≠ run := by
  have undelivered : run ∈ world.undelivered := by simp [World.undelivered, live]
  have outstanding : run ∈ world.outstanding := by simp [World.outstanding, live]
  obtain ⟨_, distinct, unfinished⟩ := List.nodup_append.mp (runs_once reached)
  obtain ⟨held, _, unqueued⟩ := List.nodup_append.mp distinct
  have alone : run ∉ front.map Task.run ++ back.map Task.run := by
    have tasks := (List.nodup_append.mp held).2.1
    rw [live, List.map_append, List.map_cons] at tasks
    exact (List.nodup_cons.mp (List.nodup_middle.mp tasks)).1
  refine ⟨fun delivered => ?_, fun finished => unfinished run finished run outstanding rfl, ?_⟩
  · have apart := (List.nodup_append.mp (deliveries_once reached)).2.2
    exact apart run (List.mem_append_left _ delivered) run undelivered rfl
  · rintro ⟨other, ack⟩ outcome rfl
    rcases (mem_outcomes_iff world other ack).mp outcome with task | queued
    · rw [live] at task
      apply alone
      rcases List.mem_append.mp task with earlier | later
      · exact List.mem_append_left _ (List.mem_map.mpr ⟨_, earlier, rfl⟩)
      · rcases List.mem_cons.mp later with same | last
        · cases same
        · exact List.mem_append_right _ (List.mem_map.mpr ⟨_, last, rfl⟩)
    · have task : other ∈ world.driver.runs ++ world.tasks.map Task.run := by simp [live]
      exact unqueued other task other (List.mem_flatMap.mpr ⟨_, queued, List.mem_singleton.mpr rfl⟩) rfl

/-! ### Every turn is a move of custody -/

section Moves

variable {bufferSize : Nat} {world : World T} {turn : Turn T}
  {told acks : List (Run T × AckMessage)}

omit [DecidableEq T] in
/-- Outcomes applied before stay applied. -/
theorem append_outcomes {drawn earlier : List (Run T × AckMessage)} (subset : drawn ⊆ earlier) :
    drawn ++ acks ⊆ earlier ++ acks :=
  List.append_subset.mpr ⟨List.subset_append_of_subset_left acks subset, List.subset_append_right _ _⟩

/-- A turn that neither answers nor applies anything, delivers nothing, and draws no
outcome. -/
theorem custody_kept (silent : answered turn = none) (unapplied : world.applied turn = none)
    (delivered : (world.perform turn).delivered = world.delivered)
    (given : (world.channel ++ world.held).Perm
      ((world.perform turn).channel ++ (world.perform turn).held))
    (drawn : (world.perform turn).outcomes ⊆ world.outcomes) :
    Custody.Move .done (custody told acks world)
      (custody (told ++ (answered turn).toList) (acks ++ (world.applied turn).toList)
        (world.perform turn)) := by
  rw [silent, unapplied, Option.toList_none, List.append_nil, List.append_nil]
  exact .giveBack [] delivered given rfl (append_outcomes drawn)

/-- Every permitted turn moves custody. -/
theorem custody_move (reached : Reachable bufferSize world)
    (records : acks.map Prod.fst = world.finished.reverse)
    (permitted : world.permits bufferSize turn = true) :
    Custody.Move .done (custody told acks world)
      (custody (told ++ (answered turn).toList) (acks ++ (world.applied turn).toList)
        (world.perform turn)) := by
  cases turn with
  | request request =>
    obtain ⟨command, _, _, performed⟩ := request_found permitted
    refine custody_kept rfl rfl (performed ▸ rfl) (performed ▸ List.Perm.refl _) ?_
    rw [performed, plain_outcomes]
    exact List.Subset.refl _
  | tick =>
    have same : (world.perform .tick).outcomes = world.outcomes := plain_outcomes world .tick
    exact custody_kept rfl rfl rfl (List.Perm.refl _) (same ▸ List.Subset.refl _)
  | claimDue =>
    have same : (world.perform .claimDue).outcomes = world.outcomes :=
      plain_outcomes world .claimDue
    exact custody_kept rfl rfl rfl (List.Perm.refl _) (same ▸ List.Subset.refl _)
  | collect =>
    obtain ⟨runs, _, performed⟩ := collect_found permitted
    refine custody_kept rfl rfl (performed ▸ rfl) (performed ▸ List.Perm.refl _) ?_
    exact performed ▸ List.Subset.refl _
  | spawn =>
    obtain ⟨run, rest, _, performed⟩ := spawn_found permitted
    refine custody_kept rfl rfl (performed ▸ rfl) (performed ▸ List.Perm.refl _) ?_
    rw [performed]
    exact List.Subset.refl _
  | resume | cancel | drain | stop | expire | abort =>
    exact custody_kept rfl rfl rfl (List.Perm.refl _) (List.Subset.refl _)
  | dropTask place =>
    refine custody_kept rfl rfl rfl (List.Perm.refl _) ?_
    have fewer := (List.eraseIdx_sublist world.tasks place).filterMap Task.outcome
    exact (fewer.append_right _).subset
  | deliver place =>
    obtain ⟨front, run, back, live, _, _, performed⟩ := deliver_found permitted
    obtain ⟨undelivered, unfinished, undrawn⟩ := sending_fresh reached live
    rw [performed]
    simp only [answered, applied, Option.toList_none, List.append_nil]
    refine .hand run undelivered ?_ rfl ?_ rfl ?_
    · intro entry drawn
      rcases List.mem_append.mp drawn with underway | earlier
      · exact undrawn entry underway
      · rintro rfl
        have finished := records ▸ List.mem_map_of_mem (f := Prod.fst) earlier
        exact unfinished (List.mem_reverse.mp finished)
    · simp only [custody, put, setTasks, List.append_assoc, List.singleton_append]
      exact List.perm_middle
    · refine append_outcomes ?_
      simp only [outcomes, put, setTasks, live, List.filterMap_append, List.filterMap_cons,
        Task.outcome]
      exact List.Subset.refl _
  | refuse place =>
    obtain ⟨front, run, back, live, _, performed⟩ := refuse_found permitted
    obtain ⟨undelivered, _, _⟩ := sending_fresh reached live
    rw [performed]
    simp only [answered, applied, Option.toList_none, List.append_nil]
    refine .withhold run undelivered rfl rfl rfl ?_
    intro entry drawn
    simp only [custody, outcomes, reject, setTasks, live, List.filterMap_append, List.filterMap_cons,
      Task.outcome, List.mem_append, List.mem_cons] at drawn ⊢
    tauto
  | receive =>
    obtain ⟨run, rest, oldest, performed⟩ := receive_found permitted
    refine custody_kept rfl rfl (performed ▸ rfl) ?_ (performed ▸ List.Subset.refl _)
    rw [performed, oldest]
    exact List.perm_middle.symm
  | acknowledge run ack =>
    have holds : run ∈ world.held := List.contains_iff_mem.mp permitted
    simp only [answered, applied, Option.toList_none, List.append_nil]
    exact .answer run ack rfl (answer_taken world run ack holds) rfl
      (append_outcomes (answer_outcomes world run ack))
  | dropSender run =>
    have holds : run ∈ world.held := List.contains_iff_mem.mp permitted
    simp only [answered, applied, Option.toList_none, List.append_nil]
    exact .giveBack [run] rfl (answer_taken world run .done holds) rfl
      (append_outcomes (answer_outcomes world run .done))
  | dropReceiver =>
    simp only [answered, applied, Option.toList_none, List.append_nil]
    refine .giveBack world.channel rfl (List.Perm.refl _) rfl ?_
    have resolved := resolve_outcomes world.channel .done world.tasks
    simp only [custody, outcomes, perform, closeChannel]
    rw [← List.append_assoc, ← List.append_assoc]
    exact append_outcomes (append_outcomes resolved)
  | finish place =>
    obtain ⟨front, run, ack, back, live, _, performed⟩ := finish_found permitted
    refine custody_kept rfl rfl (performed ▸ rfl) (performed ▸ List.Perm.refl _) ?_
    intro entry drawn
    simp only [performed, outcomes, enqueue, setTasks, live, List.filterMap_append, List.filterMap_cons,
      Task.outcome, Message.outcome, List.mem_append, List.mem_cons] at drawn ⊢
    tauto
  | process readings =>
    obtain ⟨message, rest, first, performed⟩ := process_found permitted
    have head : world.applied (.process readings) = message.outcome := by simp [applied, first]
    rw [performed, head]
    simp only [answered, Option.toList_none, List.append_nil]
    refine .giveBack [] rfl (List.Perm.refl _) rfl ?_
    intro entry drawn
    simp only [custody, queue_outcomes world message rest first, List.map_nil, List.nil_append]
    simp only [custody, outcomes, process] at drawn
    simp only [List.mem_append] at drawn ⊢
    tauto

/-- The runs acknowledged are those whose acknowledgements were applied. -/
theorem perform_finished (permitted : world.permits bufferSize turn = true) :
    (world.perform turn).finished =
      ((world.applied turn).toList.map Prod.fst).reverse ++ world.finished := by
  cases turn with
  | process readings =>
    obtain ⟨message, rest, first, performed⟩ := process_found permitted
    rw [performed]
    cases message <;> simp [process, applied, first, Message.outcome, Message.runs]
  | request request =>
    obtain ⟨command, _, _, performed⟩ := request_found permitted
    rw [performed]
    rfl
  | collect =>
    obtain ⟨runs, _, performed⟩ := collect_found permitted
    rw [performed]
    rfl
  | spawn =>
    obtain ⟨run, rest, _, performed⟩ := spawn_found permitted
    rw [performed]
    rfl
  | deliver place =>
    obtain ⟨front, run, back, _, _, _, performed⟩ := deliver_found permitted
    rw [performed]
    rfl
  | refuse place =>
    obtain ⟨front, run, back, _, _, performed⟩ := refuse_found permitted
    rw [performed]
    rfl
  | receive =>
    obtain ⟨run, rest, _, performed⟩ := receive_found permitted
    rw [performed]
    rfl
  | finish place =>
    obtain ⟨front, run, ack, back, _, _, performed⟩ := finish_found permitted
    rw [performed]
    rfl
  | _ => rfl

end Moves

/-- Every interleaving keeps custody sound, and records what it applies. -/
theorem custody_sound {bufferSize : Nat} {turns : List (Turn T)}
    (taken : Interleaving bufferSize turns) :
    (acknowledgements turns).map Prod.fst = (reached turns).finished.reverse ∧
      (custody (answers turns) (acknowledgements turns) (reached turns)).Sound .done := by
  induction turns using List.reverseRecOn with
  | nil => exact ⟨rfl, .none_given⟩
  | append_singleton front turn inductionHypothesis =>
    obtain ⟨earlier, permitted⟩ := (interleaving_append front turn).mp taken
    obtain ⟨records, sound⟩ := inductionHypothesis earlier
    have told : answers (front ++ [turn]) = answers front ++ (answered turn).toList := by
      rw [answers, List.filterMap_append]
      cases answer : answered turn <;> simp [answers, answer]
    have acks : acknowledgements (front ++ [turn]) =
        acknowledgements front ++ ((reached front).applied turn).toList := by
      rw [acknowledgements, Runs.outputs_append]
      simp [Runs.outputs, acknowledgements, reached]
    rw [reached_append, told, acks]
    constructor
    · rw [List.map_append, records, perform_finished permitted, List.reverse_append,
        List.reverse_reverse]
    · exact sound.move (custody_move (reached_reachable earlier) records permitted)

/-- While nothing is cut, a run that was answered has its outcome on its way, or
it was applied: its task neither sends nor waits. -/
theorem answered_outcome {bufferSize : Nat} {world : World T} (reached : Reachable bufferSize world)
    (uncut : world.Uncut) {run : Run T} (delivered : run ∈ world.delivered)
    (given : run ∉ world.channel ++ world.held) :
    run ∈ world.finished ∨ ∃ ack, (run, ack) ∈ world.outcomes := by
  have sent : run ∉ world.undelivered := fun undelivered =>
    (List.nodup_append.mp (deliveries_once reached)).2.2 run (List.mem_append_left _ delivered) run
      undelivered rfl
  have accounted := accounted_reachable reached uncut
  have claimed : run ∈ world.ledger.issued :=
    accounted.deliveries.retired_issued (List.mem_append_left _ delivered)
  rcases List.mem_append.mp (accounted.runs.conserved.mem_iff.mp claimed) with finished | outstanding
  · exact Or.inl finished
  · right
    rcases List.mem_append.mp outstanding with underway | queued
    · rcases List.mem_append.mp underway with inDriver | inTask
      · exact absurd (List.mem_append_left _ inDriver) sent
      · obtain ⟨⟨holder, phase⟩, live, rfl⟩ := List.mem_map.mp inTask
        cases phase with
        | sending =>
          refine absurd (List.mem_append_right _ ?_) sent
          exact List.mem_map.mpr ⟨_, List.mem_filter.mpr ⟨live, rfl⟩, rfl⟩
        | waiting =>
          refine absurd ((entrusted_reachable reached uncut).mem_iff.mpr ?_) given
          exact List.mem_map.mpr ⟨_, List.mem_filter.mpr ⟨live, rfl⟩, rfl⟩
        | finishing ack => exact ⟨ack, (mem_outcomes_iff world holder ack).mpr (Or.inl live)⟩
    · obtain ⟨message, member, acknowledged⟩ := List.mem_flatMap.mp queued
      cases message with
      | plain command => cases acknowledged
      | finish holder ack =>
        obtain rfl := List.mem_singleton.mp acknowledged
        exact ⟨ack, (mem_outcomes_iff world run ack).mpr (Or.inr member)⟩

/-- What consumers answer is what the scheduler applies. In every interleaving no run
is answered twice, and no acknowledgement is applied twice. Each that is applied is
what a consumer answered for its run, or it is `Done` for a run that nobody answered.
And while nothing is cut, every answer is applied or on its way. -/
theorem acknowledgements_faithful (bufferSize : Nat) (turns : List (Turn T))
    (taken : Interleaving bufferSize turns) :
    ((answers turns).map Prod.fst).Nodup ∧ ((acknowledgements turns).map Prod.fst).Nodup ∧
      (∀ entry ∈ acknowledgements turns,
        entry ∈ answers turns ∨ entry.2 = .done ∧ entry.1 ∉ (answers turns).map Prod.fst) ∧
      ((reached turns).Uncut → ∀ entry ∈ answers turns,
        entry ∈ acknowledgements turns ∨ entry ∈ (reached turns).outcomes) := by
  obtain ⟨records, sound⟩ := custody_sound taken
  have path := reached_reachable taken
  refine ⟨(List.nodup_append.mp sound.once).2.1, ?_, ?_, ?_⟩
  · rw [records]
    exact List.nodup_reverse.mpr (List.nodup_append.mp (runs_once path)).1
  · exact fun entry applied => sound.faithful entry (List.mem_append_right _ applied)
  · rintro uncut ⟨run, ack⟩ told
    have member : run ∈ (answers turns).map Prod.fst := List.mem_map_of_mem told
    have delivered : run ∈ (reached turns).delivered :=
      sound.handed run (List.mem_append_right _ member)
    have unheld : run ∉ (reached turns).channel ++ (reached turns).held := fun held =>
      (List.nodup_append.mp sound.once).2.2 run held run member rfl
    rcases answered_outcome path uncut delivered unheld with finished | ⟨other, underway⟩
    · have acknowledged : run ∈ (acknowledgements turns).map Prod.fst := by
        rw [records]
        exact List.mem_reverse.mpr finished
      obtain ⟨⟨holder, other⟩, applied, rfl⟩ := List.mem_map.mp acknowledged
      obtain rfl := sound.answer_unique told (List.mem_append_right _ applied)
      exact Or.inl applied
    · obtain rfl := sound.answer_unique told (List.mem_append_left _ underway)
      exact Or.inr underway

/-- The snooze is applied, and was answered. -/
theorem acknowledgements_faithful_snoozing :
    (⟨1, 0, 1⟩, .snooze 5) ∈ acknowledgements snoozing ∧
      ∀ entry ∈ acknowledgements snoozing, entry ∈ answers snoozing ∨
        entry.2 = .done ∧ entry.1 ∉ (answers snoozing).map Prod.fst :=
  ⟨by decide, (acknowledgements_faithful 4 snoozing (by decide)).2.2.1⟩

end World

end Ritualist
