import Ritualist.Library.Comparison
import Ritualist.Replies
import Ritualist.Shutdown

/-!
# One order for all clients

Any number of clients call the scheduler at the same time, and each learns of the
others only through replies. There is one order in which all their commands take
effect: the order in which the actor processes them. It is the order in which they
entered the queue, every reply is what the handler answers at the command's place
in it, and it never contradicts what clients saw happen: a command whose call had
returned before another call was made is processed before that other's.

The last also holds of methods without a reply, which return when their command has
entered the queue and before it is processed. So a client that awaits any reply knows
that all it did before has taken effect.

The end of the task cuts the order off. The commands that it drops, or refuses
afterwards, are not in it, and their callers get what stands for no answer.
-/

namespace Ritualist

universe u
variable {T : Type u}

/-- The reply's part of a call is explained by the commands posted and served: it is
the handler's reply at the command's place among those served, or the method has no
reply and its command was posted, or the task has ended. -/
def Explained [DecidableEq T] (posted : List (Nat × Command T)) (served : List (Nat × Input T))
    (ended : Option Ending) (number : Nat) (method : Method T) (reply : Option (Reply T)) : Prop :=
  ∃ cmd, method.sends = some cmd ∧
    ((∃ front readings back, served = front ++ (number, ⟨cmd, readings⟩) :: back ∧
        reply = ((SchedulerActor.empty.run (front.map Prod.snd)).send cmd readings).2) ∨
      (cmd.hasReply = false ∧ reply = none ∧ (number, cmd) ∈ posted) ∨
      (ended.isSome = true ∧ cmd.unanswered = .value reply))

namespace Service

variable [DecidableEq T]

/-- The command that an action puts into the queue, if any. -/
def posting (service : Service T) : Action T → Option (Nat × Command T)
  | .send number =>
    match service.phase number with
    | some (.sending cmd) => some (number, cmd)
    | _ => none
  | _ => none

/-- The command that an action processes, if any, with what is read. -/
def serving (service : Service T) : Action T → Option (Nat × Input T)
  | .process readings =>
    match service.queue with
    | [] => none
    | (number, cmd) :: _ =>
      match service.actor.sendOrPanic cmd readings with
      | .ok _ => some (number, ⟨cmd, readings⟩)
      | .error _ => none
  | _ => none

/-- The commands that enter the queue along some actions, oldest first. -/
def posted (actions : List (Action T)) : List (Nat × Command T) :=
  Runs.outputs step posting spawned actions

/-- The commands that are processed along some actions, oldest first. -/
def served (actions : List (Action T)) : List (Nat × Input T) :=
  Runs.outputs step serving spawned actions

/-- The commands processed, without what was read. -/
def commandsOf (served : List (Nat × Input T)) : List (Nat × Command T) :=
  served.map fun entry => (entry.1, entry.2.command)

/-- An action that leaves a call with a value found it so, took its command without
a reply, answered it, or left it unanswered for good. -/
theorem value_cases {bufferSize : Nat} {service : Service T} (consistent : service.Consistent)
    {action : Action T} (taken : service.enabled bufferSize action = true) {number : Nat}
    {call : Call T} (found : service.calls[number]? = some call) {reply : Option (Reply T)}
    (value : service.callMove action number call.phase = .returned (.value reply)) :
    call.phase = .returned (.value reply) ∨
      (∃ cmd, action = .send number ∧ call.phase = .sending cmd ∧ cmd.hasReply = false ∧
        reply = none) ∨
      (∃ cmd readings rest after, action = .process readings ∧
        service.queue = (number, cmd) :: rest ∧ call.phase = .awaiting cmd ∧
          service.actor.sendOrPanic cmd readings = .ok (after, reply)) ∨
      ∃ cmd, call.method.sends = some cmd ∧ (service.step action).ended.isSome = true ∧
        cmd.unanswered = .value reply := by
  have fits := consistent.fits number call found
  have dropped : ∀ ending, service.step action = service.terminate ending →
      (if number ∈ service.queue.map Prod.fst then call.phase.dropped else call.phase) =
        .returned (.value reply) →
      call.phase = .returned (.value reply) ∨ ∃ cmd, call.method.sends = some cmd ∧
        (service.step action).ended.isSome = true ∧ cmd.unanswered = .value reply := by
    intro ending ends moved
    split at moved
    · rcases call.phase.dropped_cases with same | ⟨cmd, awaiting, returned⟩
      · exact Or.inl (same ▸ moved)
      · refine Or.inr ⟨cmd, (fits.awaiting cmd awaiting).1, by rw [ends]; rfl, ?_⟩
        exact CallPhase.returned.inj (returned.symm.trans moved)
    · exact Or.inl moved
  cases action with
  | call method | abort | release => exact Or.inl value
  | send caller =>
    simp only [callMove] at value
    split at value
    case isTrue own =>
      subst own
      rcases call.phase.sent_cases with same | ⟨cmd, sending, ⟨_, awaits⟩ | ⟨silent, returned⟩⟩
      · exact Or.inl (same ▸ value)
      · rw [awaits] at value
        cases value
      · rw [returned] at value
        exact Or.inr (Or.inl ⟨cmd, rfl, sending, silent,
          (Outcome.value.inj (CallPhase.returned.inj value)).symm⟩)
    case isFalse => exact Or.inl value
  | refuse caller =>
    simp only [callMove] at value
    split at value
    case isTrue own =>
      subst own
      rcases call.phase.refused_cases with same | ⟨cmd, sending, returned⟩
      · exact Or.inl (same ▸ value)
      · rw [returned] at value
        have hasEnded : service.ended.isSome = true := by
          simpa [enabled, phase, found, sending] using taken
        exact Or.inr (Or.inr (Or.inr ⟨cmd, (fits.sending cmd sending).1, hasEnded,
          CallPhase.returned.inj value⟩))
    case isFalse => exact Or.inl value
  | process readings =>
    cases first : service.queue with
    | nil =>
      simp only [callMove, first] at value
      exact Or.inl value
    | cons head rest =>
      obtain ⟨caller, cmd⟩ := head
      cases outcome : service.actor.sendOrPanic cmd readings with
      | ok result =>
        obtain ⟨after, answer⟩ := result
        simp only [callMove, first, outcome] at value
        split at value
        case isTrue own =>
          subst own
          rcases call.phase.answered_cases answer with same | ⟨awaited, awaiting, returned⟩
          · exact Or.inl (same ▸ value)
          · rw [returned] at value
            obtain rfl := Outcome.value.inj (CallPhase.returned.inj value)
            have own : call.phase = .awaiting cmd := awaits_own consistent found
              (first ▸ List.mem_cons_self) (by rw [awaiting]; rfl)
            exact Or.inr (Or.inr (Or.inl ⟨cmd, readings, rest, after, rfl, rfl, own, outcome⟩))
        case isFalse => exact Or.inl value
      | error range =>
        simp only [callMove, first, outcome] at value
        have ends : service.step (.process readings) = service.terminate .panicked := by
          simp [step, first, outcome]
        rw [first] at dropped
        rcases dropped .panicked ends value with same | lost
        · exact Or.inl same
        · exact Or.inr (Or.inr (Or.inr lost))
  | stop ending =>
    rcases dropped ending rfl value with same | lost
    · exact Or.inl same
    · exact Or.inr (Or.inr (Or.inr lost))
  | cancel caller =>
    simp only [callMove] at value
    split at value
    · cases value
    · exact Or.inl value
  | take caller =>
    simp only [callMove] at value
    split at value
    · rcases call.phase.took_cases service.handle with same | ⟨_, ⟨_, joins⟩ | ⟨_, returned⟩⟩
      · exact Or.inl (same ▸ value)
      · rw [joins] at value
        cases value
      · rw [returned] at value
        cases value
    · exact Or.inl value
  | join caller =>
    simp only [callMove] at value
    split at value
    · split at value
      · cases value
      · exact Or.inl value
    · exact Or.inl value
  | abandon caller =>
    simp only [callMove] at value
    split at value
    · cases value
    · exact Or.inl value

/-- The commands posted and served so far are those that entered the queue and
those of them that were processed, in order, and the actor's state is theirs. -/
structure InOrder (posted : List (Nat × Command T)) (served : List (Nat × Input T))
    (service : Service T) : Prop where
  recorded : commandsOf served = service.processed
  running : service.ended = none → service.entries = posted
  leading : service.processed <+: posted
  state : service.actor = SchedulerActor.empty.run (served.map Prod.snd)
  distinct : (posted.map Prod.fst).Nodup
  made : ∀ entry ∈ posted, entry.1 < service.calls.length

/-- Every value that was returned is explained by the commands posted and served. -/
structure Ordered (posted : List (Nat × Command T)) (served : List (Nat × Input T))
    (service : Service T) : Prop where
  consistent : service.Consistent
  inOrder : service.InOrder posted served
  explained : ∀ (number : Nat) (call : Call T) (reply : Option (Reply T)),
    service.calls[number]? = some call → call.phase = .returned (.value reply) →
      Explained posted served service.ended number call.method reply

/-- A value that is explained stays so. -/
theorem explained_grow {earlier : List (Nat × Command T)} {before : List (Nat × Input T)}
    {ended ended' : Option Ending} {number : Nat} {method : Method T} {reply : Option (Reply T)}
    (explained : Explained earlier before ended number method reply)
    (later : List (Nat × Command T)) (after : List (Nat × Input T))
    (stays : ended.isSome = true → ended'.isSome = true) :
    Explained (earlier ++ later) (before ++ after) ended' number method reply := by
  obtain ⟨cmd, sends, reason⟩ := explained
  refine ⟨cmd, sends, ?_⟩
  rcases reason with ⟨front, readings, back, rfl, answer⟩ | ⟨silent, none, member⟩ | ⟨hasEnded, lost⟩
  · exact Or.inl ⟨front, readings, back ++ after, by simp, answer⟩
  · exact Or.inr (Or.inl ⟨silent, none, List.mem_append_left _ member⟩)
  · exact Or.inr (Or.inr ⟨stays hasEnded, lost⟩)

/-- Every value that an action leaves is explained. -/
theorem explained_step {bufferSize : Nat} {service : Service T} {action : Action T}
    {earlier : List (Nat × Command T)} {before : List (Nat × Input T)}
    (ordered : service.Ordered earlier before) (taken : service.enabled bufferSize action = true)
    {number : Nat} {after : Call T} {reply : Option (Reply T)}
    (found : (service.step action).calls[number]? = some after)
    (value : after.phase = .returned (.value reply)) :
    Explained (earlier ++ (service.posting action).toList) (before ++ (service.serving action).toList)
      (service.step action).ended number after.method reply := by
  rcases get_step_cases service action number found with ⟨method, _, _, rfl⟩ | ⟨call, present, rfl⟩
  · have started : method.start = .returned (.value reply) := value
    have without := (start_without_outcome method).1
    rw [started] at without
    cases without
  · rcases value_cases ordered.consistent taken present value with
      same | ⟨cmd, rfl, sending, silent, rfl⟩ | ⟨cmd, readings, rest, next, rfl, first, _, handled⟩ |
        ⟨cmd, sends, hasEnded, lost⟩
    · exact explained_grow (ordered.explained number call reply present same) _ _
        (ended_step service action)
    · have place : service.phase number = some (.sending cmd) := by simp [phase, present, sending]
      have sends := ((ordered.consistent.fits number call present).sending cmd sending).1
      exact ⟨cmd, sends, Or.inr (Or.inl ⟨silent, rfl, by simp [posting, place]⟩)⟩
    · have entered : (number, cmd) ∈ service.entries :=
        List.mem_append_right _ (first ▸ List.mem_cons_self)
      have sends := ((ordered.consistent.fits number call present).entered cmd entered).1
      have handler := SchedulerActor.send_or_panic_ok service.actor cmd readings handled
      refine ⟨cmd, sends, Or.inl ⟨before, readings, [], ?_, ?_⟩⟩
      · simp [serving, first, handled]
      · rw [← ordered.inOrder.state]
        exact congrArg Prod.snd handler
    · exact ⟨cmd, sends, Or.inr (Or.inr ⟨hasEnded, lost⟩)⟩

section Actions

variable {bufferSize : Nat} {service : Service T} {action : Action T}
  {earlier : List (Nat × Command T)} {before : List (Nat × Input T)}
  (inOrder : service.InOrder earlier before)
include inOrder

/-- An action that neither posts nor serves a command, and leaves the task alone. -/
theorem in_order_aside (unposted : service.posting action = none)
    (unserved : service.serving action = none)
    (task : (service.step action).actor = service.actor ∧
      (service.step action).ended = service.ended ∧ (service.step action).queue = service.queue ∧
        (service.step action).processed = service.processed)
    (calls : service.calls.length ≤ (service.step action).calls.length) :
    (service.step action).InOrder (earlier ++ (service.posting action).toList)
      (before ++ (service.serving action).toList) := by
  obtain ⟨actor, ended, queue, processed⟩ := task
  have same : (service.step action).entries = service.entries := by rw [entries, queue, processed]; rfl
  rw [unposted, unserved, Option.toList_none, Option.toList_none, List.append_nil, List.append_nil]
  obtain ⟨recorded, running, leading, state, distinct, made⟩ := inOrder
  constructor
  case recorded => rw [processed]; exact recorded
  case running => rw [ended, same]; exact running
  case leading => rw [processed]; exact leading
  case state => rw [actor]; exact state
  case distinct => exact distinct
  case made => exact fun entry member => (made entry member).trans_le calls

/-- The end of the task cuts the order off. -/
theorem in_order_terminate (ending : Ending) :
    (service.terminate ending).InOrder earlier before := by
  obtain ⟨recorded, _, leading, state, distinct, made⟩ := inOrder
  constructor
  case recorded => exact recorded
  case running =>
    intro running
    cases running
  case leading => exact leading
  case state => exact state
  case distinct => exact distinct
  case made =>
    intro entry member
    simpa [terminate] using made entry member

/-- A command that enters the queue is the last of those posted. -/
theorem in_order_send {number : Nat} {cmd : Command T} (consistent : service.Consistent)
    (here : service.phase number = some (.sending cmd)) (running : service.ended = none) :
    (service.step (.send number)).InOrder (earlier ++ [(number, cmd)]) before := by
  have entries : service.entries = earlier := inOrder.running running
  obtain ⟨recorded, _, leading, state, distinct, made⟩ := inOrder
  obtain ⟨call, found, sending⟩ := Option.map_eq_some_iff.mp here
  have stepped : service.step (.send number) =
      (service.enqueue number cmd).moveCall number CallPhase.sent := by simp [step, here]
  rw [stepped]
  constructor
  case recorded => exact recorded
  case running =>
    intro _
    rw [← entries]
    exact (List.append_assoc _ _ _).symm
  case leading => exact leading.trans (List.prefix_append _ _)
  case state => exact state
  case distinct =>
    rw [List.map_append, List.nodup_append]
    refine ⟨distinct, List.nodup_singleton _, ?_⟩
    rintro other member last same rfl
    obtain rfl : other = number := List.mem_singleton.mp same
    obtain ⟨⟨_, sent⟩, posted, rfl⟩ := List.mem_map.mp member
    exact ((consistent.fits _ call found).sending cmd sending).2 sent (entries ▸ posted)
  case made =>
    intro entry member
    rw [moveCall, length_moveCalls]
    rcases List.mem_append.mp member with posted | last
    · exact made entry posted
    · obtain rfl := List.mem_singleton.mp last
      exact (List.getElem?_eq_some_iff.mp found).1

/-- The command that is processed is the next of those posted. -/
theorem in_order_process {number : Nat} {cmd : Command T} {rest : List (Nat × Command T)}
    {readings : T → Reading} {after : SchedulerActor T} {reply : Option (Reply T)}
    (first : service.queue = (number, cmd) :: rest) (running : service.ended = none)
    (handled : service.actor.sendOrPanic cmd readings = .ok (after, reply)) :
    (service.complete number cmd rest after reply).InOrder earlier
      (before ++ [(number, ⟨cmd, readings⟩)]) := by
  have entries : service.entries = earlier := inOrder.running running
  have processed : (service.complete number cmd rest after reply).entries = service.entries := by
    simp [Service.entries, complete, first]
  have handler := SchedulerActor.send_or_panic_ok service.actor cmd readings handled
  obtain ⟨recorded, _, _, state, distinct, made⟩ := inOrder
  constructor
  case recorded => simp [commandsOf, complete, ← recorded]
  case running => exact fun _ => processed.trans entries
  case leading =>
    rw [← entries, ← processed]
    exact List.prefix_append _ _
  case state =>
    rw [List.map_append, SchedulerActor.run_append, ← state]
    exact congrArg Prod.fst handler
  case distinct => exact distinct
  case made =>
    intro entry member
    simpa [complete, moveCall] using made entry member

/-- Every enabled action keeps the order. -/
theorem in_order_step (consistent : service.Consistent)
    (taken : service.enabled bufferSize action = true) :
    (service.step action).InOrder (earlier ++ (service.posting action).toList)
      (before ++ (service.serving action).toList) := by
  cases action with
  | call method =>
    refine in_order_aside inOrder rfl rfl ⟨rfl, rfl, rfl, rfl⟩ ?_
    simp [step]
  | send number =>
    simp only [enabled] at taken
    split at taken
    case h_1 cmd here =>
      have running : service.ended = none := by simpa using (Bool.and_eq_true_iff.mp taken).1
      have posts : service.posting (.send number) = some (number, cmd) := by simp [posting, here]
      have unserved : service.serving (.send number) = none := rfl
      rw [posts, unserved, Option.toList_none, List.append_nil]
      exact in_order_send inOrder consistent here running
    case h_2 => cases taken
  | process readings =>
    have running : service.ended = none := by simpa using (Bool.and_eq_true_iff.mp taken).1
    have unposted : service.posting (.process readings) = none := rfl
    rw [unposted, Option.toList_none, List.append_nil]
    cases first : service.queue with
    | nil => simp [enabled, first] at taken
    | cons head rest =>
      obtain ⟨number, cmd⟩ := head
      cases outcome : service.actor.sendOrPanic cmd readings with
      | ok result =>
        have served : service.serving (.process readings) = some (number, ⟨cmd, readings⟩) := by
          simp [serving, first, outcome]
        have stepped : service.step (.process readings) =
            service.complete number cmd rest result.1 result.2 := by simp [step, first, outcome]
        rw [served, stepped]
        exact in_order_process inOrder first running outcome
      | error range =>
        have unserved : service.serving (.process readings) = none := by
          simp [serving, first, outcome]
        have stepped : service.step (.process readings) = service.terminate .panicked := by
          simp [step, first, outcome]
        rw [unserved, stepped, Option.toList_none, List.append_nil]
        exact in_order_terminate inOrder .panicked
  | stop ending =>
    have silent : service.posting (.stop ending) = none ∧ service.serving (.stop ending) = none :=
      ⟨rfl, rfl⟩
    rw [silent.1, silent.2, Option.toList_none, Option.toList_none, List.append_nil, List.append_nil]
    exact in_order_terminate inOrder ending
  | join number =>
    refine in_order_aside inOrder rfl rfl ?_ ?_
    · simp only [step]
      split <;> exact ⟨rfl, rfl, rfl, rfl⟩
    · simp only [step]
      split
      · simp [moveCall]
      · exact le_rfl
  | abort | release => exact in_order_aside inOrder rfl rfl ⟨rfl, rfl, rfl, rfl⟩ le_rfl
  | refuse number | cancel number | take number | abandon number =>
    refine in_order_aside inOrder rfl rfl ⟨rfl, rfl, rfl, rfl⟩ ?_
    simp [step, moveCall]

end Actions

/-- Every interleaving orders its commands. -/
theorem ordered_reached {bufferSize : Nat} {actions : List (Action T)}
    (taken : Interleaving bufferSize actions) :
    (actions.foldl step spawned).Ordered (posted actions) (served actions) := by
  induction actions using List.reverseRecOn with
  | nil =>
    refine ⟨spawned_consistent, ⟨rfl, fun _ => rfl, List.prefix_refl _, rfl, List.nodup_nil, ?_⟩, ?_⟩
    · intro entry member
      cases member
    · intro number call reply found
      simp [spawned] at found
  | append_singleton front action inductionHypothesis =>
    obtain ⟨before, here, _⟩ := (Runs.along_append _ _ _).mp taken
    have ordered := inductionHypothesis before
    have posts : posted (front ++ [action]) =
        posted front ++ ((front.foldl step spawned).posting action).toList := by
      rw [posted, Runs.outputs_append]
      simp [Runs.outputs, posted]
    have serves : served (front ++ [action]) =
        served front ++ ((front.foldl step spawned).serving action).toList := by
      rw [served, Runs.outputs_append]
      simp [Runs.outputs, served]
    rw [posts, serves, List.foldl_append]
    exact ⟨consistent_step _ action ordered.consistent here,
      in_order_step ordered.inOrder ordered.consistent here,
      fun number call reply => explained_step ordered here⟩

/-- A task that has ended serves no more commands. -/
theorem none_served {bufferSize : Nat} {service : Service T} {actions : List (Action T)}
    (taken : Runs.Along step (fun reached action => reached.enabled bufferSize action = true)
      service actions) (hasEnded : service.ended.isSome = true) :
    Runs.outputs step serving service actions = [] := by
  induction actions generalizing service with
  | nil => rfl
  | cons action rest inductionHypothesis =>
    obtain ⟨here, later⟩ := taken
    have unserved : service.serving action = none := by
      cases action with
      | process readings =>
        rw [ended_not_processing service hasEnded] at here
        cases here
      | _ => rfl
    rw [Runs.outputs, unserved, inductionHypothesis later (ended_step service action hasEnded)]
    rfl

/-- A call that has returned a value has its command posted, or the task has ended. -/
theorem value_posted {posted : List (Nat × Command T)} {served : List (Nat × Input T)}
    {service : Service T} (ordered : service.Ordered posted served) {number : Nat} {call : Call T}
    {reply : Option (Reply T)} (found : service.calls[number]? = some call)
    (value : call.phase = .returned (.value reply)) :
    number ∈ posted.map Prod.fst ∨ service.ended.isSome = true := by
  obtain ⟨cmd, _, reason⟩ := ordered.explained number call reply found value
  rcases reason with ⟨front, readings, back, split, _⟩ | ⟨_, _, member⟩ | ⟨hasEnded, _⟩
  · have recorded : (number, cmd) ∈ commandsOf served := by simp [commandsOf, split]
    rw [ordered.inOrder.recorded] at recorded
    exact Or.inl (List.mem_map_of_mem (ordered.inOrder.leading.subset recorded))
  · exact Or.inl (List.mem_map_of_mem member)
  · exact Or.inr hasEnded

omit [DecidableEq T] in
/-- What leads a list and reaches beyond its front has all of the front before it. -/
theorem front_first {leading front back : List (Nat × Command T)} (leads : leading <+: front ++ back)
    {earlier later : Nat} (inFront : earlier ∈ front.map Prod.fst)
    (reached : later ∈ leading.map Prod.fst) (beyond : later ∉ front.map Prod.fst) :
    [earlier, later].Sublist (leading.map Prod.fst) := by
  rcases List.prefix_or_prefix_of_prefix leads (List.prefix_append front back) with short | ⟨rest, rfl⟩
  · exact absurd ((short.map Prod.fst).subset reached) beyond
  · rw [List.map_append] at reached ⊢
    have inRest := (List.mem_append.mp reached).resolve_left beyond
    exact (List.singleton_sublist.mpr inFront).append (List.singleton_sublist.mpr inRest)

/-- Clients see one order of all commands. In every interleaving, whatever ends it, the
commands processed are the first of those that entered the queue, in the same order,
none of them twice. Every value that a call returned is what the handler replies at the
command's place in that order, or stands for no reply, because the method has none or
because the task has ended. And a call that returned a value before another was made
comes before it. -/
theorem linearizable (bufferSize : Nat) (actions : List (Action T))
    (taken : Interleaving bufferSize actions) :
    (commandsOf (served actions) <+: posted actions ∧ ((posted actions).map Prod.fst).Nodup) ∧
      (∀ (number : Nat) (call : Call T) (reply : Option (Reply T)),
        (actions.foldl step spawned).calls[number]? = some call →
          call.phase = .returned (.value reply) →
            Explained (posted actions) (served actions) (actions.foldl step spawned).ended number
              call.method reply) ∧
      ∀ (first second : List (Action T)) (earlier later : Nat) (call : Call T)
        (reply : Option (Reply T)), actions = first ++ second →
          (first.foldl step spawned).calls[earlier]? = some call →
            call.phase = .returned (.value reply) →
              (first.foldl step spawned).calls.length ≤ later →
                later ∈ (served actions).map Prod.fst →
                  [earlier, later].Sublist ((served actions).map Prod.fst) := by
  have ordered := ordered_reached taken
  refine ⟨⟨?_, ordered.inOrder.distinct⟩, ordered.explained, ?_⟩
  · rw [ordered.inOrder.recorded]
    exact ordered.inOrder.leading
  · rintro first second earlier later call reply rfl found value unmade processed
    obtain ⟨before, after⟩ := (Runs.along_append _ _ _).mp taken
    have orderedFirst := ordered_reached before
    have unposted : later ∉ (posted first).map Prod.fst := by
      intro posted
      obtain ⟨entry, member, rfl⟩ := List.mem_map.mp posted
      have made := orderedFirst.inOrder.made entry member
      omega
    have numbers : (served (first ++ second)).map Prod.fst =
        (commandsOf (served (first ++ second))).map Prod.fst := by
      simp [commandsOf]
    rw [numbers] at processed ⊢
    rcases value_posted orderedFirst found value with inFront | hasEnded
    · have posts : posted (first ++ second) = posted first ++
          Runs.outputs step posting (first.foldl step spawned) second := Runs.outputs_append _ _ _ _ _
      have leads := ordered.inOrder.leading
      rw [← ordered.inOrder.recorded, posts] at leads
      exact front_first leads inFront processed unposted
    · -- nothing is processed after the end, and what was processed before had been posted
      exfalso
      have serves : served (first ++ second) = served first := by
        rw [served, Runs.outputs_append, none_served after hasEnded, List.append_nil]
        rfl
      rw [serves, orderedFirst.inOrder.recorded] at processed
      exact unposted ((orderedFirst.inOrder.leading.map Prod.fst).subset processed)

/-- A client resets an activity, which returns at once, and then takes a snapshot. -/
theorem reset_before_snapshot :
    [0, 1].Sublist ((served ([.call (.request (.reset ⟨1, .fixedInterval 60⟩)), .send 0,
      .call (.request .snapshot), .send 1, .process fun _ => .least 0 0,
      .process fun _ => .least 0 0] : List (Action Nat))).map Prod.fst) :=
  (linearizable 4 [.call (.request (.reset ⟨1, .fixedInterval 60⟩)), .send 0,
    .call (.request .snapshot), .send 1, .process fun _ => .least 0 0,
    .process fun _ => .least 0 0] (by decide)).2.2
    [.call (.request (.reset ⟨1, .fixedInterval 60⟩)), .send 0]
    [.call (.request .snapshot), .send 1, .process fun _ => .least 0 0,
      .process fun _ => .least 0 0] 0 1 ⟨_, .returned (.value none)⟩ none rfl rfl rfl (by decide)
    (by decide)

end Service

end Ritualist
