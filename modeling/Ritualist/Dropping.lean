import Ritualist.Linearization

/-!
# A scheduler that is only dropped loses nothing

The actor's task ends when the token is cancelled, when its handle is aborted, when a
command panics, or when every clone of the scheduler has been dropped. A cancellation
and an abort may cut commands off, and a panic needs a specification that nobody
validated. The last way cuts off nothing: no call is left when the queue closes, and
the loop breaks only when the queue is empty, so that also what was sent without a
reply is processed first.
-/

namespace Ritualist

universe u
variable {T : Type u}

/-- Nothing that happens to commands, and no join handle, revives a call that is over. -/
theorem CallPhase.inactive_kept {phase : CallPhase T} (inactive : phase.isActive = false) :
    phase.sent.isActive = false ∧ phase.refused.isActive = false ∧
      phase.dropped.isActive = false ∧ (∀ reply, (phase.answered reply).isActive = false) ∧
        ∀ present, (phase.took present).isActive = false := by
  cases phase with
  | returned outcome | abandoned => exact ⟨rfl, rfl, rfl, fun _ => rfl, fun _ => rfl⟩
  | _ => cases inactive

/-- What a method of `WithScheduler` sends is issued. -/
theorem request_issued (asked : Request T) : Service.CallsIssued (.call (.request asked)) := by
  intro method cmd calls sends
  obtain rfl := Action.call.inj calls
  cases validated : asked.command with
  | ok sent =>
    rw [Method.sends, validated] at sends
    obtain rfl := Option.some.inj sends
    exact .request asked sent validated
  | error error =>
    rw [Method.sends, validated] at sends
    cases sends

namespace Service

variable [DecidableEq T]

/-- Nobody has asked for the end of the task, and it ends only for want of clones, which
are not dropped while a call needs one. -/
structure Unbroken (service : Service T) : Prop where
  calm : service.Calm
  quiet : service.NoPanic
  uncancelled : service.cancelled = false
  unaborted : service.aborting = false
  released : service.ended.isSome = true → service.released = true
  settled : service.released = true → ∀ (number : Nat) (call : Call T),
    service.calls[number]? = some call → call.phase.isActive = false

section Steps

variable {bufferSize : Nat} {service : Service T} {action : Action T}
  (unbroken : service.Unbroken) (taken : service.enabled bufferSize action = true)
include unbroken taken

/-- Nothing is discarded. -/
theorem unbroken_discards_nothing : service.discarded action = [] := by
  cases action with
  | refuse number =>
    simp only [enabled] at taken
    split at taken
    case h_1 cmd here =>
      obtain ⟨call, found, sending⟩ := Option.map_eq_some_iff.mp here
      have inactive := unbroken.settled (unbroken.released taken) number call found
      rw [sending] at inactive
      cases inactive
    case h_2 => cases taken
  | process readings =>
    cases first : service.queue with
    | nil => simp [discarded, first]
    | cons head rest =>
      obtain ⟨handled, _⟩ := calm_received unbroken.calm first readings
      simp [discarded, first, handled]
  | stop ending =>
    cases ending with
    | finished =>
      have ends : service.ended.isNone = true ∧ service.released = true ∧ service.queue = [] := by
        simpa [enabled, unbroken.uncancelled] using taken
      exact ends.2.2
    | aborted => simp [enabled, unbroken.unaborted] at taken
    | panicked => cases taken
  | _ => rfl

/-- The task ends only when every clone has been dropped. -/
theorem unbroken_released (hasEnded : (service.step action).ended.isSome = true) :
    (service.step action).released = true := by
  cases action with
  | stop ending =>
    cases ending with
    | finished =>
      have ends : service.ended.isNone = true ∧ service.released = true ∧ service.queue = [] := by
        simpa [enabled, unbroken.uncancelled] using taken
      exact ends.2.1
    | aborted => simp [enabled, unbroken.unaborted] at taken
    | panicked => cases taken
  | process readings =>
    cases first : service.queue with
    | nil => simp [enabled, first] at taken
    | cons head rest =>
      obtain ⟨handled, _⟩ := calm_received unbroken.calm first readings
      simp only [step, first, handled] at hasEnded ⊢
      exact unbroken.released hasEnded
  | send number | join number =>
    simp only [step] at hasEnded ⊢
    split at hasEnded <;> exact unbroken.released hasEnded
  | release => rfl
  | _ => exact unbroken.released hasEnded

/-- Once every clone has been dropped, no call is left to move. -/
theorem unbroken_settled (uninterrupted : action.interrupts = false)
    (released : (service.step action).released = true) (number : Nat) (call : Call T)
    (found : (service.step action).calls[number]? = some call) : call.phase.isActive = false := by
  obtain ⟨_, _, _, same⟩ := means_kept service action uninterrupted
  have gone : action = .release ∨ service.released = true :=
    same.symm.imp_right fun same => same.symm.trans released
  rcases get_step_cases service action number found with ⟨method, rfl, _, rfl⟩ | ⟨before, earlier, rfl⟩
  · rcases gone with releasing | gone
    · cases releasing
    · simp [enabled, gone] at taken
  · have inactive : before.phase.isActive = false := by
      rcases gone with rfl | gone
      · obtain ⟨_, every⟩ := Bool.and_eq_true_iff.mp taken
        simpa using List.all_eq_true.mp every before (List.mem_of_getElem? earlier)
      · exact unbroken.settled gone number before earlier
    obtain ⟨sent, refused, dropped, answered, took⟩ := CallPhase.inactive_kept inactive
    refine call_move_elim service action number (fun phase => phase.isActive = false) inactive
      sent refused answered dropped ?_ (fun _ _ => took service.handle) (fun _ _ _ => rfl)
      fun _ _ => rfl
    rintro caller rfl
    cases uninterrupted

/-- What does not ask for the end of the task keeps it unbroken. -/
theorem unbroken_step (issued : CallsIssued action) (uninterrupted : action.interrupts = false) :
    (service.step action).Unbroken := by
  obtain ⟨calm, quiet⟩ := no_panic_kept unbroken.calm unbroken.quiet taken issued
    (unbroken_discards_nothing unbroken taken)
  obtain ⟨cancelled, aborting, _, _⟩ := means_kept service action uninterrupted
  exact ⟨calm, quiet, cancelled.trans unbroken.uncancelled, aborting.trans unbroken.unaborted,
    unbroken_released unbroken taken, unbroken_settled unbroken taken uninterrupted⟩

end Steps

/-- An action that discards nothing moves commands along: what is processed leaves the
front of the queue, and what is posted joins its end. -/
theorem flow_step (service : Service T) (action : Action T) (kept : service.discarded action = []) :
    commandsOf (service.serving action).toList ++ (service.step action).queue =
      service.queue ++ (service.posting action).toList := by
  cases action with
  | send number =>
    cases here : service.phase number with
    | none => simp [serving, step, posting, here, commandsOf]
    | some phase =>
      cases phase with
      | sending cmd =>
        simp [serving, step, posting, here, commandsOf, enqueue, moveCall, moveCalls]
      | _ => simp [serving, step, posting, here, commandsOf]
  | process readings =>
    cases first : service.queue with
    | nil => simp [serving, step, posting, first, commandsOf]
    | cons head rest =>
      obtain ⟨caller, cmd⟩ := head
      cases outcome : service.actor.sendOrPanic cmd readings with
      | ok result => simp [serving, step, posting, first, outcome, complete, commandsOf]
      | error range => simp [discarded, first, outcome] at kept
  | stop ending =>
    have empty : service.queue = [] := kept
    simp [serving, step, posting, terminate, commandsOf, empty]
  | join number =>
    simp only [serving, step, posting]
    split <;> simp [commandsOf, moveCall, moveCalls]
  | _ => simp [serving, step, posting, commandsOf, moveCall, moveCalls]

/-- Along actions that discard nothing, every command posted is processed or queued. -/
theorem flow_run {actions : List (Action T)}
    (kept : Runs.Along step (fun service action => service.discarded action = []) spawned actions) :
    posted actions = commandsOf (served actions) ++ (actions.foldl step spawned).queue := by
  induction actions using List.reverseRecOn with
  | nil => rfl
  | append_singleton front action inductionHypothesis =>
    obtain ⟨before, here, _⟩ := (Runs.along_append _ _ _).mp kept
    have posts : posted (front ++ [action]) =
        posted front ++ ((front.foldl step spawned).posting action).toList := by
      rw [posted, Runs.outputs_append]
      simp [Runs.outputs, posted]
    have serves : commandsOf (served (front ++ [action])) = commandsOf (served front) ++
        commandsOf ((front.foldl step spawned).serving action).toList := by
      rw [served, Runs.outputs_append, commandsOf, List.map_append]
      simp [Runs.outputs, served, commandsOf]
    rw [posts, serves, inductionHypothesis before, List.foldl_append, List.append_assoc,
      List.append_assoc]
    exact congrArg _ (flow_step _ action here).symm

/-- A registration, a tick whose call has returned, and then nobody holds a clone. -/
def leftBehind : List (Action Nat) :=
  [Action.call (.request (.register ⟨1, .fixedInterval 10⟩)), Action.send 0,
    Action.process fun _ => .least 0 0, Action.call (.command .tick), Action.send 1,
    Action.release, Action.process fun _ => .least 5 0, Action.stop .finished]

end Service

end Ritualist
