import Ritualist.Service

/-!
# The calls and the queue

A command that was sent is in the queue until it is processed, or until the task
ends and the queue is dropped. `Consistent` is the agreement of the calls with
that: a call that sends has nothing in the queue, a call that awaits has its
command there, and a method without a reply has returned when its command enters.
Every action of an interleaving keeps it.

So every reply channel resolves when the task ends, and the actor's state is that
of a run of the handler on the commands recorded. While clients validate what they
send, the task does not panic.
-/

namespace Ritualist

universe u
variable {T : Type u}

namespace Service

/-- Every command that was put into the queue, oldest first. -/
def entries (service : Service T) : List (Nat × Command T) := service.processed ++ service.queue

end Service

/-- A call agrees with the queue: what it sends has not entered, what it awaits is
queued, and what has entered is its method's command, which a method without a
reply has acknowledged. -/
structure Call.Fits (service : Service T) (number : Nat) (call : Call T) : Prop where
  sending : ∀ cmd, call.phase = .sending cmd →
    call.method.sends = some cmd ∧ ∀ other, (number, other) ∉ service.entries
  awaiting : ∀ cmd, call.phase = .awaiting cmd →
    call.method.sends = some cmd ∧ cmd.hasReply = true ∧ (number, cmd) ∈ service.queue
  entered : ∀ cmd, (number, cmd) ∈ service.entries →
    call.method.sends = some cmd ∧ (cmd.hasReply = false → call.phase.hasValue = true)

namespace Call.Fits

variable {service after : Service T} {number : Nat} {call : Call T}

/-- Agreement is with the queue and the record of what was processed alone. -/
theorem congr (fits : call.Fits service number) (queue : after.queue = service.queue)
    (processed : after.processed = service.processed) : call.Fits after number where
  sending := by rw [Service.entries, queue, processed]; exact fits.sending
  awaiting := by rw [queue]; exact fits.awaiting
  entered := by rw [Service.entries, queue, processed]; exact fits.entered

/-- An active call may leave its exchange with the queue at any point. -/
theorem leave (fits : call.Fits service number) (active : call.phase.isActive = true)
    (phase : CallPhase T) (unsent : ∀ cmd, phase ≠ .sending cmd)
    (unanswered : ∀ cmd, phase ≠ .awaiting cmd) :
    ({ call with phase := phase } : Call T).Fits service number where
  sending cmd same := absurd same (unsent cmd)
  awaiting cmd same := absurd same (unanswered cmd)
  entered cmd member := by
    refine ⟨(fits.entered cmd member).1, fun silent => ?_⟩
    have returned := (fits.entered cmd member).2 silent
    cases here : call.phase <;> simp [here, CallPhase.isActive, CallPhase.hasValue] at active returned

/-- A command that enters for another call leaves this one in agreement. -/
theorem grow (fits : call.Fits service number) {caller : Nat} {cmd : Command T}
    (apart : number ≠ caller) (queue : after.queue = service.queue ++ [(caller, cmd)])
    (processed : after.processed = service.processed) : call.Fits after number := by
  have others : ∀ other, (number, other) ∈ after.entries → (number, other) ∈ service.entries := by
    intro other member
    rw [Service.entries, processed, queue, ← List.append_assoc] at member
    rcases List.mem_append.mp member with earlier | last
    · exact earlier
    · exact absurd (Prod.mk.inj (List.mem_singleton.mp last)).1 apart
  refine ⟨?_, ?_, ?_⟩
  · intro other sending
    obtain ⟨sends, absent⟩ := fits.sending other sending
    exact ⟨sends, fun sent member => absent sent (others sent member)⟩
  · intro other awaiting
    obtain ⟨sends, bearing, queued⟩ := fits.awaiting other awaiting
    rw [queue]
    exact ⟨sends, bearing, List.mem_append_left _ queued⟩
  · intro other member
    exact fits.entered other (others other member)

/-- The call whose command enters awaits its reply, or has returned without one. -/
theorem enter (fits : call.Fits service number) {cmd : Command T}
    (sending : call.phase = .sending cmd) (queue : after.queue = service.queue ++ [(number, cmd)])
    (processed : after.processed = service.processed) :
    ({ call with phase := call.phase.sent } : Call T).Fits after number := by
  obtain ⟨sends, absent⟩ := fits.sending cmd sending
  rw [sending]
  refine ⟨?_, ?_, ?_⟩
  · intro other sent
    cases reply : cmd.hasReply <;> simp [CallPhase.sent, reply] at sent
  · intro other sent
    cases reply : cmd.hasReply with
    | true =>
      simp only [CallPhase.sent, reply, if_true] at sent
      obtain rfl := CallPhase.awaiting.inj sent
      rw [queue]
      exact ⟨sends, reply, List.mem_append_right _ List.mem_cons_self⟩
    | false => simp [CallPhase.sent, reply] at sent
  · intro other member
    rw [Service.entries, processed, queue, ← List.append_assoc] at member
    rcases List.mem_append.mp member with earlier | last
    · exact absurd earlier (absent other)
    · obtain rfl : other = cmd := (Prod.mk.inj (List.mem_singleton.mp last)).2
      exact ⟨sends, fun silent => by simp [CallPhase.sent, silent, CallPhase.hasValue]⟩

/-- A call that is moved only if it awaits, and then returns, stays in agreement if
what it goes on awaiting stays queued. -/
theorem settle (fits : call.Fits service number) {phase : CallPhase T}
    (settles : phase = call.phase ∨
      ∃ cmd outcome, call.phase = .awaiting cmd ∧ phase = .returned outcome)
    (entered : ∀ cmd, (number, cmd) ∈ after.entries → (number, cmd) ∈ service.entries)
    (queued : ∀ cmd, phase = .awaiting cmd → (number, cmd) ∈ after.queue) :
    ({ call with phase := phase } : Call T).Fits after number := by
  rcases settles with rfl | ⟨cmd, outcome, awaiting, rfl⟩
  · refine ⟨?_, ?_, fun cmd member => fits.entered cmd (entered cmd member)⟩
    · intro cmd sending
      obtain ⟨sends, absent⟩ := fits.sending cmd sending
      exact ⟨sends, fun other member => absent other (entered other member)⟩
    · intro cmd awaiting
      obtain ⟨sends, bearing, _⟩ := fits.awaiting cmd awaiting
      exact ⟨sends, bearing, queued cmd awaiting⟩
  · obtain ⟨sends, bearing, _⟩ := fits.awaiting cmd awaiting
    refine ⟨?_, ?_, ?_⟩
    · intro other sending
      cases sending
    · intro other awaits
      cases awaits
    · intro other member
      have own := (fits.entered other (entered other member)).1
      obtain rfl : cmd = other := Option.some.inj (sends.symm.trans own)
      refine ⟨own, fun silent => ?_⟩
      rw [bearing] at silent
      cases silent

end Call.Fits

namespace Service

/-- The calls agree with the queue, whose numbers are distinct, and a task that has
ended leaves no queue. -/
structure Consistent (service : Service T) : Prop where
  fits : ∀ (number : Nat) (call : Call T), service.calls[number]? = some call →
    call.Fits service number
  made : ∀ entry ∈ service.entries, entry.1 < service.calls.length
  distinct : (service.entries.map Prod.fst).Nodup
  closed : service.ended.isSome = true → service.queue = []

variable [DecidableEq T]

/-- A spawned service has no call and no command. -/
theorem spawned_consistent : (spawned : Service T).Consistent := by
  refine ⟨?_, ?_, List.nodup_nil, fun _ => rfl⟩
  · intro number call found
    simp [spawned] at found
  · intro entry member
    simp [entries, spawned] at member

omit [DecidableEq T] in
/-- Calls keep their numbers when they are moved. -/
@[simp] theorem length_moveCalls (service : Service T) (move : Nat → CallPhase T → CallPhase T) :
    (service.moveCalls move).calls.length = service.calls.length :=
  List.length_mapIdx

omit [DecidableEq T] in
/-- A move of one active call away from the queue keeps the agreement. -/
theorem quiet_consistent {service after : Service T} (consistent : service.Consistent) (caller : Nat)
    (move : CallPhase T → CallPhase T) (queue : after.queue = service.queue)
    (processed : after.processed = service.processed) (ended : after.ended = service.ended)
    (calls : after.calls = (service.moveCall caller move).calls)
    (leaves : ∀ call, service.calls[caller]? = some call → call.phase.isActive = true ∧
      (∀ cmd, move call.phase ≠ .sending cmd) ∧ ∀ cmd, move call.phase ≠ .awaiting cmd) :
    after.Consistent := by
  have same : after.entries = service.entries := by rw [entries, queue, processed]; rfl
  refine ⟨?_, ?_, same ▸ consistent.distinct, ?_⟩
  · intro number call found
    rw [calls, get_moveCall] at found
    obtain ⟨before, earlier, rfl⟩ := Option.map_eq_some_iff.mp found
    have fits := consistent.fits number before earlier
    apply Call.Fits.congr _ queue processed
    by_cases here : number = caller
    · subst here
      obtain ⟨active, unsent, unanswered⟩ := leaves before earlier
      simpa using fits.leave active _ unsent unanswered
    · simpa [here] using fits
  · rw [same, calls, moveCall, length_moveCalls]
    exact consistent.made
  · rw [ended, queue]
    exact consistent.closed

omit [DecidableEq T] in
/-- A task that ends leaves the calls in agreement with an empty queue. -/
theorem terminate_consistent {service : Service T} (consistent : service.Consistent)
    (ending : Ending) : (service.terminate ending).Consistent := by
  have entered : ∀ entry ∈ (service.terminate ending).entries, entry ∈ service.entries := by
    intro entry member
    have recorded : entry ∈ service.processed := by
      simpa [entries, terminate, moveCalls] using member
    exact List.mem_append_left _ recorded
  refine ⟨?_, ?_, ?_, fun _ => rfl⟩
  · intro number call found
    simp only [terminate, get_moveCalls] at found
    obtain ⟨before, earlier, rfl⟩ := Option.map_eq_some_iff.mp found
    have fits := consistent.fits number before earlier
    refine fits.settle ?_ (fun cmd => entered (number, cmd)) ?_
    · split
      · rcases before.phase.dropped_cases with same | ⟨cmd, awaiting, returned⟩
        · exact Or.inl same
        · exact Or.inr ⟨cmd, _, awaiting, returned⟩
      · exact Or.inl rfl
    · intro cmd awaiting
      -- What a call awaits is in the queue, so the call was dropped with it.
      exfalso
      split at awaiting
      · rcases before.phase.dropped_cases with same | ⟨other, _, returned⟩
        · rw [same] at awaiting
          simp [CallPhase.dropped, awaiting] at same
        · rw [returned] at awaiting
          cases awaiting
      case isFalse absent =>
        obtain ⟨_, _, queued⟩ := fits.awaiting cmd awaiting
        exact absent (List.mem_map.mpr ⟨(number, cmd), queued, rfl⟩)
  · intro entry member
    simpa [terminate] using consistent.made entry (entered entry member)
  · have apart := consistent.distinct
    rw [entries, List.map_append] at apart
    simpa [entries, terminate, moveCalls] using (List.nodup_append.mp apart).1

/-- A new call keeps the agreement: its command has not entered. -/
theorem call_consistent {service : Service T} (consistent : service.Consistent)
    (method : Method T) : (service.step (.call method)).Consistent := by
  refine ⟨?_, ?_, consistent.distinct, consistent.closed⟩
  · intro number call found
    rcases get_step_cases service _ number found with ⟨made, same, rfl, rfl⟩ | ⟨before, earlier, rfl⟩
    · have absent : ∀ cmd, (service.calls.length, cmd) ∉ service.entries := by
        intro cmd member
        have bounded := consistent.made _ member
        omega
      refine ⟨?_, ?_, ?_⟩
      · intro cmd sending
        exact ⟨made.sends_of_start cmd sending, absent⟩
      · intro cmd awaiting
        exact absurd awaiting (made.start_not_awaiting cmd)
      · intro cmd member
        exact absurd member (absent cmd)
    · exact (consistent.fits number before earlier).congr rfl rfl
  · intro entry member
    have bounded := consistent.made entry member
    simp only [step, List.length_append, List.length_singleton]
    omega

/-- A command that enters the queue is its call's, and the call awaits the reply or
has returned. -/
theorem send_consistent {service : Service T} (consistent : service.Consistent) (caller : Nat)
    (cmd : Command T) (here : service.phase caller = some (.sending cmd))
    (running : service.ended = none) : (service.step (.send caller)).Consistent := by
  obtain ⟨call, found, sending⟩ := Option.map_eq_some_iff.mp here
  have absent := ((consistent.fits caller call found).sending cmd sending).2
  have stepped : service.step (.send caller) =
      (service.enqueue caller cmd).moveCall caller CallPhase.sent := by simp [step, here]
  rw [stepped]
  have grown : ((service.enqueue caller cmd).moveCall caller CallPhase.sent).entries =
      service.entries ++ [(caller, cmd)] := (List.append_assoc _ _ _).symm
  refine ⟨?_, ?_, ?_, ?_⟩
  · intro number after reached
    rw [get_moveCall] at reached
    obtain ⟨before, earlier, rfl⟩ := Option.map_eq_some_iff.mp reached
    have fits := consistent.fits number before earlier
    by_cases same : number = caller
    · subst same
      obtain rfl : call = before := Option.some.inj (found.symm.trans earlier)
      have agreed : ({ call with phase := call.phase.sent } : Call T).Fits
          ((service.enqueue number cmd).moveCall number CallPhase.sent) number :=
        fits.enter sending rfl rfl
      simpa using agreed
    · have agreed : before.Fits
          ((service.enqueue caller cmd).moveCall caller CallPhase.sent) number :=
        fits.grow same rfl rfl
      simpa [same] using agreed
  · intro entry member
    rw [moveCall, length_moveCalls]
    rw [grown] at member
    rcases List.mem_append.mp member with earlier | last
    · exact consistent.made entry earlier
    · obtain rfl := List.mem_singleton.mp last
      exact (List.getElem?_eq_some_iff.mp found).1
  · rw [grown, List.map_append, List.nodup_append]
    refine ⟨consistent.distinct, List.nodup_singleton _, ?_⟩
    rintro number member other last rfl
    obtain ⟨⟨_, sent⟩, entered, rfl⟩ := List.mem_map.mp member
    obtain rfl := List.mem_singleton.mp last
    exact absent sent entered
  · intro hasEnded
    have ended : service.ended.isSome = true := hasEnded
    simp [running] at ended

omit [DecidableEq T] in
/-- A processed command is recorded, and its call does not await a reply any more. -/
theorem complete_consistent {service : Service T} (consistent : service.Consistent) (caller : Nat)
    (cmd : Command T) (rest : List (Nat × Command T)) (first : service.queue = (caller, cmd) :: rest)
    (after : SchedulerActor T) (reply : Option (Reply T)) :
    (service.complete caller cmd rest after reply).Consistent := by
  have same : (service.complete caller cmd rest after reply).entries = service.entries := by
    simp [entries, complete, first]
  refine ⟨?_, ?_, same ▸ consistent.distinct, ?_⟩
  · intro number call found
    simp only [complete, get_moveCall] at found
    obtain ⟨before, earlier, rfl⟩ := Option.map_eq_some_iff.mp found
    have fits := consistent.fits number before earlier
    refine fits.settle ?_ (fun cmd member => same ▸ member) ?_
    · split
      · rcases before.phase.answered_cases reply with kept | ⟨other, awaiting, returned⟩
        · exact Or.inl kept
        · exact Or.inr ⟨other, _, awaiting, returned⟩
      · exact Or.inl rfl
    · intro other awaiting
      -- The call answered is the first of the queue; the others await the rest.
      split at awaiting
      · exfalso
        rcases before.phase.answered_cases reply with kept | ⟨_, _, returned⟩
        · rw [kept] at awaiting
          simp [CallPhase.answered, awaiting] at kept
        · rw [returned] at awaiting
          cases awaiting
      case isFalse apart =>
        have queued := (fits.awaiting other awaiting).2.2
        rw [first] at queued
        rcases List.mem_cons.mp queued with head | later
        · exact absurd (Prod.mk.inj head).1 apart
        · exact later
  · intro entry member
    rw [same] at member
    simpa [complete, moveCall] using consistent.made entry member
  · intro hasEnded
    have emptied := consistent.closed hasEnded
    rw [first] at emptied
    cases emptied

/-- Every enabled action keeps the calls in agreement with the queue. -/
theorem consistent_step {bufferSize : Nat} (service : Service T) (action : Action T)
    (consistent : service.Consistent) (taken : service.enabled bufferSize action = true) :
    (service.step action).Consistent := by
  cases action with
  | call method => exact call_consistent consistent method
  | send caller =>
    simp only [enabled] at taken
    split at taken
    case h_1 cmd here =>
      have running : service.ended = none := by simpa using (Bool.and_eq_true_iff.mp taken).1
      exact send_consistent consistent caller cmd here running
    case h_2 => cases taken
  | process readings =>
    simp only [step]
    split
    · exact consistent
    case h_2 caller cmd rest first =>
      split
      · exact complete_consistent consistent caller cmd rest first _ _
      · exact terminate_consistent consistent .panicked
  | stop ending => exact terminate_consistent consistent ending
  | abort | release =>
    exact ⟨fun number call found => (consistent.fits number call found).congr rfl rfl,
      consistent.made, consistent.distinct, consistent.closed⟩
  | refuse caller =>
    refine quiet_consistent consistent caller CallPhase.refused rfl rfl rfl rfl ?_
    intro call found
    simp only [enabled, phase, found, Option.map_some] at taken
    cases here : call.phase with
    | sending cmd => simp [CallPhase.refused, CallPhase.isActive]
    | _ => simp [here] at taken
  | cancel caller =>
    refine quiet_consistent consistent caller (fun _ => .taking) rfl rfl rfl rfl ?_
    intro call found
    simp only [enabled, phase, found, Option.map_some] at taken
    cases here : call.phase with
    | cancelling => simp [CallPhase.isActive]
    | _ => simp [here] at taken
  | take caller =>
    refine quiet_consistent consistent caller (CallPhase.took service.handle) rfl rfl rfl rfl ?_
    intro call found
    simp only [enabled, phase, found, Option.map_some] at taken
    cases here : call.phase with
    | taking => cases service.handle <;> simp [CallPhase.took, CallPhase.isActive]
    | _ => simp [here] at taken
  | join caller =>
    cases hasEnded : service.ended with
    | none => simpa [step, hasEnded] using consistent
    | some ending =>
      have stepped : service.step (.join caller) =
          service.moveCall caller fun _ => .returned (.joined ending.result) := by
        simp [step, hasEnded]
      rw [stepped]
      refine quiet_consistent consistent caller _ rfl rfl rfl rfl ?_
      intro call found
      simp only [enabled, phase, found, Option.map_some] at taken
      cases here : call.phase with
      | joining => simp [CallPhase.isActive]
      | _ => simp [here] at taken
  | abandon caller =>
    refine quiet_consistent consistent caller (fun _ => .abandoned) rfl rfl rfl rfl ?_
    intro call found
    simp only [enabled, phase, found, Option.map_some] at taken
    exact ⟨taken, by simp, by simp⟩

/-- Once the task has ended no call awaits a reply: every reply channel has
resolved, with a value or closed. -/
theorem none_left_awaiting {bufferSize : Nat} (actions : List (Action T))
    (taken : Interleaving bufferSize actions)
    (hasEnded : (actions.foldl step spawned).ended.isSome = true) (number : Nat) (call : Call T)
    (found : (actions.foldl step spawned).calls[number]? = some call) (cmd : Command T) :
    call.phase ≠ .awaiting cmd := by
  have consistent : (actions.foldl step spawned).Consistent :=
    Runs.invariant_after consistent_step spawned_consistent taken
  intro awaiting
  have queued := ((consistent.fits number call found).awaiting cmd awaiting).2.2
  rw [consistent.closed hasEnded] at queued
  cases queued

/-- The state of the actor is that of a run of the handler on the commands recorded,
whatever the clients sent and however the task ended. -/
theorem processed_run (actions : List (Action T)) :
    ∃ history : List (Input T),
      history.map Input.command = (actions.foldl step spawned).processed.map Prod.snd ∧
        (actions.foldl step spawned).actor = SchedulerActor.empty.run history := by
  refine @Runs.always_after _ _ step (fun service => ∃ history : List (Input T),
    history.map Input.command = service.processed.map Prod.snd ∧
      service.actor = SchedulerActor.empty.run history) ?_ spawned ⟨[], rfl, rfl⟩ actions
  rintro service action ⟨history, commands, same⟩
  cases action with
  | process readings =>
    simp only [step]
    split
    · exact ⟨history, commands, same⟩
    case h_2 caller cmd rest _ =>
      split
      case h_1 after reply handled =>
        refine ⟨history ++ [⟨cmd, readings⟩], by simp [complete, commands], ?_⟩
        have handler := SchedulerActor.send_or_panic_ok service.actor cmd readings handled
        rw [SchedulerActor.run_append, ← same]
        exact congrArg Prod.fst handler
      case h_2 => exact ⟨history, commands, same⟩
  | send caller => simp only [step]; split <;> exact ⟨history, commands, same⟩
  | join caller => simp only [step]; split <;> exact ⟨history, commands, same⟩
  | _ => exact ⟨history, commands, same⟩

/-- Clients send issued commands only, the stored specifications are valid, and the
task has not panicked. -/
structure Calm (service : Service T) : Prop where
  consistent : service.Consistent
  issued : ∀ (number : Nat) (call : Call T), service.calls[number]? = some call →
    ∀ cmd, call.method.sends = some cmd → Issued cmd
  stored : service.actor.StoresValid
  alive : service.ended ≠ some .panicked

/-- The action calls a method of `WithScheduler`, or one that sends no specification. -/
def CallsIssued (action : Action T) : Prop :=
  ∀ method cmd, action = .call method → method.sends = some cmd → Issued cmd

/-- What the first command of the queue leaves of a calm service: it is issued, so
that no draw panics, and it brings in valid specifications only. -/
theorem calm_received {service : Service T} (calm : service.Calm) {caller : Nat} {cmd : Command T}
    {rest : List (Nat × Command T)} (first : service.queue = (caller, cmd) :: rest)
    (readings : T → Reading) :
    service.actor.sendOrPanic cmd readings = .ok (service.actor.send cmd readings) ∧
      (service.actor.send cmd readings).1.StoresValid := by
  have entered : (caller, cmd) ∈ service.entries :=
    List.mem_append_right _ (first ▸ List.mem_cons_self)
  obtain ⟨call, found⟩ : ∃ call, service.calls[caller]? = some call :=
    ⟨_, List.getElem?_eq_getElem (calm.consistent.made _ entered)⟩
  have sends := ((calm.consistent.fits caller call found).entered cmd entered).1
  have valid := (calm.issued caller call found cmd sends).valid
  exact ⟨SchedulerActor.send_or_panic_valid service.actor cmd readings calm.stored valid,
    SchedulerActor.stores_valid_step service.actor ⟨cmd, readings⟩ calm.stored valid⟩

/-- An enabled action with issued commands keeps a service calm. -/
theorem calm_step {bufferSize : Nat} (service : Service T) (action : Action T) (calm : service.Calm)
    (admitted : service.enabled bufferSize action = true ∧ CallsIssued action) :
    (service.step action).Calm := by
  obtain ⟨taken, calls⟩ := admitted
  refine ⟨consistent_step service action calm.consistent taken, ?_, ?_, ?_⟩
  · intro number after found cmd sends
    rcases get_step_cases service action number found with
      ⟨method, made, _, rfl⟩ | ⟨before, earlier, rfl⟩
    · exact calls method cmd made sends
    · exact calm.issued number before earlier cmd sends
  · cases action with
    | send caller => simp only [step]; split <;> exact calm.stored
    | join caller => simp only [step]; split <;> exact calm.stored
    | process readings =>
      cases first : service.queue with
      | nil => simpa [step, first] using calm.stored
      | cons head rest =>
        obtain ⟨caller, cmd⟩ := head
        obtain ⟨processed, stored⟩ := calm_received calm first readings
        simpa [step, first, processed, complete] using stored
    | _ => exact calm.stored
  · cases action with
    | send caller => simp only [step]; split <;> exact calm.alive
    | join caller => simp only [step]; split <;> exact calm.alive
    | process readings =>
      cases first : service.queue with
      | nil => simpa [step, first] using calm.alive
      | cons head rest =>
        obtain ⟨caller, cmd⟩ := head
        obtain ⟨processed, _⟩ := calm_received calm first readings
        simpa [step, first, processed, complete, moveCall, moveCalls] using calm.alive
    | stop ending =>
      cases ending with
      | panicked => cases taken
      | finished => simp [step, terminate]
      | aborted => simp [step, terminate]
    | _ => exact calm.alive

/-- While clients send issued commands only, the task never panics, whatever else
happens to it. -/
theorem issued_never_panics {bufferSize : Nat} (actions : List (Action T))
    (taken : Interleaving bufferSize actions) (issued : ∀ action ∈ actions, CallsIssued action) :
    (actions.foldl step spawned).ended ≠ some .panicked := by
  have admitted := taken.and (Runs.along_of_forall spawned fun action member _ => issued action member)
  have initial : (spawned : Service T).Calm := by
    refine ⟨spawned_consistent, ?_, SchedulerActor.empty_stores_valid, by simp [spawned]⟩
    intro number call found
    simp [spawned] at found
  exact (Runs.invariant_after calm_step initial admitted).alive

end Service

end Ritualist
