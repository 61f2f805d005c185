import Ritualist.Requests

/-!
# What a caller learns of its request

The end of the task drops the queue, and a command sent afterwards is refused. The
caller learns of either only where the method looks: registrations unwrap the
closed reply channel and panic, `claim_due` and `snapshot` return a default, and
the methods without a reply, among them the resets, return as if their command
had been taken.

`registrations_served_iff` says that a call panics exactly when a registration is
discarded while its caller waits, and `resets_applied_iff` that an acknowledged
reset is lost exactly when a reset is discarded.
-/

namespace Ritualist

universe u
variable {T : Type u}

/-- A call begins without a value, and without a panic. -/
theorem start_without_outcome (method : Method T) :
    method.start.hasValue = false ∧ method.start.hasPanicked = false := by
  cases method with
  | request asked =>
    cases validated : asked.command <;>
      simp [Method.start, validated, CallPhase.hasValue, CallPhase.hasPanicked]
  | _ => exact ⟨rfl, rfl⟩

/-- A reset sends a command without a reply. -/
theorem reset_without_reply (method : Method T) (cmd : Command T) (resets : method.isReset = true)
    (sends : method.sends = some cmd) : cmd.hasReply = false := by
  cases method with
  | request asked =>
    have accepted : asked.command = .ok cmd := by
      cases checked : asked.command <;> simp_all [Method.sends, Except.toOption]
    obtain ⟨rfl, _⟩ := (request_sent_iff asked cmd).mp accepted
    cases asked with
    | reset spec | resetMany specs => rfl
    | _ => cases resets
  | _ => cases resets

namespace Service

variable [DecidableEq T]

/-- The caller of a number waits to send, or for its reply. -/
def isWaiting (service : Service T) (number : Nat) : Bool :=
  (service.phase number).any CallPhase.isWaiting

/-- The call of a number is a reset of a client. -/
def isReset (service : Service T) (number : Nat) : Bool :=
  service.calls[number]?.any fun call => call.method.isReset

/-- No call has panicked. -/
def NoPanic (service : Service T) : Prop :=
  ∀ (number : Nat) (call : Call T), service.calls[number]? = some call →
    call.phase.hasPanicked = false

/-- No registration is discarded whose caller still waits. -/
def servesRegistrations (service : Service T) (action : Action T) : Bool :=
  (service.discarded action).all fun entry =>
    !(entry.2.isRegistration && service.isWaiting entry.1)

/-- Every reset that has been acknowledged is in the queue of a running task, or
has been processed. -/
def ResetsApplied (service : Service T) : Prop :=
  ∀ (number : Nat) (call : Call T), service.calls[number]? = some call →
    call.method.isReset = true → call.phase.hasValue = true →
      ∃ cmd, call.method.sends = some cmd ∧
        (service.ended = none ∧ (number, cmd) ∈ service.queue ∨ (number, cmd) ∈ service.processed)

/-- No reset is discarded. -/
def keepsResets (service : Service T) (action : Action T) : Bool :=
  (service.discarded action).all fun entry => !service.isReset entry.1

omit [DecidableEq T] in
/-- A waiting caller is that of a call. -/
theorem waiting_call (service : Service T) (number : Nat) (waits : service.isWaiting number = true) :
    ∃ call, service.calls[number]? = some call ∧ call.phase.isWaiting = true := by
  cases found : service.calls[number]? with
  | none => simp [isWaiting, phase, found] at waits
  | some call => exact ⟨call, rfl, by simpa [isWaiting, phase, found] using waits⟩

/-- A discarded command was refused to the call that sends it, or was in the queue
of a task that ends. -/
theorem discarded_cases (service : Service T) (action : Action T) (number : Nat) (cmd : Command T)
    (discards : (number, cmd) ∈ service.discarded action) :
    (action = .refuse number ∧ service.phase number = some (.sending cmd)) ∨
      ((number, cmd) ∈ service.queue ∧ ∃ ending, service.step action = service.terminate ending) := by
  cases action with
  | refuse caller =>
    simp only [discarded] at discards
    split at discards
    case h_1 sent here =>
      obtain ⟨rfl, rfl⟩ := Prod.mk.inj (List.mem_singleton.mp discards)
      exact Or.inl ⟨rfl, here⟩
    case h_2 => cases discards
  | process readings =>
    right
    cases first : service.queue with
    | nil => simp [discarded, first] at discards
    | cons head rest =>
      obtain ⟨caller, received⟩ := head
      cases outcome : service.actor.sendOrPanic received readings with
      | ok result => simp [discarded, first, outcome] at discards
      | error range =>
        simp only [discarded, first, outcome] at discards
        exact ⟨discards, .panicked, by simp [step, first, outcome]⟩
  | stop ending => exact Or.inr ⟨discards, ending, rfl⟩
  | _ => cases discards

omit [DecidableEq T] in
/-- A call that waits for a command in the queue waits for its own. -/
theorem awaits_own {service : Service T} (consistent : service.Consistent) {number : Nat}
    {call : Call T} (found : service.calls[number]? = some call) {cmd : Command T}
    (queued : (number, cmd) ∈ service.queue) (waits : call.phase.isWaiting = true) :
    call.phase = .awaiting cmd := by
  have fits := consistent.fits number call found
  have entered : (number, cmd) ∈ service.entries := List.mem_append_right _ queued
  cases here : call.phase with
  | sending sent => exact absurd entered ((fits.sending sent here).2 cmd)
  | awaiting awaited =>
    have same : some awaited = some cmd :=
      (fits.awaiting awaited here).1.symm.trans (fits.entered cmd entered).1
    rw [Option.some.inj same]
  | _ => simp [here, CallPhase.isWaiting] at waits

/-- A waiting caller whose command is discarded gets no answer. -/
theorem discarded_unanswered {service : Service T} (consistent : service.Consistent)
    (action : Action T) {number : Nat} {cmd : Command T} {call : Call T}
    (discards : (number, cmd) ∈ service.discarded action)
    (found : service.calls[number]? = some call) (waits : call.phase.isWaiting = true) :
    (service.step action).calls[number]? =
      some { call with phase := .returned cmd.unanswered } := by
  rcases discarded_cases service action number cmd discards with
    ⟨rfl, here⟩ | ⟨queued, ending, ends⟩
  · have sending : call.phase = .sending cmd := by simpa [phase, found] using here
    rw [get_step service _ number found]
    simp [callMove, sending, CallPhase.refused]
  · have awaiting := awaits_own consistent found queued waits
    have member : number ∈ service.queue.map Prod.fst := List.mem_map.mpr ⟨_, queued, rfl⟩
    rw [ends, terminate, get_moveCalls, found]
    simp only [Option.map_some, member, if_true, awaiting, CallPhase.dropped]

/-- An action that leaves a call with a value or a panic found it so, or took its
command without a reply, or answered it, or discarded its command. -/
theorem outcome_cases {service : Service T} (consistent : service.Consistent) (action : Action T)
    {number : Nat} {call : Call T} (found : service.calls[number]? = some call)
    (ended : (service.callMove action number call.phase).hasValue = true ∨
      (service.callMove action number call.phase).hasPanicked = true) :
    service.callMove action number call.phase = call.phase ∨
      (∃ cmd, action = .send number ∧ call.phase = .sending cmd ∧
        service.callMove action number call.phase = .returned (.value none)) ∨
      (∃ cmd reply, call.phase = .awaiting cmd ∧
        service.callMove action number call.phase = .returned (.value reply)) ∨
      ∃ cmd, (number, cmd) ∈ service.discarded action ∧ call.phase.isWaiting = true ∧
        service.callMove action number call.phase = .returned cmd.unanswered := by
  have move := moves service action number call.phase
  generalize service.callMove action number call.phase = after at move ended ⊢
  cases move with
  | stay => exact Or.inl rfl
  | send own =>
    rcases call.phase.sent_cases with same | ⟨cmd, sending, ⟨_, awaits⟩ | ⟨_, returned⟩⟩
    · exact Or.inl same
    · simp [awaits, CallPhase.hasValue, CallPhase.hasPanicked] at ended
    · exact Or.inr (Or.inl ⟨cmd, own, sending, returned⟩)
  | refuse own =>
    rcases call.phase.refused_cases with same | ⟨cmd, sending, returned⟩
    · exact Or.inl same
    · have place : service.phase number = some (.sending cmd) := by simp [phase, found, sending]
      have discards : (number, cmd) ∈ service.discarded action := by
        rw [own]
        simp [discarded, place]
      exact Or.inr (Or.inr (Or.inr ⟨cmd, discards, by rw [sending]; rfl, returned⟩))
  | answer reply =>
    rcases call.phase.answered_cases reply with same | ⟨cmd, awaiting, returned⟩
    · exact Or.inl same
    · exact Or.inr (Or.inr (Or.inl ⟨cmd, reply, awaiting, returned⟩))
  | drop all member =>
    rcases call.phase.dropped_cases with same | ⟨cmd, awaiting, returned⟩
    · exact Or.inl same
    · have queued := ((consistent.fits number call found).awaiting cmd awaiting).2.2
      exact Or.inr (Or.inr (Or.inr ⟨cmd, all ▸ queued, by rw [awaiting]; rfl, returned⟩))
  | take own =>
    rcases call.phase.took_cases service.handle with same | ⟨_, ⟨_, joins⟩ | ⟨_, returned⟩⟩
    · exact Or.inl same
    · simp [joins, CallPhase.hasValue, CallPhase.hasPanicked] at ended
    · simp [returned, CallPhase.hasValue, CallPhase.hasPanicked] at ended
  | cancel | join own ending hasEnded | abandon =>
    simp [CallPhase.hasValue, CallPhase.hasPanicked] at ended

omit [DecidableEq T] in
/-- An unanswered method panics exactly when it unwraps its reply. -/
theorem unanswered_panics_iff (cmd : Command T) :
    (CallPhase.returned cmd.unanswered).hasPanicked = true ↔ cmd.isRegistration = true := by
  cases cmd <;> simp [Command.unanswered, CallPhase.hasPanicked, Command.isRegistration]

/-- An action keeps all calls from panicking exactly when it discards no registration
whose caller waits. -/
theorem no_panic_step_iff (service : Service T) (action : Action T)
    (consistent : service.Consistent) (law : service.NoPanic) :
    (service.step action).NoPanic ↔ service.servesRegistrations action = true := by
  constructor
  · intro kept
    rw [servesRegistrations, List.all_eq_true]
    rintro ⟨number, cmd⟩ discards
    by_contra fails
    obtain ⟨registers, waits⟩ : cmd.isRegistration = true ∧ service.isWaiting number = true := by
      simpa using fails
    obtain ⟨call, found, waiting⟩ := waiting_call service number waits
    have unanswered := discarded_unanswered consistent action discards found waiting
    have panics := (unanswered_panics_iff cmd).mpr registers
    rw [kept number _ unanswered] at panics
    cases panics
  · intro serves number after found
    rcases get_step_cases service action number found with
      ⟨method, _, _, rfl⟩ | ⟨before, earlier, rfl⟩
    · exact (start_without_outcome method).2
    · by_contra fails
      have panics : (service.callMove action number before.phase).hasPanicked = true := by
        simpa using fails
      rcases outcome_cases consistent action earlier (Or.inr panics) with
        same | ⟨_, _, _, returned⟩ | ⟨_, _, _, returned⟩ | ⟨cmd, discards, waits, returned⟩
      · rw [same, law number before earlier] at panics
        cases panics
      · rw [returned] at panics
        cases panics
      · rw [returned] at panics
        cases panics
      · rw [returned] at panics
        have registers := (unanswered_panics_iff cmd).mp panics
        have served := List.all_eq_true.mp serves _ discards
        simp [registers, isWaiting, phase, earlier, waits] at served

/-- An action that discards nothing makes no call panic. -/
theorem no_panic_kept {bufferSize : Nat} {service : Service T} {action : Action T}
    (calm : service.Calm) (quiet : service.NoPanic)
    (taken : service.enabled bufferSize action = true) (issued : CallsIssued action)
    (kept : service.discarded action = []) :
    (service.step action).Calm ∧ (service.step action).NoPanic := by
  refine ⟨calm_step service action calm ⟨taken, issued⟩, ?_⟩
  rw [no_panic_step_iff service action calm.consistent quiet, servesRegistrations, kept]
  rfl

/-- Along an interleaving no call panics exactly when no registration is refused by
the closed queue, or dropped with it, while its caller waits. -/
theorem registrations_served_iff {bufferSize : Nat} (actions : List (Action T))
    (taken : Interleaving bufferSize actions) :
    Runs.Along step (fun service action => (service.step action).NoPanic) spawned actions ↔
      Runs.Along step (fun service action => service.servesRegistrations action = true)
        spawned actions := by
  refine Runs.stays_good_iff consistent_step ?_ spawned_consistent ?_ taken
  · intro service action consistent _ law
    exact no_panic_step_iff service action consistent law
  · intro number call found
    simp [spawned] at found

/-- After a shutdown has returned, a clone registers an activity: the closed queue
refuses the command, and the call unwraps its closed reply channel. -/
theorem registration_panics :
    Interleaving 1 ([.call .shutdown, .cancel 0, .take 0, .stop .finished, .join 0,
        .call (.command (.register ⟨1, .fixedInterval 60⟩)), .refuse 1] : List (Action Nat)) ∧
      ¬ Runs.Along step (fun service action => (service.step action).NoPanic)
        spawned ([.call .shutdown, .cancel 0, .take 0, .stop .finished, .join 0,
          .call (.command (.register ⟨1, .fixedInterval 60⟩)), .refuse 1] :
            List (Action Nat)) := by
  refine ⟨by decide, fun holds => ?_⟩
  rw [Runs.along_iff_split] at holds
  have refused := holds [.call .shutdown, .cancel 0, .take 0, .stop .finished, .join 0,
    .call (.command (.register ⟨1, .fixedInterval 60⟩))] (.refuse 1) [] rfl
  have calm := refused 1 ⟨.command (.register ⟨1, .fixedInterval 60⟩), .returned .panicked⟩ rfl
  cases calm

/-- A registration that is processed before the task ends, and a claim that is
dropped with the queue. -/
theorem claim_dropped_quietly :
    Runs.Along step (fun service action => (service.step action).NoPanic)
      spawned ([.call (.command (.register ⟨1, .fixedInterval 60⟩)), .send 0,
        .process fun _ => .least 0 0, .call (.command .claimDue), .send 1, .call .shutdown,
        .cancel 2, .stop .finished] : List (Action Nat)) := by
  have taken : Interleaving 1 ([.call (.command (.register ⟨1, .fixedInterval 60⟩)), .send 0,
      .process fun _ => .least 0 0, .call (.command .claimDue), .send 1, .call .shutdown,
      .cancel 2, .stop .finished] : List (Action Nat)) := by decide
  exact (registrations_served_iff _ taken).mpr (by decide)

/-- What has been processed stays recorded. -/
theorem processed_step (service : Service T) (action : Action T) {entry : Nat × Command T}
    (processed : entry ∈ service.processed) : entry ∈ (service.step action).processed := by
  cases action with
  | send caller => simp only [step]; split <;> exact processed
  | process readings =>
    simp only [step]
    split
    · exact processed
    · split
      · exact List.mem_append_left _ processed
      · exact processed
  | join caller => simp only [step]; split <;> exact processed
  | _ => exact processed

/-- A command in the queue of a running task stays there, is processed, or is
discarded. -/
theorem queued_step (service : Service T) (action : Action T) {entry : Nat × Command T}
    (running : service.ended = none) (queued : entry ∈ service.queue) :
    ((service.step action).ended = none ∧ entry ∈ (service.step action).queue) ∨
      entry ∈ (service.step action).processed ∨ entry ∈ service.discarded action := by
  cases action with
  | send caller =>
    left
    simp only [step]
    split
    · exact ⟨running, List.mem_append_left _ queued⟩
    · exact ⟨running, queued⟩
  | process readings =>
    cases first : service.queue with
    | nil => simp [first] at queued
    | cons head rest =>
      obtain ⟨caller, received⟩ := head
      cases outcome : service.actor.sendOrPanic received readings with
      | ok result =>
        rw [first] at queued
        rcases List.mem_cons.mp queued with rfl | later
        · right
          left
          simp [step, first, outcome, complete]
        · left
          simpa [step, first, outcome, complete, moveCall, moveCalls] using ⟨running, later⟩
      | error range =>
        right
        right
        simpa [discarded, first, outcome] using queued
  | stop ending => exact Or.inr (Or.inr queued)
  | join caller => exact Or.inl (by simp only [step]; split <;> exact ⟨running, queued⟩)
  | _ => exact Or.inl ⟨running, queued⟩

/-- A discarded reset has been acknowledged, and is neither queued nor recorded. -/
theorem discarded_reset_lost {service : Service T} (consistent : service.Consistent)
    (action : Action T) {number : Nat} {cmd : Command T} {call : Call T}
    (discards : (number, cmd) ∈ service.discarded action)
    (found : service.calls[number]? = some call) (resets : call.method.isReset = true) :
    (service.callMove action number call.phase).hasValue = true ∧
      (∀ other, (number, other) ∉ (service.step action).processed) ∧
        ((service.step action).ended = none →
          ∀ other, (number, other) ∉ (service.step action).queue) := by
  have fits := consistent.fits number call found
  rcases discarded_cases service action number cmd discards with
    ⟨rfl, here⟩ | ⟨queued, ending, ends⟩
  · have sending : call.phase = .sending cmd := by simpa [phase, found] using here
    obtain ⟨sends, absent⟩ := fits.sending cmd sending
    have silent := reset_without_reply call.method cmd resets sends
    refine ⟨?_, ?_, ?_⟩
    · cases cmd <;> simp_all [callMove, CallPhase.refused, Command.unanswered, CallPhase.hasValue,
        Command.hasReply]
    · exact fun other member => absent other (List.mem_append_left _ member)
    · exact fun _ other member => absent other (List.mem_append_right _ member)
  · have entered : (number, cmd) ∈ service.entries := List.mem_append_right _ queued
    obtain ⟨sends, acknowledged⟩ := fits.entered cmd entered
    have silent := reset_without_reply call.method cmd resets sends
    have returned := acknowledged silent
    have moved := get_step service action number found
    refine ⟨?_, ?_, ?_⟩
    · rw [ends, terminate, get_moveCalls, found] at moved
      have phases := congrArg Call.phase (Option.some.inj moved)
      dsimp only at phases
      rw [← phases]
      cases here : call.phase with
      | returned outcome => split <;> simpa [here, CallPhase.dropped] using returned
      | _ => simp [here, CallPhase.hasValue] at returned
    · intro other member
      have recorded : (number, other) ∈ service.processed := by
        simpa [ends, terminate, moveCalls] using member
      have apart := consistent.distinct
      rw [entries, List.map_append, List.nodup_append] at apart
      exact apart.2.2 number (List.mem_map.mpr ⟨_, recorded, rfl⟩) number
        (List.mem_map.mpr ⟨_, queued, rfl⟩) rfl
    · intro running
      rw [ends] at running
      cases running

/-- An enabled action keeps every acknowledged reset exactly when it discards none. -/
theorem resets_step_iff {bufferSize : Nat} (service : Service T) (action : Action T)
    (consistent : service.Consistent) (taken : service.enabled bufferSize action = true)
    (law : service.ResetsApplied) :
    (service.step action).ResetsApplied ↔ service.keepsResets action = true := by
  constructor
  · intro kept
    rw [keepsResets, List.all_eq_true]
    rintro ⟨number, cmd⟩ discards
    by_contra fails
    have resets : service.isReset number = true := by simpa using fails
    cases found : service.calls[number]? with
    | none => simp [isReset, found] at resets
    | some call =>
      have isReset : call.method.isReset = true := by simpa [Service.isReset, found] using resets
      obtain ⟨returned, unrecorded, unqueued⟩ :=
        discarded_reset_lost consistent action discards found isReset
      obtain ⟨other, _, ⟨running, queued⟩ | recorded⟩ :=
        kept number _ (get_step service action number found) isReset returned
      · exact unqueued running other queued
      · exact unrecorded other recorded
  · intro keeps number after found resets returned
    rcases get_step_cases service action number found with
      ⟨method, _, _, rfl⟩ | ⟨before, earlier, rfl⟩
    · rw [(start_without_outcome method).1] at returned
      cases returned
    · have unlost : ∀ cmd, (number, cmd) ∉ service.discarded action := by
        intro cmd discards
        have kept := List.all_eq_true.mp keeps _ discards
        simp [isReset, earlier, resets] at kept
      have fits := consistent.fits number before earlier
      rcases outcome_cases consistent action earlier (Or.inl returned) with
        same | ⟨cmd, rfl, sending, _⟩ | ⟨cmd, _, awaiting, _⟩ | ⟨cmd, discards, _, _⟩
      · rw [same] at returned
        obtain ⟨cmd, sends, ⟨running, queued⟩ | recorded⟩ := law number before earlier resets returned
        · refine ⟨cmd, sends, ?_⟩
          rcases queued_step service action running queued with stays | recorded | discards
          · exact Or.inl stays
          · exact Or.inr recorded
          · exact absurd discards (unlost cmd)
        · exact ⟨cmd, sends, Or.inr (processed_step service action recorded)⟩
      · have place : service.phase number = some (.sending cmd) := by simp [phase, earlier, sending]
        have running : service.ended = none := by
          simp only [enabled, place, Bool.and_eq_true] at taken
          simpa using taken.1
        refine ⟨cmd, (fits.sending cmd sending).1, Or.inl ⟨?_, ?_⟩⟩
        · simpa [step, place, enqueue, moveCall, moveCalls] using running
        · simp [step, place, enqueue, moveCall, moveCalls]
      · have bearing := (fits.awaiting cmd awaiting).2.1
        rw [reset_without_reply before.method cmd resets (fits.awaiting cmd awaiting).1] at bearing
        cases bearing
      · exact absurd discards (unlost cmd)

/-- Along an interleaving every acknowledged reset is in the queue of the running
task or has been processed, exactly when no reset is refused by the closed queue
or dropped with it. -/
theorem resets_applied_iff {bufferSize : Nat} (actions : List (Action T))
    (taken : Interleaving bufferSize actions) :
    Runs.Along step (fun service action => (service.step action).ResetsApplied) spawned actions ↔
      Runs.Along step (fun service action => service.keepsResets action = true)
        spawned actions := by
  refine Runs.stays_good_iff consistent_step ?_ spawned_consistent ?_ taken
  · intro service action consistent enabled law
    exact resets_step_iff service action consistent enabled law
  · intro number call found
    simp [spawned] at found

/-- A reset is sent and acknowledged, and the task sees the cancelled token before
it receives the command. -/
theorem acknowledged_reset_dropped :
    Interleaving 1 ([.call (.request (.reset ⟨1, .fixedInterval 60⟩)), .send 0, .call .shutdown,
        .cancel 1, .stop .finished] : List (Action Nat)) ∧
      ¬ Runs.Along step (fun service action => (service.step action).ResetsApplied)
        spawned ([.call (.request (.reset ⟨1, .fixedInterval 60⟩)), .send 0, .call .shutdown,
          .cancel 1, .stop .finished] : List (Action Nat)) := by
  refine ⟨by decide, fun holds => ?_⟩
  rw [Runs.along_iff_split] at holds
  have ends := holds [.call (.request (.reset ⟨1, .fixedInterval 60⟩)), .send 0, .call .shutdown,
    .cancel 1] (.stop .finished) [] rfl
  obtain ⟨cmd, _, ⟨running, _⟩ | recorded⟩ :=
    ends 0 ⟨.request (.reset ⟨1, .fixedInterval 60⟩), .returned (.value none)⟩ rfl rfl rfl
  · cases running
  · cases recorded

/-- A reset that is processed before the task ends. -/
theorem reset_applied_in_time :
    Runs.Along step (fun service action => (service.step action).ResetsApplied)
      spawned ([.call (.request (.reset ⟨1, .fixedInterval 60⟩)), .send 0, .call .shutdown,
        .cancel 1, .process fun _ => .least 0 0, .stop .finished] : List (Action Nat)) := by
  have taken : Interleaving 1 ([.call (.request (.reset ⟨1, .fixedInterval 60⟩)), .send 0,
      .call .shutdown, .cancel 1, .process fun _ => .least 0 0, .stop .finished] :
        List (Action Nat)) := by decide
  exact (resets_applied_iff _ taken).mpr (by decide)

end Service

end Ritualist
