import Ritualist.Service

/-!
# Shutdown and the shared join handle

A shutdown cancels the token, takes the join handle out of the slot that all
clones share, and awaits it. The first call to take the handle returns when the
task has ended. A call that finds the slot empty awaits nothing: it returns `Ok`
at once, although the task may not yet have seen the token and may still process
what is in its queue. So does a shutdown after an abort.

`shutdown_stops_iff` says that this is the only way: `Ok` means that the task
has ended along an interleaving exactly when every call that takes finds the
handle, or finds the task ended.
-/

namespace Ritualist

universe u
variable {T : Type u}

/-- No call has shut anything down when it begins. -/
theorem start_not_shut_down (method : Method T) : method.start.hasShutDown = false := by
  cases method with
  | request asked =>
    cases validated : asked.command <;> simp [Method.start, validated, CallPhase.hasShutDown]
  | _ => rfl

namespace CallPhase

/-- Only a shutdown's own moves can shut it down. -/
theorem shut_down_kept (phase : CallPhase T) :
    phase.sent.hasShutDown = phase.hasShutDown ∧
      phase.refused.hasShutDown = phase.hasShutDown ∧
      (∀ reply, (phase.answered reply).hasShutDown = phase.hasShutDown) ∧
      phase.dropped.hasShutDown = phase.hasShutDown := by
  cases phase with
  | sending cmd => cases cmd <;> exact ⟨rfl, rfl, fun _ => rfl, rfl⟩
  | awaiting cmd => cases cmd <;> exact ⟨rfl, rfl, fun _ => rfl, rfl⟩
  | _ => exact ⟨rfl, rfl, fun _ => rfl, rfl⟩

end CallPhase

namespace Service

variable [DecidableEq T]

/-- Once a shutdown has returned `Ok`, the task has ended, and no command can be
processed. -/
def ShutdownMeansStopped (service : Service T) : Prop :=
  ∀ (number : Nat) (call : Call T), service.calls[number]? = some call → call.phase.hasShutDown = true →
    service.ended.isSome = true ∧
      ∀ bufferSize readings, service.enabled bufferSize (.process readings) = false

/-- A call that takes the handle finds it, or finds the task ended. -/
def findsHandle (service : Service T) : Action T → Bool
  | .take _ => service.handle || service.ended.isSome
  | _ => true

/-- A task that has ended stays ended. -/
theorem ended_step (service : Service T) (action : Action T) (hasEnded : service.ended.isSome = true) :
    (service.step action).ended.isSome = true := by
  cases action with
  | send caller => simp only [step]; split <;> exact hasEnded
  | process readings =>
    simp only [step]
    split
    · exact hasEnded
    · split
      · exact hasEnded
      · rfl
  | stop ending => rfl
  | join caller => simp only [step]; split <;> exact hasEnded
  | _ => exact hasEnded

omit [DecidableEq T] in
/-- A command waits for a task that has not ended, and for no other. -/
theorem ended_not_processing (service : Service T) (hasEnded : service.ended.isSome = true)
    (bufferSize : Nat) (readings : T → Reading) :
    service.enabled bufferSize (.process readings) = false := by
  have started : service.ended.isNone = false := by
    cases ending : service.ended <;> simp_all
  simp [enabled, started]

/-- A call has shut down by its own move only: by taking from an empty slot, or
by joining an ended task. -/
theorem shut_down_move (service : Service T) (action : Action T) (number : Nat)
    (phase : CallPhase T)
    (shutDown : (service.callMove action number phase).hasShutDown = true) :
    phase.hasShutDown = true ∨ (action = .take number ∧ service.handle = false) ∨
      (action = .join number ∧ service.ended.isSome = true) := by
  have move := moves service action number phase
  generalize service.callMove action number phase = after at move shutDown
  obtain ⟨sent, refused, answered, dropped⟩ := phase.shut_down_kept
  cases move with
  | stay => exact Or.inl shutDown
  | send own => exact Or.inl (sent ▸ shutDown)
  | refuse own => exact Or.inl (refused ▸ shutDown)
  | answer reply => exact Or.inl (answered reply ▸ shutDown)
  | drop all member => exact Or.inl (dropped ▸ shutDown)
  | cancel => cases shutDown
  | take own =>
    rcases phase.took_cases service.handle with same | ⟨_, ⟨_, joins⟩ | ⟨absent, _⟩⟩
    · exact Or.inl (same ▸ shutDown)
    · rw [joins] at shutDown
      cases shutDown
    · exact Or.inr (Or.inl ⟨own, absent⟩)
  | join own ending hasEnded => exact Or.inr (Or.inr ⟨own, by rw [hasEnded]; rfl⟩)
  | abandon => cases shutDown

/-- An enabled action keeps the law exactly when it does not take from an empty
slot while the task runs. -/
theorem shutdown_step_iff {bufferSize : Nat} (service : Service T) (action : Action T)
    (taken : service.enabled bufferSize action = true) (law : service.ShutdownMeansStopped) :
    (service.step action).ShutdownMeansStopped ↔ service.findsHandle action = true := by
  constructor
  · intro kept
    cases action with
    | take caller =>
      simp only [enabled] at taken
      split at taken
      case h_1 here =>
        obtain ⟨call, found, taking⟩ := Option.map_eq_some_iff.mp here
        have moved := get_step service (.take caller) caller found
        cases present : service.handle with
        | true => simp [findsHandle, present]
        | false =>
          have hasEnded := (kept caller _ moved (by
            simp [callMove, taking, CallPhase.took, present, CallPhase.hasShutDown])).1
          simpa [findsHandle, present, step, moveCall, moveCalls] using hasEnded
      case h_2 => cases taken
    | _ => rfl
  · intro finds number after found shutDown
    have hasEnded : service.ended.isSome = true := by
      rcases get_step_cases service action number found with
        ⟨method, _, _, rfl⟩ | ⟨before, earlier, rfl⟩
      · rw [start_not_shut_down] at shutDown
        cases shutDown
      · rcases shut_down_move service action number before.phase shutDown with
          already | ⟨rfl, absent⟩ | ⟨_, hasEnded⟩
        · exact (law number before earlier already).1
        · simpa [findsHandle, absent] using finds
        · exact hasEnded
    have stays := ended_step service action hasEnded
    exact ⟨stays, ended_not_processing _ stays⟩

/-- Along an interleaving, `Ok` from a shutdown means that the task has ended and
processes nothing more, exactly when every call that takes the join handle finds
it, or finds the task ended. -/
theorem shutdown_stops_iff {bufferSize : Nat} (actions : List (Action T))
    (taken : Interleaving bufferSize actions) :
    Runs.Along step (fun service action => (service.step action).ShutdownMeansStopped)
        spawned actions ↔
      Runs.Along step (fun service action => service.findsHandle action = true)
        spawned actions := by
  refine Runs.stays_good_iff (fun _ _ (always : True) _ => always) ?_ trivial ?_ taken
  · intro service action _ enabled law
    exact shutdown_step_iff service action enabled law
  · intro number call found
    simp [spawned] at found

/-- Two clones shut down while a tick is queued. The second finds the slot empty
and returns `Ok`, and the task then takes the tick before it sees the token. -/
theorem second_shutdown_returns_early :
    Interleaving 1 ([.call (.command .tick), .send 0, .call .shutdown, .call .shutdown,
        .cancel 1, .take 1, .cancel 2, .take 2, .process fun _ => .least 0 0] :
          List (Action Nat)) ∧
      ¬ Runs.Along step (fun service action => (service.step action).ShutdownMeansStopped)
        spawned ([.call (.command .tick), .send 0, .call .shutdown, .call .shutdown,
          .cancel 1, .take 1, .cancel 2, .take 2, .process fun _ => .least 0 0] :
            List (Action Nat)) := by
  refine ⟨by decide, fun holds => ?_⟩
  rw [Runs.along_iff_split] at holds
  have early := holds [.call (.command .tick), .send 0, .call .shutdown, .call .shutdown,
    .cancel 1, .take 1, .cancel 2] (.take 2) [.process fun _ => .least 0 0] rfl
  have hasEnded := (early 2 ⟨.shutdown, .returned (.joined (.ok ()))⟩ rfl rfl).1
  cases hasEnded

/-- Two clones shut down in turn: the first joins the task, and the second finds
it ended. -/
theorem shutdowns_in_turn :
    Runs.Along step (fun service action => (service.step action).ShutdownMeansStopped)
      spawned ([.call .shutdown, .cancel 0, .take 0, .stop .finished, .join 0,
        .call .shutdown, .cancel 1, .take 1] : List (Action Nat)) := by
  have taken : Interleaving 1 ([.call .shutdown, .cancel 0, .take 0, .stop .finished, .join 0,
      .call .shutdown, .cancel 1, .take 1] : List (Action Nat)) := by decide
  exact (shutdown_stops_iff _ taken).mpr (by decide)

end Service

end Ritualist
