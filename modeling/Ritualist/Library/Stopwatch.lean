import Mathlib.Data.Nat.Notation

/-!
# A stopwatch that is read at laps

A stopwatch runs from its start and can be paused and resumed at any moment.
Beside the time it has run stands a meter that looks at it at laps only: it
counts the whole window since the previous lap if the watch runs at the lap, and
none of it if the watch is paused there.

The meter is wrong in two ways. It counts paused time in windows that end
running, and it leaves out running time in windows that end paused. The two are
recorded apart, and the meter exceeds the time run exactly when the first
outweighs the second: `counted_le_iff`.
-/

/-- What happens to a stopwatch at a moment. -/
inductive Signal where
  | lap
  | pause
  | resume
  | pass
  deriving DecidableEq, Repr

/-- A stopwatch and its meter. -/
structure Stopwatch where
  paused : Bool
  /-- The moment of the latest signal. -/
  moment : ℕ
  /-- The time the watch has run, up to `moment`. -/
  running : ℕ
  /-- The moment of the latest lap, or of the start. -/
  lastLap : ℕ
  /-- The time the watch had run at the latest lap. -/
  runningAtLap : ℕ
  /-- What the meter shows. -/
  counted : ℕ
  /-- Paused time in windows that ended running. -/
  overcounted : ℕ
  /-- Running time in windows that ended paused. -/
  skipped : ℕ
  deriving DecidableEq, Repr

namespace Stopwatch

/-- A stopwatch started at a moment. -/
def start (moment : ℕ) : Stopwatch := ⟨false, moment, 0, moment, 0, 0, 0, 0⟩

/-- Let time pass until a moment. -/
def elapse (watch : Stopwatch) (now : ℕ) : Stopwatch :=
  { watch with
    moment := now
    running := watch.running + if watch.paused then 0 else now - watch.moment }

/-- End a window at the present moment. -/
def lap (watch : Stopwatch) : Stopwatch :=
  let window := watch.moment - watch.lastLap
  let ran := watch.running - watch.runningAtLap
  { watch with
    lastLap := watch.moment
    runningAtLap := watch.running
    counted := watch.counted + if watch.paused then 0 else window
    overcounted := watch.overcounted + if watch.paused then 0 else window - ran
    skipped := watch.skipped + if watch.paused then ran else 0 }

/-- The stopwatch after a signal at a moment. -/
def signal (watch : Stopwatch) (now : ℕ) : Signal → Stopwatch
  | .lap => (watch.elapse now).lap
  | .pause => { watch.elapse now with paused := true }
  | .resume => { watch.elapse now with paused := false }
  | .pass => watch.elapse now

@[simp] theorem signal_moment (watch : Stopwatch) (now : ℕ) (signal : Signal) :
    (watch.signal now signal).moment = now := by
  cases signal <;> rfl

/-- A lap counts the window that it ends when the watch runs. -/
theorem lap_counted (watch : Stopwatch) (now : ℕ) :
    (watch.signal now .lap).counted =
      watch.counted + if watch.paused then 0 else now - watch.lastLap := rfl

/-- A signal never takes back time run. -/
theorem running_mono (watch : Stopwatch) (now : ℕ) (signal : Signal) :
    watch.running ≤ (watch.signal now signal).running := by
  have elapsed : watch.running ≤ (watch.elapse now).running := Nat.le_add_right _ _
  cases signal <;> exact elapsed

/-- Only a lap changes the meter and what it has wrong. -/
theorem signal_between (watch : Stopwatch) (now : ℕ) (signal : Signal) (between : signal ≠ .lap) :
    (watch.signal now signal).counted = watch.counted ∧
      (watch.signal now signal).lastLap = watch.lastLap ∧
      (watch.signal now signal).overcounted = watch.overcounted ∧
      (watch.signal now signal).skipped = watch.skipped := by
  cases signal with
  | lap => exact absurd rfl between
  | _ => exact ⟨rfl, rfl, rfl, rfl⟩

/-- The account of a stopwatch: the open window has run no longer than it lasted,
and the meter together with what it left out is the time run up to the latest lap
together with what it counted beyond. -/
structure Balanced (watch : Stopwatch) : Prop where
  lapped : watch.lastLap ≤ watch.moment
  run : watch.runningAtLap ≤ watch.running
  window : watch.running + watch.lastLap ≤ watch.runningAtLap + watch.moment
  account : watch.counted + watch.skipped = watch.runningAtLap + watch.overcounted

/-- A started stopwatch is balanced. -/
theorem start_balanced (moment : ℕ) : (start moment).Balanced :=
  ⟨Nat.le_refl moment, Nat.le_refl 0, Nat.le_refl (0 + moment), rfl⟩

/-- Passing time balances. -/
theorem Balanced.elapse {watch : Stopwatch} (balanced : watch.Balanced) (now : ℕ)
    (inTime : watch.moment ≤ now) : (watch.elapse now).Balanced := by
  obtain ⟨lapped, run, window, account⟩ := balanced
  constructor
  · exact Nat.le_trans lapped inTime
  · exact Nat.le_trans run (Nat.le_add_right _ _)
  · change watch.running + (if watch.paused then 0 else now - watch.moment) + watch.lastLap ≤
      watch.runningAtLap + now
    split <;> omega
  · exact account

/-- A lap balances: the window it ends is counted, or it is left out. -/
theorem Balanced.lap {watch : Stopwatch} (balanced : watch.Balanced) : watch.lap.Balanced := by
  obtain ⟨lapped, run, window, account⟩ := balanced
  refine ⟨Nat.le_refl _, Nat.le_refl _, Nat.le_refl _, ?_⟩
  simp only [Stopwatch.lap]
  split <;> omega

/-- Every signal in time keeps the account. -/
theorem Balanced.signal {watch : Stopwatch} (balanced : watch.Balanced) (now : ℕ)
    (signal : Signal) (inTime : watch.moment ≤ now) : (watch.signal now signal).Balanced := by
  have elapsed := balanced.elapse now inTime
  cases signal with
  | lap => exact elapsed.lap
  | pause => exact ⟨elapsed.lapped, elapsed.run, elapsed.window, elapsed.account⟩
  | resume => exact ⟨elapsed.lapped, elapsed.run, elapsed.window, elapsed.account⟩
  | pass => exact elapsed

/-- At a lap, the meter shows no more than the time run exactly when it counted
no more paused time than it left out running time. -/
theorem counted_le_iff (watch : Stopwatch) (now : ℕ) (balanced : watch.Balanced)
    (inTime : watch.moment ≤ now) :
    (watch.signal now .lap).counted ≤ (watch.signal now .lap).running ↔
      (watch.signal now .lap).overcounted ≤ (watch.signal now .lap).skipped := by
  have account := (balanced.signal now .lap inTime).account
  have closed : (watch.signal now .lap).runningAtLap = (watch.signal now .lap).running := rfl
  omega

/-- Between laps the meter does not change, so that it shows no more than the
time run while its errors weigh no more than they should. -/
theorem Balanced.counted_le {watch : Stopwatch} (balanced : watch.Balanced)
    (outweighed : watch.overcounted ≤ watch.skipped) : watch.counted ≤ watch.running := by
  have account := balanced.account
  have run := balanced.run
  omega

end Stopwatch
