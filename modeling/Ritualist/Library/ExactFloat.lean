import Mathlib.Algebra.Order.Field.Basic

/-!
# Floating-point quotients without rounding

Floating-point arithmetic does not fail: a number over zero is an infinity, zero
over zero is not a number, and what is not a number stays so. Here the numbers are
exact, of any ordered field, and only these special values are modelled, as far as
quotients, scaling and clamping go. Zero has one sign, as it has where numbers come
from integers.

A clamped result is a number between the bounds or not a number at all, and it is
the latter exactly when what was clamped is.
-/

universe u

/-- An exact number, or one of the special values of floating-point arithmetic. -/
inductive ExactFloat (K : Type u) where
  | nan
  | negInf
  | value (number : K)
  | posInf
  deriving DecidableEq, Repr

namespace ExactFloat

variable {K : Type u} [LinearOrder K]

/-- A value moved between two bounds; what is not a number passes through. -/
def clamp (result : ExactFloat K) (low high : K) : ExactFloat K :=
  match result with
  | .nan => .nan
  | .negInf => .value low
  | .value number => .value (if number < low then low else if high < number then high else number)
  | .posInf => .value high

/-- Clamping keeps numbers and what is not one apart. -/
theorem clamp_nan_iff (result : ExactFloat K) (low high : K) :
    result.clamp low high = .nan ↔ result = .nan := by
  cases result <;> simp [clamp]

/-- A clamped number is a number between the bounds. -/
theorem clamp_value_within (number low high : K) (ordered : low ≤ high) :
    ∃ clamped, (ExactFloat.value number).clamp low high = .value clamped ∧
      low ≤ clamped ∧ clamped ≤ high := by
  refine ⟨_, rfl, ?_⟩
  split
  · exact ⟨le_rfl, ordered⟩
  · split
    · exact ⟨ordered, le_rfl⟩
    · exact ⟨le_of_not_gt ‹_›, le_of_not_gt ‹_›⟩

/-- A clamped number is the upper bound exactly when it was not below it. -/
theorem clamp_value_high_iff (number low high : K) (ordered : low < high) :
    (ExactFloat.value number).clamp low high = .value high ↔ high ≤ number := by
  simp only [clamp, ExactFloat.value.injEq]
  constructor
  · intro clamped
    by_contra below
    split at clamped
    · exact ordered.ne clamped
    · split at clamped
      · exact below (le_of_lt ‹_›)
      · exact below clamped.ge
  · intro reached
    have notBelow : ¬ number < low := not_lt_of_ge (ordered.le.trans reached)
    rw [if_neg notBelow]
    split
    · rfl
    · exact le_antisymm (le_of_not_gt ‹_›) reached

/-- Clamping keeps the order of numbers. -/
theorem clamp_value_le (first second low high : K) (ordered : low ≤ high) (le : first ≤ second) :
    ∃ clamped clamped', (ExactFloat.value first).clamp low high = .value clamped ∧
      (ExactFloat.value second).clamp low high = .value clamped' ∧ clamped ≤ clamped' := by
  have bounded : ∀ number : K, (ExactFloat.value number).clamp low high =
      .value (max low (min number high)) := by
    intro number
    simp only [clamp]
    split
    case isTrue below => rw [min_eq_left (below.le.trans ordered), max_eq_left below.le]
    case isFalse notBelow =>
      split
      case isTrue above => rw [min_eq_right above.le, max_eq_right ordered]
      case isFalse notAbove =>
        rw [min_eq_left (le_of_not_gt notAbove), max_eq_right (le_of_not_gt notBelow)]
  exact ⟨_, _, bounded first, bounded second, max_le_max le_rfl (min_le_min le le_rfl)⟩

/-- A number that is not above the lower bound is clamped to it. -/
theorem clamp_value_low (number low high : K) (below : number ≤ low) (ordered : low ≤ high) :
    (ExactFloat.value number).clamp low high = .value low := by
  rcases below.lt_or_eq with less | rfl
  · simp [clamp, less]
  · simp [clamp, ordered.not_gt]

/-! ### Quotients -/

variable [Field K]

/-- The infinity of a number's sign; zero has none. -/
def infinity (number : K) : ExactFloat K :=
  if number = 0 then .nan else if 0 < number then .posInf else .negInf

/-- A quotient of two numbers. -/
def div (numerator denominator : K) : ExactFloat K :=
  if denominator = 0 then infinity numerator else .value (numerator / denominator)

/-- A value scaled by a number. -/
def scale (quotient : ExactFloat K) (factor : K) : ExactFloat K :=
  match quotient with
  | .nan => .nan
  | .negInf => infinity (-factor)
  | .value number => .value (number * factor)
  | .posInf => infinity factor

/-- A quotient by a number other than zero is a number. -/
theorem div_of_ne (numerator denominator : K) (nonzero : denominator ≠ 0) :
    div numerator denominator = .value (numerator / denominator) := if_neg nonzero

/-- The infinity of a number's sign is none exactly for zero. -/
theorem infinity_nan_iff (number : K) : infinity number = .nan ↔ number = 0 := by
  unfold infinity
  by_cases zero : number = 0
  · simp [zero]
  · by_cases positive : 0 < number <;> simp [zero, positive]

/-- A quotient is not a number exactly for zero over zero. -/
theorem div_nan_iff (numerator denominator : K) :
    div numerator denominator = .nan ↔ denominator = 0 ∧ numerator = 0 := by
  unfold div
  by_cases zero : denominator = 0
  · simp [zero, infinity_nan_iff]
  · simp [zero]

/-- A positive number over zero is infinite. -/
theorem div_zero_pos (numerator : K) (positive : 0 < numerator) :
    div numerator 0 = .posInf := by
  simp [div, infinity, positive, positive.ne']

@[simp] theorem scale_value (number factor : K) :
    (ExactFloat.value number).scale factor = .value (number * factor) := rfl

/-- Scaling by a number other than zero keeps numbers and what is not one apart. -/
theorem scale_nan_iff (quotient : ExactFloat K) (factor : K) (nonzero : factor ≠ 0) :
    quotient.scale factor = .nan ↔ quotient = .nan := by
  cases quotient with
  | nan => simp [scale]
  | negInf => simp [scale, infinity_nan_iff, nonzero]
  | value number => simp [scale]
  | posInf => simp [scale, infinity_nan_iff, nonzero]

end ExactFloat
