import Mathlib.Order.WellFounded
import Ritualist.Library.Runs

/-!
# Systems that come to rest

A system of several parties may be driven from outside and may have work of its own
to carry on. It comes to rest if the work of its own ends, whoever moves first: if
every input that carries work on lowers a rank in some well-founded order, and a
state in which no such input is possible is one with nothing left to do.

`ends` excludes endless work and `comes_to_rest` finds a run to a state at rest. Both
ask for the falling rank only where an invariant holds that the inputs keep.
-/

namespace Runs

universe u v w
variable {σ : Type u} {ι : Type v} {ρ : Type w} {step : σ → ι → σ} {able : σ → ι → Prop}

/-- No input is possible. -/
def AtRest (able : σ → ι → Prop) (state : σ) : Prop := ∀ input, ¬ able state input

/-- The state after so many inputs of an endless supply. -/
def stateAt (step : σ → ι → σ) (state : σ) (supply : ℕ → ι) : ℕ → σ
  | 0 => state
  | count + 1 => step (stateAt step state supply count) (supply count)

variable [LT ρ] [WellFoundedLT ρ] {invariant : σ → Prop} {rank : σ → ρ}
  (preserved : ∀ state input, invariant state → able state input → invariant (step state input))
  (falls : ∀ state input, invariant state → able state input → rank (step state input) < rank state)
include preserved falls

/-- No supply of inputs is possible for ever. -/
theorem ends {state : σ} (initial : invariant state) (supply : ℕ → ι) :
    ∃ count, ¬ able (stateAt step state supply count) (supply count) := by
  by_contra endless
  have possible : ∀ count, able (stateAt step state supply count) (supply count) := by
    simpa using endless
  have kept : ∀ count, invariant (stateAt step state supply count) := by
    intro count
    induction count with
    | zero => exact initial
    | succ count inductionHypothesis =>
      exact preserved _ _ inductionHypothesis (possible count)
  obtain ⟨count, high⟩ := WellFounded.not_rel_apply_succ (r := (· < ·))
    fun count => rank (stateAt step state supply count)
  exact high (falls _ _ (kept count) (possible count))

/-- Some inputs, each possible where it is taken, lead to a state at rest. -/
theorem comes_to_rest {state : σ} (initial : invariant state) :
    ∃ inputs, Along step able state inputs ∧ AtRest able (inputs.foldl step state) := by
  induction state using WellFounded.induction (InvImage.wf rank (wellFounded_lt (α := ρ))) with
  | _ state inductionHypothesis =>
    by_cases resting : AtRest able state
    · exact ⟨[], trivial, resting⟩
    · obtain ⟨input, possible⟩ : ∃ input, able state input := by
        simpa [AtRest] using resting
      obtain ⟨inputs, taken, final⟩ := inductionHypothesis (step state input)
        (falls state input initial possible) (preserved state input initial possible)
      exact ⟨input :: inputs, ⟨possible, taken⟩, final⟩

end Runs
