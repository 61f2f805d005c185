import Ritualist.Library.Comparison

/-!
# Simulation of one system by another

A system is simulated by another if every input it can take at a state is matched,
at every related state, by inputs that the other can take, which end in related
states and let out the same. One input may be matched by several, or by none.

So every run of the first is matched by a run of the second, and what the second
lets out, seen through a view, is what the first does.

The strictest match is a map of states and inputs that a step commutes with. Then a
run commutes with it as well, and a law of inputs that the map respects holds along
the one run exactly if it holds along the other.
-/

universe u v w x y z

namespace Runs

variable {σ : Type u} {τ : Type v} {ι : Type w} {κ : Type x} {ω : Type y} {ω' : Type z}

/-- Every input of the first system is matched by inputs of the second. -/
def Simulates (step : σ → ι → σ) (able : σ → ι → Prop) (output : σ → ι → Option ω)
    (step' : τ → κ → τ) (able' : τ → κ → Prop) (output' : τ → κ → Option ω') (view : ω' → ω)
    (related : σ → τ → Prop) : Prop :=
  ∀ state state' input, related state state' → able state input →
    ∃ inputs', Along step' able' state' inputs' ∧
      related (step state input) (inputs'.foldl step' state') ∧
        (outputs step' output' state' inputs').map view = (output state input).toList

variable {step : σ → ι → σ} {able : σ → ι → Prop} {output : σ → ι → Option ω}
  {step' : τ → κ → τ} {able' : τ → κ → Prop} {output' : τ → κ → Option ω'} {view : ω' → ω}
  {related : σ → τ → Prop}

/-- The simulation rule: every run of the first system is matched by a run of the
second. -/
theorem Simulates.run (simulates : Simulates step able output step' able' output' view related)
    {state : σ} {state' : τ} {inputs : List ι} (initial : related state state')
    (admitted : Along step able state inputs) :
    ∃ inputs', Along step' able' state' inputs' ∧
      related (inputs.foldl step state) (inputs'.foldl step' state') ∧
        (outputs step' output' state' inputs').map view = outputs step output state inputs := by
  induction inputs generalizing state state' with
  | nil => exact ⟨[], trivial, initial, rfl⟩
  | cons input rest inductionHypothesis =>
    obtain ⟨first, taken, between, same⟩ := simulates state state' input initial admitted.1
    obtain ⟨second, followed, final, sameRest⟩ := inductionHypothesis between admitted.2
    refine ⟨first ++ second, (along_append _ _ _).mpr ⟨taken, followed⟩, ?_, ?_⟩
    · rw [List.foldl_append]
      exact final
    · rw [outputs_append, List.map_append, same, sameRest]
      rfl

/-- A step of mapped states and inputs is the map of a step. -/
def Commutes (step : σ → ι → σ) (step' : τ → κ → τ) (onState : σ → τ) (onInput : ι → κ) : Prop :=
  ∀ state input, step' (onState state) (onInput input) = onState (step state input)

variable {onState : σ → τ} {onInput : ι → κ}

/-- A run of a mapped state and mapped inputs is the map of the run. -/
theorem Commutes.run (commutes : Commutes step step' onState onInput) (state : σ)
    (inputs : List ι) :
    (inputs.map onInput).foldl step' (onState state) = onState (inputs.foldl step state) := by
  induction inputs generalizing state with
  | nil => rfl
  | cons input rest inductionHypothesis =>
    rw [List.map_cons, List.foldl_cons, List.foldl_cons, commutes, inductionHypothesis]

/-- A law that the map respects holds along a mapped run exactly if it holds along the
run. -/
theorem Commutes.along (commutes : Commutes step step' onState onInput)
    (respects : ∀ state input, able' (onState state) (onInput input) ↔ able state input)
    (state : σ) (inputs : List ι) :
    Along step' able' (onState state) (inputs.map onInput) ↔ Along step able state inputs := by
  induction inputs generalizing state with
  | nil => exact Iff.rfl
  | cons input rest inductionHypothesis =>
    rw [List.map_cons, along_cons, along_cons, respects, commutes, inductionHypothesis]

end Runs
