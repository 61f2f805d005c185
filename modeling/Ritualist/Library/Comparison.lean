import Mathlib.Data.List.Forall2
import Ritualist.Library.Runs

/-!
# Two runs side by side

Two runs are compared by aligning their inputs in order: some inputs of either
run pass without a counterpart in the other, and the rest are paired. A relation
between the states that every aligned step keeps holds at the end, and what the
two runs let out is the same if each aligned step lets out the same.

The two systems and their inputs may be of different types. A law about a run
with some of its inputs left out, or with some of its inputs replaced, is an
instance.
-/

universe u v w x y

namespace Runs

variable {σ : Type u} {τ : Type v} {ι : Type w} {κ : Type x} {ω : Type y}

/-- The inputs of two runs, aligned in order. -/
inductive Aligned (passes : ι → Prop) (passes' : κ → Prop) (pairs : ι → κ → Prop) :
    List ι → List κ → Prop
  | nil : Aligned passes passes' pairs [] []
  | left (input : ι) (first : List ι) (second : List κ) (alone : passes input)
      (rest : Aligned passes passes' pairs first second) :
      Aligned passes passes' pairs (input :: first) second
  | right (input' : κ) (first : List ι) (second : List κ) (alone : passes' input')
      (rest : Aligned passes passes' pairs first second) :
      Aligned passes passes' pairs first (input' :: second)
  | pair (input : ι) (input' : κ) (first : List ι) (second : List κ) (paired : pairs input input')
      (rest : Aligned passes passes' pairs first second) :
      Aligned passes passes' pairs (input :: first) (input' :: second)

/-- What a run lets out, oldest first. -/
def outputs (step : σ → ι → σ) (output : σ → ι → Option ω) : σ → List ι → List ω
  | _, [] => []
  | state, input :: rest =>
    (output state input).toList ++ outputs step output (step state input) rest

/-- A joined run lets out what its parts do. -/
theorem outputs_append (step : σ → ι → σ) (output : σ → ι → Option ω) (state : σ)
    (first second : List ι) : outputs step output state (first ++ second) =
      outputs step output state first ++ outputs step output (first.foldl step state) second := by
  induction first generalizing state with
  | nil => rfl
  | cons input rest inductionHypothesis =>
    rw [List.cons_append, outputs, inductionHypothesis, outputs, List.append_assoc]
    rfl

variable {passes : ι → Prop} {passes' : κ → Prop} {pairs : ι → κ → Prop}

/-- Inputs paired one by one are aligned. -/
theorem aligned_forall₂ {first : List ι} {second : List κ} (paired : List.Forall₂ pairs first second) :
    Aligned passes passes' pairs first second := by
  induction paired with
  | nil => exact .nil
  | cons here _ inductionHypothesis => exact .pair _ _ _ _ here inductionHypothesis

/-- A run is aligned with itself when its inputs pair with themselves. -/
theorem aligned_self {pairs : ι → ι → Prop} {passes' : ι → Prop} (same : ∀ input, pairs input input)
    (inputs : List ι) : Aligned passes passes' pairs inputs inputs :=
  aligned_forall₂ (List.forall₂_same.mpr fun input _ => same input)

/-- Runs aligned in two parts are aligned. -/
theorem Aligned.append {first first' : List ι} {second second' : List κ}
    (front : Aligned passes passes' pairs first second)
    (back : Aligned passes passes' pairs first' second') :
    Aligned passes passes' pairs (first ++ first') (second ++ second') := by
  induction front with
  | nil => exact back
  | left input _ _ alone _ inductionHypothesis => exact .left input _ _ alone inductionHypothesis
  | right input' _ _ alone _ inductionHypothesis => exact .right input' _ _ alone inductionHypothesis
  | pair input input' _ _ paired _ inductionHypothesis =>
    exact .pair input input' _ _ paired inductionHypothesis

/-- A run is aligned with what is left of it when some inputs are left out and the
others replaced. -/
theorem aligned_filterMap (project : ι → Option κ) (first : List ι)
    (dropped : ∀ input, project input = none → passes input)
    (kept : ∀ input input', project input = some input' → pairs input input') :
    Aligned passes passes' pairs first (first.filterMap project) := by
  induction first with
  | nil => exact .nil
  | cons input rest inductionHypothesis =>
    cases image : project input with
    | none =>
      rw [List.filterMap_cons_none image]
      exact .left input _ _ (dropped input image) inductionHypothesis
    | some input' =>
      rw [List.filterMap_cons_some image]
      exact .pair input input' _ _ (kept input input' image) inductionHypothesis

/-- Runs are aligned when views of their inputs are. -/
theorem aligned_of_map {α : Type*} {β : Type*} (view : α → ι) (view' : β → κ) (first : List α)
    (second : List β)
    (aligned : Aligned passes passes' pairs (first.map view) (second.map view')) :
    Aligned (fun input => passes (view input)) (fun input' => passes' (view' input'))
      (fun input input' => pairs (view input) (view' input')) first second := by
  generalize viewed : first.map view = inputs at aligned
  generalize viewed' : second.map view' = inputs' at aligned
  induction aligned generalizing first second with
  | nil =>
    obtain rfl := List.map_eq_nil_iff.mp viewed
    obtain rfl := List.map_eq_nil_iff.mp viewed'
    exact .nil
  | left _ _ _ alone _ inductionHypothesis =>
    obtain ⟨input, rest, rfl, rfl, tail⟩ := List.map_eq_cons_iff.mp viewed
    exact .left input _ _ alone (inductionHypothesis rest second tail viewed')
  | right _ _ _ alone _ inductionHypothesis =>
    obtain ⟨input', rest, rfl, rfl, tail⟩ := List.map_eq_cons_iff.mp viewed'
    exact .right input' _ _ alone (inductionHypothesis first rest viewed tail)
  | pair _ _ _ _ paired _ inductionHypothesis =>
    obtain ⟨input, rest, rfl, rfl, tail⟩ := List.map_eq_cons_iff.mp viewed
    obtain ⟨input', rest', rfl, rfl, tail'⟩ := List.map_eq_cons_iff.mp viewed'
    exact .pair input input' _ _ paired (inductionHypothesis rest rest' tail tail')

/-- The comparison rule: a relation kept by every aligned step relates the final
states, and the runs let out the same. -/
theorem compare {step : σ → ι → σ} {step' : τ → κ → τ} {output : σ → ι → Option ω}
    {output' : τ → κ → Option ω} {related : σ → τ → Prop} {property : σ → ι → Prop}
    (alone : ∀ state state' input, related state state' → passes input →
      related (step state input) state' ∧ output state input = none)
    (alone' : ∀ state state' input', related state state' → passes' input' →
      related state (step' state' input') ∧ output' state' input' = none)
    (together : ∀ state state' input input', related state state' → property state input →
      pairs input input' → related (step state input) (step' state' input') ∧
        output state input = output' state' input')
    {state : σ} {state' : τ} {first : List ι} {second : List κ}
    (aligned : Aligned passes passes' pairs first second) (initial : related state state')
    (admitted : Along step property state first) :
    related (first.foldl step state) (second.foldl step' state') ∧
      outputs step output state first = outputs step' output' state' second := by
  induction aligned generalizing state state' with
  | nil => exact ⟨initial, rfl⟩
  | left input _ _ passing _ inductionHypothesis =>
    obtain ⟨still, silent⟩ := alone state state' input initial passing
    simpa [outputs, silent] using inductionHypothesis still admitted.2
  | right input' _ _ passing _ inductionHypothesis =>
    obtain ⟨still, silent⟩ := alone' state state' input' initial passing
    simpa [outputs, silent] using inductionHypothesis still admitted
  | pair input input' _ _ paired _ inductionHypothesis =>
    obtain ⟨still, same⟩ := together state state' input input' initial admitted.1 paired
    obtain ⟨final, sameRest⟩ := inductionHypothesis still admitted.2
    exact ⟨final, by rw [outputs, outputs, same, sameRest]⟩

end Runs
