import Mathlib.Data.List.Basic
import Mathlib.Data.List.Induction
import Mathlib.Order.Basic

/-!
# Runs of a deterministic step function

A system that processes one input at a time is a step function on states; the
state after a list of inputs is the left fold of the step. A temporal law says
that something holds of every input at the state in which it is processed, and
is proved from an invariant: the inputs' own side conditions keep the invariant,
and the invariant yields the law at each of them.

Nothing here fixes what the states or the inputs are. Side conditions are part
of the statement and may read the state, so a law about inputs of a kind, such
as a law for runs without one command, is an instance rather than a new induction.
-/

namespace Runs

universe u v w
variable {σ : Type u} {ι : Type v} (step : σ → ι → σ)

/-- `property` holds of every input at the state in which it is processed. -/
def Along (property : σ → ι → Prop) : σ → List ι → Prop
  | _, [] => True
  | state, input :: rest => property state input ∧ Along property (step state input) rest

/-- Some input satisfies `property` at the state in which it is processed. -/
def Sometime (property : σ → ι → Prop) (state : σ) (inputs : List ι) : Prop :=
  ∃ before input later, inputs = before ++ input :: later ∧
    property (before.foldl step state) input

variable {step} {property other conclusion : σ → ι → Prop}

/-- A law checked at each input by a decision procedure is decided for a run. -/
instance alongDecidable [∀ state input, Decidable (property state input)] :
    ∀ (state : σ) (inputs : List ι), Decidable (Along step property state inputs)
  | _, [] => inferInstanceAs (Decidable True)
  | state, input :: rest =>
    @instDecidableAnd _ _ (inferInstanceAs (Decidable (property state input)))
      (alongDecidable (step state input) rest)

@[simp] theorem along_nil (state : σ) : Along step property state [] := trivial

@[simp] theorem along_cons (state : σ) (input : ι) (rest : List ι) :
    Along step property state (input :: rest) ↔
      property state input ∧ Along step property (step state input) rest := Iff.rfl

/-- A law of a joined run is the law of its first part, and the law of its
second part from the state the first part leaves. -/
theorem along_append (state : σ) (first second : List ι) :
    Along step property state (first ++ second) ↔
      Along step property state first ∧
        Along step property (first.foldl step state) second := by
  induction first generalizing state with
  | nil => simp
  | cons input rest inductionHypothesis =>
    simp only [List.cons_append, along_cons, inductionHypothesis, List.foldl_cons, and_assoc]

/-- A run obeys a law exactly when every input does, at the state the inputs
before it leave. -/
theorem along_iff_split (state : σ) (inputs : List ι) :
    Along step property state inputs ↔
      ∀ before input later, inputs = before ++ input :: later →
        property (before.foldl step state) input := by
  constructor
  · rintro holds before input later rfl
    exact ((along_append state before (input :: later)).mp holds).2.1
  · intro each
    induction inputs generalizing state with
    | nil => exact trivial
    | cons input rest inductionHypothesis =>
      refine ⟨each [] input rest rfl, inductionHypothesis (step state input) ?_⟩
      rintro before tested later rfl
      exact each (input :: before) tested later rfl

/-- A law that every input obeys at every state is a law of the run. -/
theorem along_of_forall (state : σ) {inputs : List ι}
    (each : ∀ input ∈ inputs, ∀ reached, property reached input) :
    Along step property state inputs := by
  induction inputs generalizing state with
  | nil => exact trivial
  | cons input rest inductionHypothesis =>
    obtain ⟨here, later⟩ := List.forall_mem_cons.mp each
    exact ⟨here state, inductionHypothesis (step state input) later⟩

/-- A run breaks a law exactly when some input does. -/
theorem not_along_iff (state : σ) (inputs : List ι) :
    ¬ Along step property state inputs ↔
      Sometime step (fun reached input => ¬ property reached input) state inputs := by
  rw [along_iff_split]
  simp only [Sometime, not_forall, exists_prop]

/-- A pointwise weaker law is obeyed by the same runs. -/
theorem Along.mono (weaker : ∀ state input, property state input → other state input)
    {state : σ} {inputs : List ι} (holds : Along step property state inputs) :
    Along step other state inputs := by
  induction inputs generalizing state with
  | nil => exact trivial
  | cons input rest inductionHypothesis =>
    exact ⟨weaker state input holds.1, inductionHypothesis holds.2⟩

/-- Two laws of a run hold together. -/
theorem Along.and {state : σ} {inputs : List ι} (holds : Along step property state inputs)
    (alsoHolds : Along step other state inputs) :
    Along step (fun reached input => property reached input ∧ other reached input)
      state inputs := by
  induction inputs generalizing state with
  | nil => exact trivial
  | cons input rest inductionHypothesis =>
    exact ⟨⟨holds.1, alsoHolds.1⟩, inductionHypothesis holds.2 alsoHolds.2⟩

section Invariants

variable {invariant : σ → Prop}
  (preserved : ∀ state input, invariant state → property state input →
    invariant (step state input))
include preserved

/-- The invariant rule: what each admitted input preserves holds at the end. -/
theorem invariant_after {state : σ} {inputs : List ι} (initial : invariant state)
    (admitted : Along step property state inputs) : invariant (inputs.foldl step state) := by
  induction inputs generalizing state with
  | nil => exact initial
  | cons input rest inductionHypothesis =>
    exact inductionHypothesis (preserved state input initial admitted.1) admitted.2

/-- The law rule: what the invariant yields at each admitted input is a law of
the whole run. -/
theorem invariant_along
    (yields : ∀ state input, invariant state → property state input → conclusion state input)
    {state : σ} {inputs : List ι} (initial : invariant state)
    (admitted : Along step property state inputs) : Along step conclusion state inputs := by
  induction inputs generalizing state with
  | nil => exact trivial
  | cons input rest inductionHypothesis =>
    exact ⟨yields state input initial admitted.1,
      inductionHypothesis (preserved state input initial admitted.1) admitted.2⟩

end Invariants

/-! ### Runs in time

Inputs may carry a time that never goes back. An invariant of such a run may
speak of the time of the latest input, and each step may use that its own input
is not earlier. -/

section Clocked

variable {τ : Type w} [Preorder τ] (stamp : ι → τ)

/-- The times of the inputs never go back. -/
def Clocked (inputs : List ι) : Prop := (inputs.map stamp).Pairwise (· ≤ ·)

instance clockedDecidable [DecidableLE τ] (inputs : List ι) : Decidable (Clocked stamp inputs) :=
  inferInstanceAs (Decidable ((inputs.map stamp).Pairwise (· ≤ ·)))

variable {stamp}

@[simp] theorem clocked_nil : Clocked stamp [] := List.Pairwise.nil

@[simp] theorem clocked_cons (input : ι) (rest : List ι) :
    Clocked stamp (input :: rest) ↔
      (∀ later ∈ rest, stamp input ≤ stamp later) ∧ Clocked stamp rest := by
  simp [Clocked, List.pairwise_cons]

/-- A joined run is clocked when its parts are and the second is not earlier. -/
theorem clocked_append (first second : List ι) :
    Clocked stamp (first ++ second) ↔
      Clocked stamp first ∧ Clocked stamp second ∧
        ∀ earlier ∈ first, ∀ later ∈ second, stamp earlier ≤ stamp later := by
  simp [Clocked, List.pairwise_append]

/-- The law rule in time: the invariant at the time of the latest input is kept
by each admitted input that is not earlier, and yields the law there. -/
theorem clocked_along {invariant : τ → σ → Prop}
    (preserved : ∀ now state input, invariant now state → now ≤ stamp input →
      property state input → invariant (stamp input) (step state input))
    (yields : ∀ now state input, invariant now state → now ≤ stamp input →
      property state input → conclusion state input)
    {now : τ} {state : σ} {inputs : List ι} (initial : invariant now state)
    (started : ∀ input ∈ inputs, now ≤ stamp input) (clocked : Clocked stamp inputs)
    (admitted : Along step property state inputs) : Along step conclusion state inputs := by
  induction inputs generalizing now state with
  | nil => exact trivial
  | cons input rest inductionHypothesis =>
    obtain ⟨restLater, restClocked⟩ := (clocked_cons input rest).mp clocked
    have inTime : now ≤ stamp input := started input List.mem_cons_self
    exact ⟨yields now state input initial inTime admitted.1,
      inductionHypothesis (preserved now state input initial inTime admitted.1) restLater
        restClocked admitted.2⟩

end Clocked

/-- The invariant rule for inputs without side conditions. -/
theorem always_after {invariant : σ → Prop}
    (preserved : ∀ state input, invariant state → invariant (step state input))
    {state : σ} (initial : invariant state) (inputs : List ι) :
    invariant (inputs.foldl step state) := by
  induction inputs generalizing state with
  | nil => exact initial
  | cons input rest inductionHypothesis =>
    exact inductionHypothesis (preserved state input initial)

/-! ### Counting along a run

What a run is counted for may be paid for in advance by the state and, step by
step, by the inputs. The amount the state has left is its potential. -/

section Counting

variable (step) in
/-- The number of inputs that pass a test at the state in which they are processed. -/
def tally (test : σ → ι → Bool) : σ → List ι → ℕ
  | _, [] => 0
  | state, input :: rest =>
    (if test state input then 1 else 0) + tally test (step state input) rest

variable {invariant : σ → Prop} {test : σ → ι → Bool} {potential : σ → ℕ} {credit : ι → Bool}
  (preserved : ∀ state input, invariant state → property state input →
    invariant (step state input))
  (pays : ∀ state input, invariant state → property state input →
    (if test state input then 1 else 0) + potential (step state input) ≤
      potential state + if credit input then 1 else 0)
include preserved pays

/-- The potential rule: when every admitted input pays for what it is counted for
out of the potential and its own credit, a run pays for its count. -/
theorem tally_le_credit {state : σ} {inputs : List ι} (initial : invariant state)
    (admitted : Along step property state inputs) :
    tally step test state inputs + potential (inputs.foldl step state) ≤
      potential state + inputs.countP credit := by
  induction inputs generalizing state with
  | nil => simp [tally]
  | cons input rest inductionHypothesis =>
    have here := pays state input initial admitted.1
    have there := inductionHypothesis (preserved state input initial admitted.1) admitted.2
    simp only [tally, List.foldl_cons, List.countP_cons]
    omega

end Counting

/-! ### Exact conditions

A property of states that each input keeps exactly under a condition of its own
is kept along a run exactly when the condition is met along it. -/

/-- The exactness rule: if, under an invariant and at good states, an input leads
to a good state exactly when it meets a condition, then a run stays good exactly
when all its inputs meet the condition. -/
theorem stays_good_iff {invariant good : σ → Prop}
    (preserved : ∀ state input, invariant state → property state input →
      invariant (step state input))
    (exact : ∀ state input, invariant state → property state input → good state →
      (good (step state input) ↔ other state input))
    {state : σ} {inputs : List ι} (initial : invariant state) (starts : good state)
    (admitted : Along step property state inputs) :
    Along step (fun reached input => good (step reached input)) state inputs ↔
      Along step other state inputs := by
  induction inputs generalizing state with
  | nil => simp
  | cons input rest inductionHypothesis =>
    have here := exact state input initial admitted.1 starts
    rw [along_cons, along_cons, here]
    refine and_congr_right fun meets => ?_
    exact inductionHypothesis (preserved state input initial admitted.1) (here.mpr meets) admitted.2

/-- A run that starts good stays good along its inputs exactly when every state it
reaches is good. -/
theorem along_after_iff {good : σ → Prop} {state : σ} {inputs : List ι} (starts : good state) :
    Along step (fun reached input => good (step reached input)) state inputs ↔
      ∀ before after, inputs = before ++ after → good (before.foldl step state) := by
  rw [along_iff_split]
  constructor
  · intro each before after split
    induction before using List.reverseRecOn with
    | nil => exact starts
    | append_singleton front input =>
      rw [List.foldl_append]
      exact each front input after (by simpa using split)
  · intro each before input later split
    have reached := each (before ++ [input]) later (by simpa using split)
    rwa [List.foldl_append] at reached

/-! ### Absorbed inputs

An input may make no difference to the state that a later one leaves. -/

/-- The absorption rule: when, at a state, each of some inputs makes no difference
to the ones after it, the last input leaves what all of them leave. -/
theorem run_last (state : σ) (inputs : List ι) (final : ι)
    (absorbed : (inputs ++ [final]).Pairwise fun first second =>
      step (step state first) second = step state second) :
    (inputs ++ [final]).foldl step state = step state final := by
  induction inputs with
  | nil => rfl
  | cons input rest inductionHypothesis =>
    obtain ⟨here, later⟩ := List.pairwise_cons.mp absorbed
    have tail := inductionHypothesis later
    -- the first input is absorbed by the one that follows it
    cases rest with
    | nil => exact here final (List.mem_singleton.mpr rfl)
    | cons next following =>
      have skipped : step (step state input) next = step state next :=
        here next List.mem_cons_self
      simpa [skipped] using tail

/-! ### Fallible steps

A step that may fail, and agrees with the step function wherever an invariant
holds, never fails along a run that keeps the invariant. -/

/-- A sequence succeeds exactly when both of its parts do. -/
theorem bind_eq_ok {ε : Type u} {α β : Type v} {attempt : Except ε α} {next : α → Except ε β}
    {result : β} :
    attempt >>= next = .ok result ↔ ∃ value, attempt = .ok value ∧ next value = .ok result := by
  cases attempt with
  | error error =>
    constructor
    · intro succeeded
      cases succeeded
    · rintro ⟨value, absent, _⟩
      cases absent
  | ok value =>
    constructor
    · intro succeeded
      exact ⟨value, rfl, succeeded⟩
    · rintro ⟨other, same, succeeded⟩
      obtain rfl := Except.ok.inj same
      exact succeeded

/-- A mapped attempt succeeds exactly when the attempt does. -/
theorem map_eq_ok {ε : Type u} {α : Type v} {β : Type w} {attempt : Except ε α} {next : α → β}
    {result : β} :
    attempt.map next = .ok result ↔ ∃ value, attempt = .ok value ∧ next value = result := by
  cases attempt with
  | error error => simp [Except.map]
  | ok value => simp [Except.map]

/-- The totality rule: under an invariant a fallible step does what the step
function does, so a run of it succeeds and ends where the run of that does. -/
theorem foldlM_ok {ε : Type w} {fallible : σ → ι → Except ε σ} {invariant : σ → Prop}
    (preserved : ∀ state input, invariant state → property state input →
      invariant (step state input))
    (succeeds : ∀ state input, invariant state → property state input →
      fallible state input = .ok (step state input))
    {state : σ} {inputs : List ι} (initial : invariant state)
    (admitted : Along step property state inputs) :
    inputs.foldlM fallible state = .ok (inputs.foldl step state) := by
  induction inputs generalizing state with
  | nil => rfl
  | cons input rest inductionHypothesis =>
    have here : fallible state input = .ok (step state input) :=
      succeeds state input initial admitted.1
    rw [List.foldlM_cons, here]
    exact inductionHypothesis (preserved state input initial admitted.1) admitted.2

/-- The soundness rule: a fallible step that does what the step function does
wherever it succeeds ends a run that succeeds where the run of that does. -/
theorem foldlM_sound {ε : Type w} {fallible : σ → ι → Except ε σ}
    (sound : ∀ state input next, fallible state input = .ok next → next = step state input)
    {state final : σ} {inputs : List ι} (ended : inputs.foldlM fallible state = .ok final) :
    final = inputs.foldl step state := by
  induction inputs generalizing state with
  | nil => exact (Except.ok.inj ended).symm
  | cons input rest inductionHypothesis =>
    rw [List.foldlM_cons] at ended
    obtain ⟨next, stepped, continued⟩ := bind_eq_ok.mp ended
    have same : next = step state input := sound state input next stepped
    rw [List.foldl_cons, ← same]
    exact inductionHypothesis continued

end Runs
