import Ritualist.Clock

/-!
# Activity specifications and activation targets

A specification names an activity and says when it runs: at a fixed interval,
at an interval drawn afresh for every cycle, or once at a date. Validation
refuses only a random interval with no value to draw. A schedule is turned into
an activation target when an activity is created and again whenever a run of it
ends; the target, not the schedule, is what decides that an activity is due.
-/

namespace Ritualist

universe u

/-- When an activity runs. -/
inductive ActivitySchedule where
  | fixedInterval (duration : Duration)
  | randomInterval (min max : Duration)
  | scheduled (date : DateTime)
  deriving DecidableEq, Repr

/-- The schedule is a one-shot at a date. -/
def ActivitySchedule.isOneShot : ActivitySchedule → Bool
  | .scheduled _ => true
  | _ => false

/-- An activity's identity and its schedule. -/
structure ActivitySpec (T : Type u) where
  id : T
  schedule : ActivitySchedule
  deriving DecidableEq, Repr

inductive ActivitySpecError where
  | intervalRangeOverflow
  deriving DecidableEq, Repr

/-- Refuse a random interval whose range is empty. -/
def ActivitySpec.validate {T : Type u} (spec : ActivitySpec T) : Except ActivitySpecError Unit :=
  match spec.schedule with
  | .randomInterval min max => if min ≥ max then .error .intervalRangeOverflow else .ok ()
  | _ => .ok ()

/-- What an activity waits for: an elapsed span, or a date. -/
inductive ActivationTarget where
  | duration (target : Duration)
  | date (target : DateTime)
  deriving DecidableEq, Repr

/-- The target a schedule asks for, `From<ActivitySchedule>`. Only the random
interval draws. -/
def ActivationTarget.fromSchedule (rng : Rng) : ActivitySchedule → ActivationTarget
  | .fixedInterval span => .duration span
  | .randomInterval min max => .duration (rng.randomRange min max)
  | .scheduled moment => .date moment

/-- A validated random interval has a value to draw. -/
theorem validate_ok_iff {T : Type u} (spec : ActivitySpec T) :
    spec.validate = .ok () ↔
      ∀ min max, spec.schedule = .randomInterval min max → min < max := by
  obtain ⟨id, schedule⟩ := spec
  cases schedule with
  | fixedInterval duration => simp [ActivitySpec.validate]
  | randomInterval least bound =>
    by_cases vacant : least ≥ bound
    · simp [ActivitySpec.validate, vacant]
    · have nonempty : least < bound := Nat.lt_of_not_le vacant
      simp [ActivitySpec.validate, nonempty]
  | scheduled date => simp [ActivitySpec.validate]

/-- Validating a list succeeds exactly when every member is valid. -/
theorem validate_all_iff {T : Type u} (specs : List (ActivitySpec T)) :
    forM specs ActivitySpec.validate = .ok () ↔ ∀ spec ∈ specs, spec.validate = .ok () := by
  induction specs with
  | nil => simp [pure, Except.pure]
  | cons spec rest inductionHypothesis =>
    rw [List.forM_cons, List.forall_mem_cons, ← inductionHypothesis]
    cases spec.validate <;> simp [bind, Except.bind]

/-- A one-shot waits for its date, and every other schedule for a span. -/
theorem from_schedule_kind (rng : Rng) (schedule : ActivitySchedule) :
    (∃ date, schedule = .scheduled date ∧
        ActivationTarget.fromSchedule rng schedule = .date date) ∨
      (schedule.isOneShot = false ∧
        ∃ span, ActivationTarget.fromSchedule rng schedule = .duration span) := by
  cases schedule with
  | fixedInterval duration => exact Or.inr ⟨rfl, duration, rfl⟩
  | randomInterval least bound => exact Or.inr ⟨rfl, rng.randomRange least bound, rfl⟩
  | scheduled date => exact Or.inl ⟨date, rfl, rfl⟩

end Ritualist
