import Ritualist.Entries

/-!
# Registration as a transaction

A registration should take effect entirely or not at all: accepted exactly when
every specification is valid and every id is new, in the map and in the batch,
and without effect when it is refused. A single registration is such a
transaction. A batch is not: validation is complete before anything is sent, but
the actor inserts one specification after another and stops at the first id it
finds present, so what stood before that one stays in the map.

`register_many_transaction_iff` says exactly which batches are transactions:
those refused by validation, those accepted, and those refused at their first
specification.
-/

namespace Ritualist

universe u
variable {T : Type u} [DecidableEq T]

/-- A registration of some specifications that ended in `outcome` took effect
entirely or not at all, and was accepted exactly when it should be. -/
structure Transaction (actor : SchedulerActor T) (specs : List (ActivitySpec T))
    (readings : T → Reading)
    (outcome : SchedulerActor T × Option (Except RitualistError Unit)) : Prop where
  answered : ∃ result, outcome.2 = some result
  accepted : outcome.2 = some (.ok ()) ↔
    (∀ spec ∈ specs, spec.validate = .ok ()) ∧ (specs.map ActivitySpec.id).Nodup ∧
      ∀ spec ∈ specs, spec.id ∉ actor.activities
  inserted : outcome.2 = some (.ok ()) → ∀ spec ∈ specs,
    outcome.1.activities.lookup spec.id = some (Activity.new spec (readings spec.id))
  retained : outcome.2 = some (.ok ()) → ∀ id, id ∉ specs.map ActivitySpec.id →
    outcome.1.activities.lookup id = actor.activities.lookup id
  unchanged : ∀ error, outcome.2 = some (.error error) → outcome.1 = actor

namespace SchedulerActor

/-- A batch is accepted exactly when its ids are distinct and new to the map. -/
theorem register_each_ok_iff (readings : T → Reading) (specs : List (ActivitySpec T))
    (activities : Table T (Activity T)) :
    (registerEach readings activities specs).2 = .ok () ↔
      (specs.map ActivitySpec.id).Nodup ∧ ∀ spec ∈ specs, spec.id ∉ activities := by
  induction specs generalizing activities with
  | nil => simp [registerEach]
  | cons spec rest inductionHypothesis =>
    by_cases present : spec.id ∈ activities
    · simp [registerEach, present]
    · simp only [registerEach, present, if_false, inductionHypothesis, AList.mem_insert,
        List.map_cons, List.nodup_cons, List.mem_map, List.forall_mem_cons, not_or]
      constructor
      · rintro ⟨distinct, fresh⟩
        refine ⟨⟨?_, distinct⟩, not_false, fun other member => (fresh other member).2⟩
        rintro ⟨other, member, same⟩
        exact (fresh other member).1 same
      · rintro ⟨⟨absent, distinct⟩, _, fresh⟩
        exact ⟨distinct, fun other member =>
          ⟨fun same => absent ⟨other, member, same⟩, fresh other member⟩⟩

/-- A batch of distinct new ids inserts each of them. -/
theorem accepted_member (present : List T) (specs : List (ActivitySpec T))
    (distinct : (specs.map ActivitySpec.id).Nodup)
    (fresh : ∀ spec ∈ specs, spec.id ∉ present) (spec : ActivitySpec T) (member : spec ∈ specs) :
    acceptedSpec spec.id present specs = some spec := by
  induction specs generalizing present with
  | nil => cases member
  | cons head rest inductionHypothesis =>
    obtain ⟨headAbsent, restDistinct⟩ := List.nodup_cons.mp distinct
    have headFresh : head.id ∉ present := fresh head List.mem_cons_self
    rcases List.mem_cons.mp member with rfl | inRest
    · simp [acceptedSpec, headFresh]
    · have different : head.id ≠ spec.id := fun same =>
        headAbsent (List.mem_map.mpr ⟨spec, inRest, same.symm⟩)
      have restFresh : ∀ other ∈ rest, other.id ∉ head.id :: present := by
        intro other inside listed
        rcases List.mem_cons.mp listed with same | listed
        · exact headAbsent (List.mem_map.mpr ⟨other, inside, same⟩)
        · exact fresh other (List.mem_cons_of_mem head inside) listed
      simp [acceptedSpec, headFresh, different,
        inductionHypothesis (head.id :: present) restDistinct restFresh inRest]

/-- An id of no specification is not inserted by a batch. -/
theorem accepted_other (present : List T) (specs : List (ActivitySpec T)) (id : T)
    (other : id ∉ specs.map ActivitySpec.id) : acceptedSpec id present specs = none := by
  cases accepted : acceptedSpec id present specs with
  | none => rfl
  | some spec =>
    obtain ⟨member, same⟩ := accepted_id id present specs spec accepted
    exact absurd (List.mem_map.mpr ⟨spec, member, same⟩) other

/-- A batch whose first id is new leaves that id present, whatever follows. -/
theorem first_inserted (readings : T → Reading) (activities : Table T (Activity T))
    (first : ActivitySpec T) (rest : List (ActivitySpec T)) (fresh : first.id ∉ activities) :
    first.id ∈ (registerEach readings activities (first :: rest)).1 := by
  have unlisted : first.id ∉ activities.keys := fresh
  rw [← AList.lookup_isSome, register_each_lookup]
  simp [acceptedSpec, unlisted]

end SchedulerActor

/-- A batch that passes validation is answered with the actor's verdict. -/
theorem register_many_valid (actor : SchedulerActor T) (specs : List (ActivitySpec T))
    (readings : T → Reading) (valid : ∀ spec ∈ specs, spec.validate = .ok ()) :
    WithScheduler.registerMany actor specs readings =
      (⟨(SchedulerActor.registerEach readings actor.activities specs).1⟩,
        some ((SchedulerActor.registerEach readings actor.activities specs).2.mapError
          RitualistError.scheulerError)) := by
  simp [WithScheduler.registerMany, (validate_all_iff specs).mpr valid, SchedulerActor.send,
    WithScheduler.registration]

/-- A batch that fails validation is refused before anything is sent. -/
theorem register_many_invalid (actor : SchedulerActor T) (specs : List (ActivitySpec T))
    (readings : T → Reading) (invalid : ¬ ∀ spec ∈ specs, spec.validate = .ok ()) :
    ∃ error, WithScheduler.registerMany actor specs readings = (actor, some (.error error)) := by
  cases checked : forM specs ActivitySpec.validate with
  | ok value => exact absurd ((validate_all_iff specs).mp checked) invalid
  | error error => exact ⟨.activitySpecError error, by simp [WithScheduler.registerMany, checked]⟩

/-- An outcome refused without effect is a transaction when it had to be refused. -/
theorem Transaction.refused (actor : SchedulerActor T) (specs : List (ActivitySpec T))
    (readings : T → Reading) (error : RitualistError)
    (inadmissible : ¬ ((∀ spec ∈ specs, spec.validate = .ok ()) ∧
      (specs.map ActivitySpec.id).Nodup ∧ ∀ spec ∈ specs, spec.id ∉ actor.activities)) :
    Transaction actor specs readings (actor, some (.error error)) where
  answered := ⟨_, rfl⟩
  accepted := ⟨fun accepted => by simp at accepted, fun admissible => absurd admissible inadmissible⟩
  inserted accepted := by simp at accepted
  retained _ _ _ := rfl
  unchanged _ _ := rfl

/-- The actor's verdict on a valid batch is a transaction when the batch is
accepted, and when it is refused without effect. -/
theorem Transaction.verdict (actor : SchedulerActor T) (specs : List (ActivitySpec T))
    (readings : T → Reading) (valid : ∀ spec ∈ specs, spec.validate = .ok ())
    (refusedCleanly : (SchedulerActor.registerEach readings actor.activities specs).2 ≠ .ok () →
      (SchedulerActor.registerEach readings actor.activities specs).1 = actor.activities) :
    Transaction actor specs readings
      (⟨(SchedulerActor.registerEach readings actor.activities specs).1⟩,
        some ((SchedulerActor.registerEach readings actor.activities specs).2.mapError
          RitualistError.scheulerError)) := by
  have verdict := SchedulerActor.register_each_ok_iff readings specs actor.activities
  cases result : (SchedulerActor.registerEach readings actor.activities specs).2 with
  | error error =>
    have refused : (SchedulerActor.registerEach readings actor.activities specs).2 ≠ .ok () := by
      simp [result]
    rw [refusedCleanly refused]
    exact Transaction.refused actor specs readings (.scheulerError error)
      fun admissible => refused (verdict.mpr admissible.2)
  | ok value =>
    have admissible := verdict.mp result
    have looked := SchedulerActor.register_each_lookup readings specs actor.activities
    refine ⟨⟨_, rfl⟩, ⟨fun _ => ⟨valid, admissible⟩, fun _ => rfl⟩, fun _ spec member => ?_,
      fun _ id other => ?_, fun error refused => ?_⟩
    · rw [looked, SchedulerActor.accepted_member _ specs admissible.1 admissible.2 spec member]
    · rw [looked, SchedulerActor.accepted_other _ specs id other]
    · simp [Except.mapError] at refused

/-- A single registration is a transaction, for every map and specification. -/
theorem register_transaction (actor : SchedulerActor T) (spec : ActivitySpec T)
    (readings : T → Reading) :
    Transaction actor [spec] readings (WithScheduler.register actor spec readings) := by
  cases checked : spec.validate with
  | error error =>
    have outcome : WithScheduler.register actor spec readings =
        (actor, some (.error (.activitySpecError error))) := by
      simp [WithScheduler.register, checked]
    rw [outcome]
    exact Transaction.refused actor [spec] readings _ fun admissible => by
      simp [checked] at admissible
  | ok value =>
    have valid : ∀ other ∈ [spec], other.validate = .ok () := by simp [checked]
    have outcome : WithScheduler.register actor spec readings =
        WithScheduler.registerMany actor [spec] readings := by
      rw [register_many_valid actor [spec] readings valid]
      by_cases present : spec.id ∈ actor.activities <;>
        simp [WithScheduler.register, checked, SchedulerActor.send, WithScheduler.registration,
          SchedulerActor.registerEach, present]
    rw [outcome, register_many_valid actor [spec] readings valid]
    refine Transaction.verdict actor [spec] readings valid fun refused => ?_
    by_cases present : spec.id ∈ actor.activities
    · simp [SchedulerActor.registerEach, present]
    · simp [SchedulerActor.registerEach, present] at refused

/-- A batch registration is a transaction exactly when validation refuses it,
when it is accepted, or when its first id is already present. Every other batch
is refused after its first specification was inserted.

Refused at its first specification, a batch has inserted nothing. Otherwise the
first id is absent before the batch and present after it, so a refusal that left
the map unchanged is impossible. -/
theorem register_many_transaction_iff (actor : SchedulerActor T) (specs : List (ActivitySpec T))
    (readings : T → Reading) :
    Transaction actor specs readings (WithScheduler.registerMany actor specs readings) ↔
      (∃ spec ∈ specs, spec.validate ≠ .ok ()) ∨
        ((specs.map ActivitySpec.id).Nodup ∧ ∀ spec ∈ specs, spec.id ∉ actor.activities) ∨
          ∃ first rest, specs = first :: rest ∧ first.id ∈ actor.activities := by
  by_cases valid : ∀ spec ∈ specs, spec.validate = .ok ()
  · rw [register_many_valid actor specs readings valid]
    have verdict := SchedulerActor.register_each_ok_iff readings specs actor.activities
    constructor
    · intro transaction
      by_cases accepted : (SchedulerActor.registerEach readings actor.activities specs).2 = .ok ()
      · exact Or.inr (Or.inl (verdict.mp accepted))
      · refine Or.inr (Or.inr ?_)
        cases specs with
        | nil => simp [SchedulerActor.registerEach] at accepted
        | cons first rest =>
          refine ⟨first, rest, rfl, ?_⟩
          by_contra fresh
          have inserted := SchedulerActor.first_inserted readings actor.activities first rest fresh
          cases result : (SchedulerActor.registerEach readings actor.activities (first :: rest)).2 with
          | ok value => exact accepted result
          | error error =>
            have unchanged := transaction.unchanged (.scheulerError error)
              (by rw [result]; rfl)
            have sameMap : (SchedulerActor.registerEach readings actor.activities
                (first :: rest)).1 = actor.activities := congrArg SchedulerActor.activities unchanged
            rw [sameMap] at inserted
            exact fresh inserted
    · intro condition
      refine Transaction.verdict actor specs readings valid fun refused => ?_
      rcases condition with ⟨spec, member, invalid⟩ | admissible | ⟨first, rest, rfl, present⟩
      · exact absurd (valid spec member) invalid
      · exact absurd (verdict.mpr admissible) refused
      · simp [SchedulerActor.registerEach, present]
  · obtain ⟨error, outcome⟩ := register_many_invalid actor specs readings valid
    rw [outcome]
    refine ⟨fun _ => Or.inl (by simpa using valid), fun _ => ?_⟩
    exact Transaction.refused actor specs readings error fun admissible => valid admissible.1

/-- Every single registration is a transaction, and a batch is one exactly when
validation refuses it, when it is accepted, or when its first id is present. -/
theorem registration_exact (actor : SchedulerActor T) (readings : T → Reading) :
    (∀ spec, Transaction actor [spec] readings (WithScheduler.register actor spec readings)) ∧
      ∀ specs, Transaction actor specs readings (WithScheduler.registerMany actor specs readings) ↔
        (∃ spec ∈ specs, spec.validate ≠ .ok ()) ∨
          ((specs.map ActivitySpec.id).Nodup ∧ ∀ spec ∈ specs, spec.id ∉ actor.activities) ∨
            ∃ first rest, specs = first :: rest ∧ first.id ∈ actor.activities :=
  ⟨fun spec => register_transaction actor spec readings,
    fun specs => register_many_transaction_iff actor specs readings⟩

/-- With 1 registered, a batch of 2 and 1 is refused and leaves 2 registered. -/
theorem refused_batch_registers :
    ¬ Transaction (SchedulerActor.empty.run [⟨.register ⟨1, .fixedInterval 60⟩, fun _ => .least 0 0⟩])
      [⟨2, .fixedInterval 60⟩, ⟨1, .fixedInterval 60⟩] (fun _ => .least 0 0)
      (WithScheduler.registerMany
        (SchedulerActor.empty.run [⟨.register ⟨1, .fixedInterval 60⟩, fun _ => .least 0 0⟩])
        [⟨2, .fixedInterval 60⟩, ⟨1, .fixedInterval 60⟩] (fun _ => .least 0 0)) := by
  intro transaction
  have unchanged := transaction.unchanged (.scheulerError .activityAlreadyRegistered) rfl
  have sameEntry := congrArg (fun actor => (actor.activities.lookup 2).isSome) unchanged
  revert sameEntry
  decide

end Ritualist
