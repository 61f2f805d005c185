import Mathlib.Data.List.Nodup
import Mathlib.Data.List.Perm.Basic

/-!
# Tokens handed out for an answer

A system hands tokens to parties of its own and waits for an answer to each. A
holder may answer once, with what it likes; it may give a token back without an
answer, by intent or by being lost; and a token may never be handed out. The
system then draws an outcome from what it got, with a default where it got nothing.

The outcome of a token is faithful if it is what its holder answered, or the
default for a token that nobody answered. Every move keeps outcomes faithful, and
no token is answered twice: `Sound`.
-/

universe u v

/-- The tokens of a system that waits for answers. -/
structure Custody (τ : Type u) (ρ : Type v) where
  /-- Every token that was handed out. -/
  given : List τ
  /-- The tokens that holders have. -/
  held : List τ
  /-- The answers of holders, oldest first. -/
  answers : List (τ × ρ)
  /-- The outcomes drawn, in any order. -/
  outcomes : List (τ × ρ)

namespace Custody

variable {τ : Type u} {ρ : Type v} {default : ρ}

/-- The moves of tokens. Where they stand in a list does not matter, and outcomes
may be forgotten. -/
inductive Move (default : ρ) (before after : Custody τ ρ) : Prop
  | hand (token : τ) (fresh : token ∉ before.given)
      (undrawn : ∀ entry ∈ before.outcomes, entry.1 ≠ token)
      (given : after.given = token :: before.given)
      (placed : after.held.Perm (token :: before.held)) (answers : after.answers = before.answers)
      (drawn : after.outcomes ⊆ before.outcomes)
  | answer (token : τ) (reply : ρ) (given : after.given = before.given)
      (taken : before.held.Perm (token :: after.held))
      (answers : after.answers = before.answers ++ [(token, reply)])
      (drawn : after.outcomes ⊆ (token, reply) :: before.outcomes)
  | giveBack (tokens : List τ) (given : after.given = before.given)
      (taken : before.held.Perm (tokens ++ after.held)) (answers : after.answers = before.answers)
      (drawn : after.outcomes ⊆ tokens.map (fun token => (token, default)) ++ before.outcomes)
  | withhold (token : τ) (fresh : token ∉ before.given) (given : after.given = before.given)
      (held : after.held = before.held) (answers : after.answers = before.answers)
      (drawn : after.outcomes ⊆ (token, default) :: before.outcomes)

/-- The outcome is what the token's holder answered, or the default for a token that
nobody answered. -/
def Faithful (default : ρ) (answers : List (τ × ρ)) (entry : τ × ρ) : Prop :=
  entry ∈ answers ∨ entry.2 = default ∧ entry.1 ∉ answers.map Prod.fst

/-- No token is answered twice, or while it is held; none that is held has an
outcome; and all outcomes are faithful. -/
structure Sound (default : ρ) (custody : Custody τ ρ) : Prop where
  once : (custody.held ++ custody.answers.map Prod.fst).Nodup
  handed : ∀ token ∈ custody.held ++ custody.answers.map Prod.fst, token ∈ custody.given
  undrawn : ∀ entry ∈ custody.outcomes, entry.1 ∉ custody.held
  faithful : ∀ entry ∈ custody.outcomes, Faithful default custody.answers entry

/-- A faithful outcome of another token stays so when a token is answered. -/
theorem Faithful.answered {answers : List (τ × ρ)} {entry : τ × ρ} {token : τ}
    (faithful : Faithful default answers entry) (other : entry.1 ≠ token) (reply : ρ) :
    Faithful default (answers ++ [(token, reply)]) entry := by
  rcases faithful with answered | ⟨silent, unanswered⟩
  · exact Or.inl (List.mem_append_left _ answered)
  · refine Or.inr ⟨silent, ?_⟩
    simpa [other] using unanswered

namespace Sound

/-- With no tokens handed out everything is sound. -/
theorem none_given : Sound default (⟨[], [], [], []⟩ : Custody τ ρ) := by
  constructor <;> simp

variable {before after : Custody τ ρ} (sound : before.Sound default)
include sound

/-- A fresh token can be handed out. -/
theorem hand (token : τ) (fresh : token ∉ before.given)
    (undrawn : ∀ entry ∈ before.outcomes, entry.1 ≠ token)
    (given : after.given = token :: before.given) (placed : after.held.Perm (token :: before.held))
    (answers : after.answers = before.answers) (drawn : after.outcomes ⊆ before.outcomes) :
    after.Sound default := by
  have parts : (after.held ++ after.answers.map Prod.fst).Perm
      (token :: (before.held ++ before.answers.map Prod.fst)) := by
    rw [answers]
    exact placed.append_right _
  constructor
  case once =>
    exact parts.nodup_iff.mpr
      (List.nodup_cons.mpr ⟨fun member => fresh (sound.handed token member), sound.once⟩)
  case handed =>
    intro other member
    rw [given]
    rcases List.mem_cons.mp (parts.mem_iff.mp member) with rfl | earlier
    · exact List.mem_cons_self
    · exact List.mem_cons_of_mem token (sound.handed other earlier)
  case undrawn =>
    intro entry outcome held
    rcases List.mem_cons.mp (placed.mem_iff.mp held) with same | earlier
    · exact undrawn entry (drawn outcome) same
    · exact sound.undrawn entry (drawn outcome) earlier
  case faithful =>
    intro entry outcome
    rw [answers]
    exact sound.faithful entry (drawn outcome)

/-- A holder can answer its token. -/
theorem answer (token : τ) (reply : ρ) (given : after.given = before.given)
    (taken : before.held.Perm (token :: after.held))
    (answers : after.answers = before.answers ++ [(token, reply)])
    (drawn : after.outcomes ⊆ (token, reply) :: before.outcomes) : after.Sound default := by
  have parts : (before.held ++ before.answers.map Prod.fst).Perm
      (after.held ++ after.answers.map Prod.fst) := by
    rw [answers, List.map_append, ← List.append_assoc]
    exact (taken.append_right _).trans (List.perm_append_singleton token _).symm
  have distinct := List.nodup_cons.mp
    ((taken.append_right (before.answers.map Prod.fst)).nodup_iff.mp sound.once)
  have held : token ∈ before.held := taken.mem_iff.mpr List.mem_cons_self
  constructor
  case once => exact parts.nodup_iff.mp sound.once
  case handed =>
    intro other member
    rw [given]
    exact sound.handed other (parts.mem_iff.mpr member)
  case undrawn =>
    intro entry outcome kept
    rcases List.mem_cons.mp (drawn outcome) with rfl | earlier
    · exact distinct.1 (List.mem_append_left _ kept)
    · exact sound.undrawn entry earlier (taken.mem_iff.mpr (List.mem_cons_of_mem token kept))
  case faithful =>
    intro entry outcome
    rw [answers]
    rcases List.mem_cons.mp (drawn outcome) with rfl | earlier
    · exact Or.inl (List.mem_append_right _ List.mem_cons_self)
    · refine (sound.faithful entry earlier).answered ?_ reply
      rintro rfl
      exact sound.undrawn entry earlier held

/-- Tokens can be given back, and then come to nothing but the default. -/
theorem giveBack (tokens : List τ) (given : after.given = before.given)
    (taken : before.held.Perm (tokens ++ after.held)) (answers : after.answers = before.answers)
    (drawn : after.outcomes ⊆ tokens.map (fun token => (token, default)) ++ before.outcomes) :
    after.Sound default := by
  have parts : (before.held ++ before.answers.map Prod.fst).Perm
      (tokens ++ (after.held ++ after.answers.map Prod.fst)) := by
    rw [answers, ← List.append_assoc]
    exact taken.append_right _
  obtain ⟨_, distinct, apart⟩ := List.nodup_append.mp (parts.nodup_iff.mp sound.once)
  constructor
  case once => exact distinct
  case handed =>
    intro other member
    rw [given]
    exact sound.handed other (parts.mem_iff.mpr (List.mem_append_right _ member))
  case undrawn =>
    intro entry outcome kept
    rcases List.mem_append.mp (drawn outcome) with returned | earlier
    · obtain ⟨token, named, rfl⟩ := List.mem_map.mp returned
      exact apart token named token (List.mem_append_left _ kept) rfl
    · exact sound.undrawn entry earlier (taken.mem_iff.mpr (List.mem_append_right _ kept))
  case faithful =>
    intro entry outcome
    rcases List.mem_append.mp (drawn outcome) with returned | earlier
    · obtain ⟨token, named, rfl⟩ := List.mem_map.mp returned
      exact Or.inr ⟨rfl, fun answered =>
        apart token named token (List.mem_append_right _ answered) rfl⟩
    · rw [answers]
      exact sound.faithful entry earlier

/-- A token that is never handed out comes to nothing but the default. -/
theorem withhold (token : τ) (fresh : token ∉ before.given) (given : after.given = before.given)
    (held : after.held = before.held) (answers : after.answers = before.answers)
    (drawn : after.outcomes ⊆ (token, default) :: before.outcomes) : after.Sound default := by
  constructor
  case once =>
    rw [held, answers]
    exact sound.once
  case handed =>
    rw [held, answers, given]
    exact sound.handed
  case undrawn =>
    intro entry outcome kept
    rw [held] at kept
    rcases List.mem_cons.mp (drawn outcome) with rfl | earlier
    · exact fresh (sound.handed token (List.mem_append_left _ kept))
    · exact sound.undrawn entry earlier kept
  case faithful =>
    intro entry outcome
    rw [answers]
    rcases List.mem_cons.mp (drawn outcome) with rfl | earlier
    · exact Or.inr ⟨rfl, fun answered => fresh (sound.handed token (List.mem_append_right _ answered))⟩
    · exact sound.faithful entry earlier

/-- Every move keeps custody sound. -/
theorem move (step : Move default before after) : after.Sound default := by
  cases step with
  | hand token fresh undrawn given placed answers drawn =>
    exact sound.hand token fresh undrawn given placed answers drawn
  | answer token reply given taken answers drawn =>
    exact sound.answer token reply given taken answers drawn
  | giveBack tokens given taken answers drawn =>
    exact sound.giveBack tokens given taken answers drawn
  | withhold token fresh given held answers drawn =>
    exact sound.withhold token fresh given held answers drawn

/-- The reply to a token is what its only answer says. -/
theorem answer_unique {token : τ} {reply other : ρ} (answered : (token, reply) ∈ before.answers)
    (outcome : (token, other) ∈ before.outcomes) : other = reply := by
  rcases sound.faithful (token, other) outcome with same | ⟨_, unanswered⟩
  · have distinct := (List.nodup_append.mp sound.once).2.1
    exact congrArg Prod.snd (List.inj_on_of_nodup_map distinct same answered rfl)
  · exact absurd (List.mem_map_of_mem answered) unanswered

end Sound

end Custody
