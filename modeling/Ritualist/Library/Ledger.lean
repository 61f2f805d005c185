import Mathlib.Data.List.Nodup

/-!
# Ledgers of tokens

A ledger says which tokens were issued, which of them are held somewhere, and
which were retired. Three moves change it: issuing new tokens, moving a held one
from place to place, and retiring a held one. Lists stand for multisets, so a
ledger that is sound loses no token and has none twice: `Sound`.

A system conserves its tokens when each of its steps is a move of its ledger. What
is counted of the tokens, under any condition, then balances, and
no token is retired twice.
-/

universe u v

/-- The tokens of a system. -/
structure Ledger (τ : Type u) where
  issued : List τ
  retired : List τ
  held : List τ

namespace Ledger

variable {τ : Type u}

/-- The moves of a ledger. Where tokens stand in a list does not matter. -/
inductive Move : Ledger τ → Ledger τ → Prop
  | issue {issued retired held held' : List τ} (tokens : List τ) (distinct : tokens.Nodup)
      (fresh : ∀ token ∈ tokens, token ∉ issued) (placed : held'.Perm (tokens ++ held)) :
      Move ⟨issued, retired, held⟩ ⟨issued ++ tokens, retired, held'⟩
  | move {issued retired held held' : List τ} (moved : held'.Perm held) :
      Move ⟨issued, retired, held⟩ ⟨issued, retired, held'⟩
  | retire {issued retired retired' held held' : List τ} (token : τ)
      (taken : held.Perm (token :: held')) (recorded : retired'.Perm (token :: retired)) :
      Move ⟨issued, retired, held⟩ ⟨issued, retired', held'⟩

/-- Every token issued is held or retired, and there is none twice. -/
structure Sound (ledger : Ledger τ) : Prop where
  conserved : ledger.issued.Perm (ledger.retired ++ ledger.held)
  distinct : ledger.issued.Nodup

/-- The ledger with no tokens is sound. -/
theorem empty_sound : (⟨[], [], []⟩ : Ledger τ).Sound := ⟨List.Perm.refl _, List.nodup_nil⟩

/-- Every move keeps a ledger sound. -/
theorem Sound.move {before after : Ledger τ} (sound : before.Sound) (step : Move before after) :
    after.Sound := by
  cases step with
  | issue tokens distinct fresh placed =>
    obtain ⟨conserved, once⟩ := sound
    refine ⟨?_, List.nodup_append.mpr ⟨once, distinct, ?_⟩⟩
    · apply (conserved.append_right tokens).trans
      rw [List.append_assoc]
      exact (List.perm_append_comm.trans placed.symm).append_left _
    · intro issued member token new same
      exact fresh token new (same ▸ member)
  | move moved => exact ⟨sound.conserved.trans (moved.symm.append_left _), sound.distinct⟩
  | retire token taken recorded =>
    refine ⟨sound.conserved.trans ((taken.append_left _).trans ?_), sound.distinct⟩
    exact List.perm_middle.trans (recorded.symm.append_right _)

namespace Sound

variable {ledger : Ledger τ} (sound : ledger.Sound)
include sound

/-- Tokens of any kind balance: those issued are those retired and those held. -/
theorem balance (kind : τ → Bool) :
    ledger.issued.countP kind = ledger.retired.countP kind + ledger.held.countP kind := by
  rw [sound.conserved.countP_eq kind, List.countP_append]

/-- No token is retired twice. -/
theorem retired_once : ledger.retired.Nodup :=
  (List.nodup_append.mp (sound.conserved.nodup_iff.mp sound.distinct)).1

/-- Only issued tokens are retired. -/
theorem retired_issued {token : τ} (member : token ∈ ledger.retired) : token ∈ ledger.issued :=
  sound.conserved.mem_iff.mpr (List.mem_append_left _ member)

end Sound

/-! ### Ledgers that lose tokens

A system that may drop tokens does not conserve them. It still has none twice if no
move makes more of any kind than it issues. -/

/-- The number of tokens of a kind that are held or retired. -/
def tally (ledger : Ledger τ) (kind : τ → Bool) : ℕ :=
  ledger.retired.countP kind + ledger.held.countP kind

/-- No token is held or retired more often than it was issued. -/
def Bounded (ledger : Ledger τ) : Prop := ∀ kind, ledger.tally kind ≤ ledger.issued.countP kind

/-- A bounded ledger of distinct tokens has none twice. -/
theorem Bounded.once [DecidableEq τ] {ledger : Ledger τ} (bounded : ledger.Bounded)
    (distinct : ledger.issued.Nodup) : (ledger.retired ++ ledger.held).Nodup := by
  refine List.nodup_iff_count_le_one.mpr fun token => ?_
  rw [List.count, List.countP_append]
  exact Nat.le_trans (bounded _) (List.nodup_iff_count_le_one.mp distinct token)

end Ledger
