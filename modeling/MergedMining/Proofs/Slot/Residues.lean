import Mathlib.Data.Fintype.EquivFin
import Mathlib.Data.Nat.ModEq
import MergedMining.Proofs.Slot

/-!
# Slots as residues

A slot is mixed in two linear steps, and the multiplier of a step is odd.  Modulo a power of two
every step can therefore be taken back: chains whose ids differ modulo the number of leaves never
share a leaf under one nonce, and a chain has as many leaves to choose from as there are residues of
the nonce.

## Main results

* `Slot.step_modEq_iff` — one step keeps residues apart.
* `Slot.mixed_modEq_iff`, `Slot.mixed_modEq_iff_nonce` — so do both, in the chain id and in the
  nonce.
* `Slot.slot_eq_iff_chainId`, `Slot.slot_eq_iff_nonce` — when two slots are one leaf.
* `Slot.existsUnique_in_run` — a run of words meets every residue once.
* `slot_bijective` — the slot as a remainder, one to one in the chain id and in the nonce.
-/

namespace MergedMining

namespace Slot

/-- **One step keeps residues apart**, since the multiplier is odd. -/
theorem step_modEq_iff (x y height : Nat) :
    1103515245 * x + 12345 ≡ 1103515245 * y + 12345 [MOD 2 ^ height] ↔
      x ≡ y [MOD 2 ^ height] := by
  constructor
  · intro h
    have hodd : Nat.Coprime (2 ^ height) 1103515245 := Nat.Coprime.pow_left height (by decide)
    have hmul := Nat.ModEq.add_right_cancel' 12345 h
    exact hmul.cancel_left_of_coprime hodd.gcd_eq_one
  · intro h
    exact (h.mul_left _).add_right _

/-- **Mixing keeps residues apart**: modulo a power of two the chain id can be read back. -/
theorem mixed_modEq_iff (nonce : UInt32) (chainId₁ chainId₂ : ChainId) (height : Nat) :
    mixed nonce chainId₁ ≡ mixed nonce chainId₂ [MOD 2 ^ height] ↔
      chainId₁.toNat ≡ chainId₂.toNat [MOD 2 ^ height] := by
  unfold mixed
  rw [step_modEq_iff]
  constructor
  · intro h
    exact h.add_left_cancel' _
  · intro h
    exact h.add_left _

/-- The nonce is taken through both steps, and can be read back from behind them. -/
theorem mixed_modEq_iff_nonce (nonce₁ nonce₂ : UInt32) (chainId : ChainId) (height : Nat) :
    mixed nonce₁ chainId ≡ mixed nonce₂ chainId [MOD 2 ^ height] ↔
      nonce₁.toNat ≡ nonce₂.toNat [MOD 2 ^ height] := by
  unfold mixed
  rw [step_modEq_iff]
  constructor
  · intro h
    exact (step_modEq_iff ..).mp (h.add_right_cancel' _)
  · intro h
    exact ((step_modEq_iff ..).mpr h).add_right _

theorem slot_eq_iff (nonce₁ nonce₂ : UInt32) (chainId₁ chainId₂ : ChainId) (height : Nat) :
    slot nonce₁ chainId₁ height = slot nonce₂ chainId₂ height ↔
      mixed nonce₁ chainId₁ ≡ mixed nonce₂ chainId₂ [MOD 2 ^ min height 32] := by
  rw [← UInt32.toNat_inj, slot_toNat, slot_toNat]
  rfl

theorem slot_eq_iff_chainId (nonce : UInt32) (chainId₁ chainId₂ : ChainId) (height : Nat) :
    slot nonce chainId₁ height = slot nonce chainId₂ height ↔
      chainId₁.toNat ≡ chainId₂.toNat [MOD 2 ^ min height 32] := by
  rw [slot_eq_iff, mixed_modEq_iff]

theorem slot_eq_iff_nonce (nonce₁ nonce₂ : UInt32) (chainId : ChainId) (height : Nat) :
    slot nonce₁ chainId height = slot nonce₂ chainId height ↔
      nonce₁.toNat ≡ nonce₂.toNat [MOD 2 ^ min height 32] := by
  rw [slot_eq_iff, mixed_modEq_iff_nonce]

theorem slot_toNat_lt (nonce : UInt32) (chainId : ChainId) (height : Nat) :
    (slot nonce chainId height).toNat < 2 ^ min height 32 := by
  rw [slot_toNat]
  exact Nat.mod_lt _ (Nat.two_pow_pos _)

/-! ### Runs of words -/

/-- A word of a run is congruent to its distance from the start, wherever the run wraps around. -/
theorem run_modEq {bits : Nat} (hbits : bits ≤ 32) (start : UInt32) (i : Nat) :
    (start + UInt32.ofNat i).toNat ≡ start.toNat + i [MOD 2 ^ bits] := by
  have hdvd : 2 ^ bits ∣ 2 ^ 32 := Nat.pow_dvd_pow 2 hbits
  have hword : (start + UInt32.ofNat i).toNat ≡ start.toNat + i [MOD 2 ^ 32] := by
    rw [UInt32.toNat_add, UInt32.toNat_ofNat']
    exact (Nat.mod_modEq _ _).trans ((Nat.mod_modEq _ _).add_left _)
  exact hword.of_dvd hdvd

/-- **A run of words meets every residue once.**  A function of words that keeps exactly their
residues apart is one to one on `2 ^ bits` words in a row, and there are no more than `2 ^ bits`
values for them. -/
theorem existsUnique_in_run {bits : Nat} (hbits : bits ≤ 32) {f : UInt32 → UInt32}
    (hlt : ∀ w, (f w).toNat < 2 ^ bits)
    (hf : ∀ v w, f v = f w ↔ v.toNat ≡ w.toNat [MOD 2 ^ bits]) (start : UInt32) {leaf : Nat}
    (hleaf : leaf < 2 ^ bits) :
    ∃! i, i < 2 ^ bits ∧ (f (start + UInt32.ofNat i)).toNat = leaf := by
  have hinj : Function.Injective fun i : Fin (2 ^ bits) =>
      (⟨(f (start + UInt32.ofNat i)).toNat, hlt _⟩ : Fin (2 ^ bits)) := by
    intro i j h
    have hword := (hf _ _).mp (UInt32.toNat_inj.mp (Fin.mk.inj h))
    have hsum := ((run_modEq hbits start i).symm.trans hword).trans (run_modEq hbits start j)
    exact Fin.ext ((hsum.add_left_cancel' _).eq_of_lt_of_lt i.isLt j.isLt)
  -- one to one on a finite set of its own values, it takes each of them
  obtain ⟨i, hi, honly⟩ := hinj.bijective_of_finite.existsUnique ⟨leaf, hleaf⟩
  refine ⟨i, ⟨i.isLt, congrArg Fin.val hi⟩, fun j hj => ?_⟩
  exact congrArg Fin.val (honly ⟨j, hj.1⟩ (Fin.ext hj.2))

end Slot

open Slot

/-- **The slot is one to one in the chain id and in the nonce.**  It is the mixed number modulo the
number of leaves, which is `2 ^ height` up to the width of a word.  Under one nonce two chains take
one leaf exactly if their ids are congruent modulo that number, and so do two nonces for one chain.
Hence as many ids in a row as there are leaves, or as many nonces, take every leaf once. -/
theorem slot_bijective (nonce : UInt32) (chainId : ChainId) (height : Nat) :
    (slot nonce chainId height).toNat =
        (1103515245 * (1103515245 * nonce.toNat + 12345 + chainId.toNat) + 12345) %
          2 ^ min height 32 ∧
      (slot nonce chainId height).toNat < 2 ^ min height 32 ∧
      (∀ chainId', slot nonce chainId height = slot nonce chainId' height ↔
        chainId.toNat ≡ chainId'.toNat [MOD 2 ^ min height 32]) ∧
      (∀ nonce', slot nonce chainId height = slot nonce' chainId height ↔
        nonce.toNat ≡ nonce'.toNat [MOD 2 ^ min height 32]) ∧
      (∀ leaf < 2 ^ min height 32, ∃! i, i < 2 ^ min height 32 ∧
        (slot nonce (chainId + UInt32.ofNat i) height).toNat = leaf) ∧
      (∀ leaf < 2 ^ min height 32, ∃! i, i < 2 ^ min height 32 ∧
        (slot (nonce + UInt32.ofNat i) chainId height).toNat = leaf) := by
  have hbits : min height 32 ≤ 32 := Nat.min_le_right ..
  refine ⟨slot_toNat .., slot_toNat_lt .., fun chainId' => slot_eq_iff_chainId ..,
    fun nonce' => slot_eq_iff_nonce .., ?ids, ?nonces⟩
  case ids =>
    intro leaf hleaf
    exact existsUnique_in_run hbits (fun c => slot_toNat_lt nonce c height)
      (fun c c' => slot_eq_iff_chainId nonce c c' height) chainId hleaf
  case nonces =>
    intro leaf hleaf
    exact existsUnique_in_run hbits (fun n => slot_toNat_lt n chainId height)
      (fun n n' => slot_eq_iff_nonce n n' chainId height) nonce hleaf

end MergedMining
