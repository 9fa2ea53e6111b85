import MergedMining.Slot

/-!
# The arithmetic of slots

Slots are computed in 32-bit words, where every step wraps around.  Since the number of leaves is a
power of two, the slot is the same as if the steps were done on natural numbers and only the result
reduced.

## Main definitions

* `Slot.mixed` — nonce and chain id mixed without wrapping around.

## Main results

* `slot_toNat` — the slot as a remainder of natural numbers.
-/

namespace MergedMining

/-- Nonce and chain id mixed without wrapping around. -/
def Slot.mixed (nonce : UInt32) (chainId : ChainId) : Nat :=
  1103515245 * (1103515245 * nonce.toNat + 12345 + chainId.toNat) + 12345

theorem Slot.mix_toNat (r : UInt32) :
    (Slot.mix r).toNat = (1103515245 * r.toNat + 12345) % 2 ^ 32 := by
  simp only [Slot.mix, UInt32.toNat_add, UInt32.toNat_mul, UInt32.reduceToNat]
  omega

theorem Slot.mix_mix_toNat (nonce : UInt32) (chainId : ChainId) :
    (Slot.mix (Slot.mix nonce + chainId)).toNat = Slot.mixed nonce chainId % 2 ^ 32 := by
  rw [Slot.mix_toNat, UInt32.toNat_add, Slot.mix_toNat, Slot.mixed]
  omega

/-- **The slot as a remainder of natural numbers**: the word arithmetic loses nothing, and from 32
levels on it reduces to a word. -/
theorem slot_toNat (nonce : UInt32) (chainId : ChainId) (height : Nat) :
    (slot nonce chainId height).toNat = Slot.mixed nonce chainId % 2 ^ min height 32 := by
  rw [slot]
  by_cases h : height < 32
  · have hsize : (UInt32.ofNat (2 ^ height)).toNat = 2 ^ height :=
      UInt32.toNat_ofNat_of_lt' (Nat.pow_lt_pow_right (by decide) h)
    -- the number of leaves divides that of words: reducing to a word first changes nothing
    have hdvd : 2 ^ height ∣ 2 ^ 32 := Nat.pow_dvd_pow 2 (Nat.le_of_lt h)
    rw [if_pos h, UInt32.toNat_mod, hsize, Slot.mix_mix_toNat, Nat.mod_mod_of_dvd _ hdvd,
      Nat.min_eq_left (Nat.le_of_lt h)]
  · rw [if_neg h, Slot.mix_mix_toNat, Nat.min_eq_right (Nat.le_of_not_lt h)]

end MergedMining
