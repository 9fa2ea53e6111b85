import Mathlib.Data.Nat.Bitwise
import MergedMining.Version

/-!
# The fields of a version as numbers

The fields of a version are cut out of a 32-bit word with masks and shifts.  Here they are read off
the number that the word stands for: the chain id is a quotient, the flag one of its bits.

## Main results

* `Version.Layout.decode_chainId_toNat` — the chain id is what is left above the shift.
* `Version.Layout.decode_merged` — the flag is the bit at its position.
-/

namespace MergedMining.Version.Layout

theorem toNat_ofNat_mod {i : Nat} (h : i < 32) : (UInt32.ofNat i).toNat % 32 = i := by
  rw [UInt32.toNat_ofNat_of_lt' (Nat.lt_trans h (by decide)), Nat.mod_eq_of_lt h]

theorem toNat_one_shiftLeft {i : Nat} (h : i < 32) :
    ((1 : UInt32) <<< UInt32.ofNat i).toNat = 2 ^ i := by
  have hlt : 2 ^ i < 2 ^ 32 := Nat.pow_lt_pow_right (by decide) h
  rw [UInt32.toNat_shiftLeft, toNat_ofNat_mod h, UInt32.toNat_one, Nat.one_shiftLeft,
    Nat.mod_eq_of_lt hlt]

variable (layout : Layout)

theorem flagBit_lt_32 : layout.flagBit < 32 := Nat.lt_trans layout.flagBit_lt layout.shift_lt

theorem flagMask_toNat : layout.flagMask.toNat = 2 ^ layout.flagBit :=
  toNat_one_shiftLeft layout.flagBit_lt_32

/-- Positions fit into bytes, so that a layout is found again from its own. -/
theorem ofPositions_ofNat :
    ofPositions (UInt8.ofNat layout.flagBit) (UInt8.ofNat layout.shift) = .ok layout := by
  have hflag := layout.flagBit_lt
  have hshift := layout.shift_lt
  have hflagNat : (UInt8.ofNat layout.flagBit).toNat = layout.flagBit :=
    UInt8.toNat_ofNat_of_lt' (Nat.lt_trans layout.flagBit_lt_32 (by decide))
  have hshiftNat : (UInt8.ofNat layout.shift).toNat = layout.shift :=
    UInt8.toNat_ofNat_of_lt' (Nat.lt_trans hshift (by decide))
  simp [ofPositions, hflagNat, hshiftNat, hflag, hshift]

/-- **The chain id** is what is left of the version above the shift. -/
theorem decode_chainId_toNat (version : Version) :
    (layout.decode version).chainId.toNat = version.toNat / 2 ^ layout.shift := by
  rw [decode, UInt32.toNat_shiftRight, toNat_ofNat_mod layout.shift_lt,
    Nat.shiftRight_eq_div_pow]

/-- **The flag** is the bit of the version at the flag's position. -/
theorem decode_merged (version : Version) :
    (layout.decode version).merged = version.toNat.testBit layout.flagBit := by
  -- masking leaves the flag's power of two, or nothing
  have hmasked : (version &&& layout.flagMask).toNat =
      2 ^ layout.flagBit * (version.toNat.testBit layout.flagBit).toNat := by
    rw [UInt32.toNat_and, flagMask_toNat, Nat.and_comm, Nat.two_pow_and]
  rw [decode, bne, Bool.eq_iff_iff, Bool.not_eq_true', beq_eq_false_iff_ne, Ne,
    ← UInt32.toNat_inj, hmasked, UInt32.toNat_zero]
  cases version.toNat.testBit layout.flagBit with
  | false => simp
  | true => simp

end MergedMining.Version.Layout
