import MergedMining.Power

/-!
# Byte strings

Byte strings are lists of bytes, and every fixed-width number of the formats in this library is
written least significant byte first.  This module holds the two directions of that reading.

## Main definitions

* `Bytes` — byte strings.
* `Bytes.toNatLE`, `Bytes.ofNatLE` — the number a byte string spells, and its spelling in a given
  number of bytes.

## Main results

* `Bytes.toNatLE_ofNatLE`, `Bytes.ofNatLE_toNatLE` — spelling and reading are inverse, up to the
  width.
-/

namespace MergedMining

/-- A byte string, first byte first. -/
abbrev Bytes := List UInt8

namespace Bytes

/-- The number a byte string spells, least significant byte first. -/
def toNatLE : Bytes → Nat
  | [] => 0
  | b :: bs => b.toNat + 256 * toNatLE bs

/-- The `width` low bytes of a number, least significant byte first. -/
def ofNatLE : (width : Nat) → (n : Nat) → Bytes
  | 0, _ => []
  | width + 1, n => UInt8.ofNat n :: ofNatLE width (n / 256)

@[simp] theorem length_ofNatLE (width n : Nat) : (ofNatLE width n).length = width := by
  induction width generalizing n with
  | zero => rfl
  | succ width ih => simp [ofNatLE, ih]

/-- A byte string of `n` bytes spells a number below `256 ^ n`. -/
theorem toNatLE_lt (bs : Bytes) : toNatLE bs < 256 ^ bs.length := by
  induction bs with
  | nil => simp [toNatLE]
  | cons b bs ih =>
    have hb : b.toNat < 256 := b.toNat_lt
    simp only [toNatLE, List.length_cons, Nat.pow_succ]
    omega

/-- Reading a spelling gives the number back, as far as the width reaches. -/
theorem toNatLE_ofNatLE (width n : Nat) : toNatLE (ofNatLE width n) = n % 256 ^ width := by
  induction width generalizing n with
  | zero => simp [ofNatLE, toNatLE, Nat.mod_one]
  | succ width ih =>
    simp only [ofNatLE, toNatLE, ih, UInt8.toNat_ofNat', Nat.reducePow]
    rw [Nat.pow_succ', Nat.mod_mul]

/-- Spelling what a byte string reads as gives the byte string back. -/
theorem ofNatLE_toNatLE (bs : Bytes) : ofNatLE bs.length (toNatLE bs) = bs := by
  induction bs with
  | nil => rfl
  | cons b bs ih =>
    have hb : b.toNat < 256 := b.toNat_lt
    have hdiv : (b.toNat + 256 * toNatLE bs) / 256 = toNatLE bs := by omega
    simp only [List.length_cons, ofNatLE, toNatLE, hdiv, ih, List.cons.injEq, and_true]
    apply UInt8.toNat_inj.mp
    simp only [UInt8.toNat_ofNat']
    omega

/-! ### Words -/

/-- The four bytes of a 32-bit word. -/
def ofUInt32 (w : UInt32) : Bytes := ofNatLE 4 w.toNat

/-- The eight bytes of a 64-bit word. -/
def ofUInt64 (w : UInt64) : Bytes := ofNatLE 8 w.toNat

/-- The 32-bit word the bytes spell; bytes past the fourth are lost. -/
def toUInt32 (bs : Bytes) : UInt32 := UInt32.ofNat (toNatLE bs)

/-- The 64-bit word the bytes spell; bytes past the eighth are lost. -/
def toUInt64 (bs : Bytes) : UInt64 := UInt64.ofNat (toNatLE bs)

@[simp] theorem length_ofUInt32 (w : UInt32) : (ofUInt32 w).length = 4 := length_ofNatLE ..

@[simp] theorem length_ofUInt64 (w : UInt64) : (ofUInt64 w).length = 8 := length_ofNatLE ..

/-- A 32-bit word is read back from its bytes. -/
@[simp] theorem toUInt32_ofUInt32 (w : UInt32) : toUInt32 (ofUInt32 w) = w := by
  apply UInt32.toNat_inj.mp
  have hw : w.toNat < 4294967296 := w.toNat_lt
  simp only [toUInt32, ofUInt32, toNatLE_ofNatLE, UInt32.toNat_ofNat']
  omega

/-- A 64-bit word is read back from its bytes. -/
@[simp] theorem toUInt64_ofUInt64 (w : UInt64) : toUInt64 (ofUInt64 w) = w := by
  apply UInt64.toNat_inj.mp
  have hw : w.toNat < 18446744073709551616 := w.toNat_lt
  simp only [toUInt64, ofUInt64, toNatLE_ofNatLE, UInt64.toNat_ofNat']
  omega

/-- A 32-bit word is determined by its bytes. -/
theorem ofUInt32_inj {v w : UInt32} (h : ofUInt32 v = ofUInt32 w) : v = w := by
  rw [← toUInt32_ofUInt32 v, h, toUInt32_ofUInt32]

/-- Four bytes spell a number that is a word. -/
theorem toNat_toUInt32 {bs : Bytes} (h : bs.length = 4) : (toUInt32 bs).toNat = toNatLE bs := by
  have hlt : toNatLE bs < 256 ^ 4 := h ▸ toNatLE_lt bs
  simp only [toUInt32, UInt32.toNat_ofNat']
  omega

/-- Four bytes are the spelling of the word they read as. -/
theorem ofUInt32_toUInt32 {bs : Bytes} (h : bs.length = 4) : ofUInt32 (toUInt32 bs) = bs := by
  rw [ofUInt32, toNat_toUInt32 h, ← h, ofNatLE_toNatLE]

/-- Eight bytes are the spelling of the word they read as. -/
theorem ofUInt64_toUInt64 {bs : Bytes} (h : bs.length = 8) : ofUInt64 (toUInt64 bs) = bs := by
  have hlt : toNatLE bs < 256 ^ 8 := h ▸ toNatLE_lt bs
  have hnat : (toUInt64 bs).toNat = toNatLE bs := by
    simp only [toUInt64, UInt64.toNat_ofNat']
    omega
  rw [ofUInt64, hnat, ← h, ofNatLE_toNatLE]

end Bytes

end MergedMining
