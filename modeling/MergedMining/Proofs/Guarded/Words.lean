import MergedMining.Proofs.Target.Expansion
import MergedMining.Proofs.Version.Packing

/-!
# Words that stay in their range

On a machine, numbers are words: a difference must not fall below zero, a product must not outgrow
the word, a shift must move by less than the width, and a program that leaves such a range stops.
Here the arithmetic of versions, slots and targets is done once more on words, in steps that are
*guarded*: outside its range a step has no value.  All of it has a value, and the value is that of
the functions this library runs.

## Main definitions

* `Guarded.within` — a step that is done only in its range.
* `Guarded.decodeVersion`, `Guarded.slot`, `Guarded.decodeTarget`, … — the arithmetic in guarded
  steps.

## Main results

* `Guarded.decodeVersion_eq`, `Guarded.slot_eq`, `Guarded.decodeTarget_eq`, … — every step is done
  in its range, and the result is the known one.
-/

namespace MergedMining.Guarded

open Target (kept_toNat mantissa_toNat sign_iff size_toNat)
open Version (Layout)

/-! ### Steps -/

/-- The value of a step that is done in its range; outside there is none. -/
def within {α : Type} (range : Prop) [Decidable range] (value : α) : Option α :=
  if range then some value else none

theorem within_of {α : Type} {range : Prop} [Decidable range] (h : range) (value : α) :
    within range value = some value := if_pos h

/-- A difference must not fall below zero. -/
def sub (v w : UInt32) : Option UInt32 := within (w ≤ v) (v - w)

/-- A product must fit into the word. -/
def mul (v w : UInt32) : Option UInt32 := within (v.toNat * w.toNat < UInt32.size) (v * w)

/-- A divisor must not be zero. -/
def rem (v w : UInt32) : Option UInt32 := within (w ≠ 0) (v % w)

/-- A word is moved by less than its width. -/
def shiftLeft (w : UInt32) (amount : Nat) : Option UInt32 :=
  within (amount < 32) (w <<< UInt32.ofNat amount)

/-- A word is moved by less than its width. -/
def shiftRight (w : UInt32) (amount : Nat) : Option UInt32 :=
  within (amount < 32) (w >>> UInt32.ofNat amount)

/-- A double word is moved by less than its width. -/
def shiftLeft64 (w : UInt64) (amount : Nat) : Option UInt64 :=
  within (amount < 64) (w <<< UInt64.ofNat amount)

/-- A number that becomes a word must fit into it. -/
def narrow (n : Nat) : Option UInt32 := within (n < UInt32.size) (UInt32.ofNat n)

/-! ### Versions -/

/-- The flag's bit set alone. -/
def flagMask (layout : Layout) : Option UInt32 := shiftLeft 1 layout.flagBit

/-- The bits that belong to the base version. -/
def baseMask (layout : Layout) : Option UInt32 := do
  let power ← shiftLeft 1 layout.shift
  let low ← sub power 1
  let flag ← flagMask layout
  return low &&& ~~~flag

/-- The fields of a version. -/
def decodeVersion (layout : Layout) (version : Version) : Option Version.Fields := do
  let mask ← baseMask layout
  let chainId ← shiftRight version layout.shift
  let flag ← flagMask layout
  return ⟨version &&& mask, chainId, version &&& flag != 0⟩

theorem flagMask_eq (layout : Layout) : flagMask layout = some layout.flagMask :=
  within_of layout.flagBit_lt_32 _

theorem baseMask_eq (layout : Layout) : baseMask layout = some layout.baseMask := by
  have hpower : shiftLeft 1 layout.shift = some (1 <<< UInt32.ofNat layout.shift) :=
    within_of layout.shift_lt _
  have hlow : sub (1 <<< UInt32.ofNat layout.shift) 1 =
      some (1 <<< UInt32.ofNat layout.shift - 1) := within_of layout.one_le_shifted _
  rw [baseMask, hpower, Option.bind_eq_bind, Option.bind_some, hlow, flagMask_eq]
  rfl

/-- **Versions are unpacked in range**: a layout keeps both amounts below the width. -/
theorem decodeVersion_eq (layout : Layout) (version : Version) :
    decodeVersion layout version = some (layout.decode version) := by
  have hshift : shiftRight version layout.shift = some (version >>> UInt32.ofNat layout.shift) :=
    within_of layout.shift_lt _
  rw [decodeVersion, baseMask_eq, hshift, flagMask_eq]
  rfl

/-! ### Slots -/

/-- The leaf of a chain.  From 32 levels on there is no word for the number of leaves, and the
shift is not done. -/
def slot (nonce : UInt32) (chainId : ChainId) (height : UInt32) : Option UInt32 :=
  let mixed := Slot.mix (Slot.mix nonce + chainId)
  if height < 32 then do
    let leaves ← shiftLeft 1 height.toNat
    rem mixed leaves
  else some mixed

/-- **Slots are computed in range**: the number of leaves is a word, and not zero. -/
theorem slot_eq (nonce : UInt32) (chainId : ChainId) (height : UInt32) :
    slot nonce chainId height = some (MergedMining.slot nonce chainId height.toNat) := by
  rw [slot, MergedMining.slot]
  by_cases h : height.toNat < 32
  · have hleaves :
        (1 : UInt32) <<< UInt32.ofNat height.toNat = UInt32.ofNat (2 ^ height.toNat) := by
      have hlt : 2 ^ height.toNat < UInt32.size := Nat.pow_lt_pow_right (by decide) h
      rw [← UInt32.toNat_inj, Layout.toNat_one_shiftLeft h, UInt32.toNat_ofNat_of_lt' hlt]
    have hpositive : UInt32.ofNat (2 ^ height.toNat) ≠ 0 := by
      rw [← hleaves, Ne, ← UInt32.toNat_inj, Layout.toNat_one_shiftLeft h]
      exact Nat.ne_of_gt (Nat.two_pow_pos _)
    rw [if_pos (UInt32.lt_iff_toNat_lt.mpr h), if_pos h, shiftLeft, within_of h, hleaves]
    exact within_of hpositive _
  · rw [if_neg (mt UInt32.lt_iff_toNat_lt.mp h), if_neg h]

/-- Whether a tree of `height` levels has `size` leaves, in double words.  From 64 levels on the
shift is not done, and no size fits. -/
def spansTree (height size : UInt32) : Option Bool :=
  if height < 64 then do
    let leaves ← shiftLeft64 1 height.toNat
    return leaves == size.toUInt64
  else some false

/-- **Sizes are compared in range**, and the double word is exactly the power of two. -/
theorem spansTree_eq (height size : UInt32) :
    spansTree height size =
      some (decide (height.toNat < 64) && size.toNat == 2 ^ height.toNat) := by
  rw [spansTree]
  by_cases h : height.toNat < 64
  · have hleaves : ((1 : UInt64) <<< UInt64.ofNat height.toNat).toNat = 2 ^ height.toNat := by
      have hlt : 2 ^ height.toNat < 2 ^ 64 := Nat.pow_lt_pow_right (by decide) h
      have hamount : (UInt64.ofNat height.toNat).toNat % 64 = height.toNat := by
        rw [UInt64.toNat_ofNat_of_lt' (Nat.lt_trans h (by decide)), Nat.mod_eq_of_lt h]
      rw [UInt64.toNat_shiftLeft, hamount, UInt64.toNat_one, Nat.one_shiftLeft,
        Nat.mod_eq_of_lt hlt]
    rw [if_pos (UInt32.lt_iff_toNat_lt.mpr h), shiftLeft64, within_of h, decide_eq_true h,
      Bool.true_and]
    refine congrArg some ?_
    rw [Bool.eq_iff_iff, beq_iff_eq, beq_iff_eq, ← UInt64.toNat_inj, hleaves,
      UInt32.toNat_toUInt64, eq_comm]
  · rw [if_neg (mt UInt32.lt_iff_toNat_lt.mp h), decide_eq_false h, Bool.false_and]

/-! ### Targets -/

/-- A word without its last bytes: a size of at most three bytes keeps only that many. -/
def cut (word size : UInt32) : Option UInt32 := do
  let missing ← sub 3 size
  let amount ← mul 8 missing
  shiftRight word amount.toNat

/-- The leading bytes as far as the size keeps them. -/
def leading (word size : UInt32) : Option UInt32 :=
  if size ≤ 3 then cut word size else some word

/-- A shift of 256-bit numbers, which wraps around, so that every amount is in its range.  Leading
bytes with a sign bit give zero. -/
def spread (word amount : UInt32) : Nat :=
  if word > 0x7fffff then 0
  else word.toNat * 2 ^ (amount.toNat % Target.width) % 2 ^ Target.width

/-- The number a compact word expands to. -/
def expand (bits : UInt32) : Option Nat :=
  let size := bits >>> 24
  let kept := bits &&& 0xffffff
  if size ≤ 3 then do
    let word ← cut kept size
    return spread word 0
  else do
    let more ← sub size 3
    let amount ← mul 8 more
    return spread kept amount

/-- The target of a compact word that spells one. -/
def decodeTarget (bits : UInt32) : Option (Except TargetError Nat) := do
  let size := bits >>> 24
  let word ← leading (bits &&& 0x7fffff) size
  if word = 0 then return .error (.zero bits)
  else if bits &&& 0x800000 ≠ 0 then return .error (.negative bits)
  else if size > 34 ∨ (word > 0xff ∧ size > 33) ∨ (word > 0xffff ∧ size > 32) then
    return .error (.overflow bits)
  else do
    let target ← expand bits
    return .ok target

theorem size_le_iff (bits : UInt32) : bits >>> 24 ≤ 3 ↔ Target.size bits ≤ 3 := by
  rw [UInt32.le_iff_toNat_le, size_toNat]
  rfl

theorem size_lt (bits : UInt32) : Target.size bits < 256 := by
  have := bits.toNat_lt
  rw [Target.size]
  omega

/-- A number of bits that is eight times a number of bytes fits into a word. -/
theorem mul_eight (bytes : UInt32) (h : bytes.toNat < 256) :
    mul 8 bytes = some (8 * bytes) ∧ (8 * bytes).toNat = 8 * bytes.toNat := by
  have hproduct : (8 : UInt32).toNat * bytes.toNat < UInt32.size := by
    change 8 * bytes.toNat < 4294967296
    omega
  exact ⟨within_of hproduct _, by rw [UInt32.toNat_mul, Nat.mod_eq_of_lt hproduct]; rfl⟩

/-- At most three bytes are missing, and they are moved out by less than a word. -/
theorem exists_cut_eq (word : UInt32) {size : UInt32} (h : size ≤ 3) :
    ∃ rest, cut word size = some rest ∧
      rest.toNat = word.toNat / 2 ^ (8 * (3 - size.toNat)) := by
  have hmissing : (3 - size).toNat = 3 - size.toNat := UInt32.toNat_sub_of_le _ _ h
  obtain ⟨hmul, hamount⟩ := mul_eight (3 - size) (by omega)
  have hwidth : (8 * (3 - size)).toNat < 32 := by omega
  refine ⟨word >>> UInt32.ofNat (8 * (3 - size)).toNat, ?_, ?_⟩
  · rw [cut, sub, within_of h, Option.bind_eq_bind, Option.bind_some, hmul, Option.bind_some]
    exact within_of hwidth _
  · rw [UInt32.toNat_shiftRight, Layout.toNat_ofNat_mod hwidth, hamount, hmissing,
      Nat.shiftRight_eq_div_pow]

theorem exists_leading_eq (bits : UInt32) :
    ∃ word, leading (bits &&& 0x7fffff) (bits >>> 24) = some word ∧
      word.toNat = Target.leading bits := by
  rw [leading, Target.leading]
  by_cases h : Target.size bits ≤ 3
  · rw [if_pos ((size_le_iff bits).mpr h), if_pos h, ← size_toNat, ← mantissa_toNat]
    exact exists_cut_eq _ ((size_le_iff bits).mpr h)
  · rw [if_neg (mt (size_le_iff bits).mp h), if_neg h]
    exact ⟨_, rfl, mantissa_toNat bits⟩

/-- **Compact words are expanded in range**, whatever word a limit is. -/
theorem expand_eq (bits : UInt32) : expand bits = some (Target.ofCompact bits) := by
  rw [expand, Target.ofCompact]
  by_cases h : Target.size bits ≤ 3
  · obtain ⟨word, hcut, hword⟩ := exists_cut_eq (bits &&& 0xffffff)
      ((size_le_iff bits).mpr h)
    rw [kept_toNat, size_toNat] at hword
    simp only [if_pos ((size_le_iff bits).mpr h), if_pos h, hcut, Option.bind_eq_bind,
      Option.bind_some, Option.pure_def, spread, hword, GT.gt, UInt32.lt_iff_toNat_lt]
    rfl
  · have hle : (3 : UInt32) ≤ bits >>> 24 := by
      rw [UInt32.le_iff_toNat_le, size_toNat]
      exact Nat.le_of_not_le h
    have hsub : sub (bits >>> 24) 3 = some (bits >>> 24 - 3) := within_of hle _
    have hmore : (bits >>> 24 - 3).toNat = Target.size bits - 3 := by
      rw [UInt32.toNat_sub_of_le _ _ hle, size_toNat]
      rfl
    have hlt := size_lt bits
    obtain ⟨hmul, hamount⟩ := mul_eight (bits >>> 24 - 3) (by omega)
    simp only [if_neg (mt (size_le_iff bits).mp h), if_neg h, hsub, hmul, Option.bind_eq_bind,
      Option.bind_some, Option.pure_def, spread, hamount, hmore, kept_toNat, GT.gt,
      UInt32.lt_iff_toNat_lt]
    rfl

/-- **Compact words are decoded in range.** -/
theorem decodeTarget_eq (bits : UInt32) : decodeTarget bits = some (Target.decode bits) := by
  obtain ⟨word, hleading, hword⟩ := exists_leading_eq bits
  have hzero : word = 0 ↔ Target.leading bits = 0 := by
    rw [← hword, ← UInt32.toNat_inj, UInt32.toNat_zero]
  have hover : (bits >>> 24 > 34 ∨ (word > 0xff ∧ bits >>> 24 > 33) ∨
      (word > 0xffff ∧ bits >>> 24 > 32)) ↔
      (Target.size bits > 34 ∨ (Target.leading bits > 0xff ∧ Target.size bits > 33) ∨
        (Target.leading bits > 0xffff ∧ Target.size bits > 32)) := by
    simp only [GT.gt, UInt32.lt_iff_toNat_lt, size_toNat, hword]
    rfl
  rw [decodeTarget, Target.decode]
  simp only [hleading, Option.bind_eq_bind, Option.bind_some, Option.pure_def, hzero, sign_iff,
    hover, expand_eq]
  split_ifs <;> rfl

end MergedMining.Guarded
