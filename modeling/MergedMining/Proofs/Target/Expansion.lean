import Mathlib.Data.Nat.Bitwise
import MergedMining.Target

/-!
# The number a compact word denotes

A compact word denotes a natural number: its mantissa, moved by whole bytes so that it takes `size`
bytes.  Decoding computes that number in 256 bits and judges the word by comparing the size and the
mantissa with constants.  Here the number is unbounded, and the constants are shown to draw the
line exactly where it leaves 256 bits.

## Main definitions

* `Target.value` — the number a compact word denotes.
* `Target.Usable`, `Target.Fault` — the words that spell a target, and what is wrong with others.

## Main results

* `Target.size_toNat`, `Target.mantissa_toNat`, `Target.sign_iff` — the fields as shifted and masked
  words.
* `Target.overflow_iff` — the size and the leading bytes tell which numbers are too large.
* `Target.ofCompact_eq_value` — 256-bit arithmetic loses nothing of a number that fits.
* `Target.decode_eq` — decoding in terms of the number.
* `Target.decode_eq_ok_iff`, `Target.decode_eq_error_iff` — what decodes, and why the rest does not.
-/

namespace MergedMining.Target

/-! ### The fields of a word -/

theorem size_toNat (bits : UInt32) : (bits >>> 24).toNat = size bits := by
  rw [UInt32.toNat_shiftRight, size, Nat.shiftRight_eq_div_pow]
  rfl

theorem mantissa_toNat (bits : UInt32) : (bits &&& 0x7fffff).toNat = mantissa bits := by
  rw [UInt32.toNat_and, mantissa]
  exact Nat.and_two_pow_sub_one_eq_mod bits.toNat 23

theorem kept_toNat (bits : UInt32) : (bits &&& 0xffffff).toNat = bits.toNat % 0x1000000 := by
  rw [UInt32.toNat_and]
  exact Nat.and_two_pow_sub_one_eq_mod bits.toNat 24

theorem sign_iff (bits : UInt32) : bits &&& 0x800000 ≠ 0 ↔ isNegative bits = true := by
  have hand : (bits &&& 0x800000).toNat = 2 ^ 23 * (bits.toNat.testBit 23).toNat := by
    rw [UInt32.toNat_and, Nat.and_comm]
    exact Nat.two_pow_and bits.toNat 23
  rw [Ne, ← UInt32.toNat_inj, hand, isNegative, decide_eq_true_iff,
    ← Nat.toNat_testBit bits.toNat 23, UInt32.toNat_zero]
  cases bits.toNat.testBit 23 with
  | false => decide
  | true => decide

/-! ### The number of a word -/

/-- The number a compact word denotes: the mantissa times `256 ^ (size - 3)`, rounded down. -/
def value (bits : UInt32) : Nat :=
  if size bits ≤ 3 then mantissa bits / 256 ^ (3 - size bits)
  else mantissa bits * 256 ^ (size bits - 3)

theorem mantissa_lt (bits : UInt32) : mantissa bits < 0x800000 := Nat.mod_lt _ (by decide)

theorem two_pow_eight_mul (k : Nat) : 2 ^ (8 * k) = 256 ^ k := by rw [Nat.pow_mul]

theorem value_of_size_le {bits : UInt32} (h : size bits ≤ 3) : value bits = leading bits := by
  rw [value, leading, if_pos h, if_pos h, two_pow_eight_mul]

theorem value_of_lt_size {bits : UInt32} (h : 3 < size bits) :
    value bits = leading bits * 256 ^ (size bits - 3) := by
  rw [value, leading, if_neg (Nat.not_le_of_lt h), if_neg (Nat.not_le_of_lt h)]

theorem leading_lt (bits : UInt32) : leading bits < 0x800000 := by
  rw [leading]
  split
  · exact Nat.lt_of_le_of_lt (Nat.div_le_self _ _) (mantissa_lt bits)
  · exact mantissa_lt bits

theorem value_eq_zero_iff (bits : UInt32) : value bits = 0 ↔ leading bits = 0 := by
  rcases Nat.lt_or_ge 3 (size bits) with h | h
  · have hpow : 256 ^ (size bits - 3) ≠ 0 := Nat.ne_of_gt (Nat.pow_pos (by decide))
    rw [value_of_lt_size h, Nat.mul_eq_zero]
    exact or_iff_left hpow
  · rw [value_of_size_le h]

/-! ### Where 256 bits end -/

/-- With `k + 3` bytes in front of `d` more, the number leaves the 32 bytes exactly if the leading
bytes do not fit into what is left. -/
theorem le_mul_pow_iff (word k d : Nat) (h : k + d = 32) :
    2 ^ 256 ≤ word * 256 ^ k ↔ 256 ^ d ≤ word := by
  have hpow : 2 ^ 256 = 256 ^ d * 256 ^ k := by
    rw [← Nat.pow_add, Nat.add_comm d k, h, ← two_pow_eight_mul]
  rw [hpow]
  exact Nat.mul_le_mul_right_iff (Nat.pow_pos (by decide))

/-- The comparisons that judge a nonzero word find exactly the numbers of more than 256 bits. -/
theorem overflow_iff {bits : UInt32} (hzero : leading bits ≠ 0) :
    (size bits > 34 ∨ (leading bits > 0xff ∧ size bits > 33) ∨
      (leading bits > 0xffff ∧ size bits > 32)) ↔ 2 ^ 256 ≤ value bits := by
  have hlt := leading_lt bits
  rcases Nat.lt_or_ge 3 (size bits) with h | h
  · rw [value_of_lt_size h]
    rcases Nat.lt_or_ge 34 (size bits) with h34 | h34
    · -- one byte is too much already
      have hone : 256 ^ 32 ≤ 256 ^ (size bits - 3) := Nat.pow_le_pow_right (by decide) (by omega)
      have hmul : 256 ^ (size bits - 3) ≤ leading bits * 256 ^ (size bits - 3) :=
        Nat.le_mul_of_pos_left _ (Nat.pos_of_ne_zero hzero)
      rw [← two_pow_eight_mul 32] at hone
      exact iff_of_true (Or.inl h34) (Nat.le_trans hone hmul)
    · rw [le_mul_pow_iff (leading bits) (size bits - 3) (35 - size bits) (by omega)]
      rcases Nat.lt_or_ge 32 (size bits) with h32 | h32
      · -- one or two bytes are left
        have hsize : size bits = 33 ∨ size bits = 34 := by omega
        rcases hsize with hsize | hsize
        · rw [hsize]; omega
        · rw [hsize]; omega
      · -- three bytes are left, more than a mantissa takes
        have hroom : 256 ^ 3 ≤ 256 ^ (35 - size bits) := Nat.pow_le_pow_right (by decide) (by omega)
        refine iff_of_false (by omega) fun hle => ?_
        have hfit := Nat.le_trans hroom hle
        omega
  · rw [value_of_size_le h]
    refine iff_of_false (by omega) fun hle => ?_
    have hbig : 0x800000 ≤ 2 ^ 256 := by decide
    exact absurd (Nat.le_trans hbig hle) (Nat.not_le_of_lt hlt)

theorem low_eq_mantissa {bits : UInt32} (hsign : isNegative bits = false) :
    bits.toNat % 0x1000000 = mantissa bits := by
  rw [isNegative, decide_eq_false_iff_not] at hsign
  rw [mantissa]
  omega

/-- **256-bit arithmetic loses nothing** of a number that is not negative and has at most 256
bits, however large the shift is that the size asks for. -/
theorem ofCompact_eq_value {bits : UInt32} (hsign : isNegative bits = false)
    (hvalue : value bits < 2 ^ 256) : ofCompact bits = value bits := by
  have hlow := low_eq_mantissa hsign
  have hmantissa := mantissa_lt bits
  rcases Nat.lt_or_ge 3 (size bits) with h | h
  · have hword : leading bits = mantissa bits := by rw [leading, if_neg (Nat.not_le_of_lt h)]
    by_cases hzero : mantissa bits = 0
    · have hvalue : value bits = 0 := by rw [value_eq_zero_iff, hword, hzero]
      simp only [ofCompact, hlow, hzero, if_neg (Nat.not_le_of_lt h), hvalue, Nat.zero_mul,
        Nat.zero_mod, ite_self]
    · -- a number that fits has a size at which the shift does not wrap around
      have hsize : size bits ≤ 34 := by
        have hfits := mt (overflow_iff (hword ▸ hzero)).mp (Nat.not_le_of_lt hvalue)
        omega
      have hshift : 8 * (size bits - 3) % width = 8 * (size bits - 3) :=
        Nat.mod_eq_of_lt (by rw [width]; omega)
      have hvalue' : mantissa bits * 256 ^ (size bits - 3) = value bits := by
        rw [value_of_lt_size h, hword]
      simp only [ofCompact, hlow, if_neg (Nat.not_le_of_lt h), hshift,
        if_neg (show ¬ mantissa bits > 0x7fffff by omega), two_pow_eight_mul, hvalue']
      exact Nat.mod_eq_of_lt hvalue
  · have hword : mantissa bits / 2 ^ (8 * (3 - size bits)) = value bits := by
      rw [value, if_pos h, two_pow_eight_mul]
    have hle : value bits ≤ mantissa bits := hword ▸ Nat.div_le_self _ _
    simp only [ofCompact, hlow, if_pos h, hword, if_neg (show ¬ value bits > 0x7fffff by omega),
      Nat.zero_mod, Nat.pow_zero, Nat.mul_one]
    exact Nat.mod_eq_of_lt hvalue

/-- **Decoding in terms of the number denoted.**  Zero is found first, then a set sign bit, then a
number of more than 256 bits; any other number is the target. -/
theorem decode_eq (bits : UInt32) :
    decode bits =
      if value bits = 0 then .error (.zero bits)
      else if isNegative bits = true then .error (.negative bits)
      else if 2 ^ 256 ≤ value bits then .error (.overflow bits)
      else .ok (value bits) := by
  rw [decode]
  by_cases hzero : leading bits = 0
  · simp only [if_pos hzero, if_pos ((value_eq_zero_iff bits).mpr hzero)]
  have hvalue : value bits ≠ 0 := mt (value_eq_zero_iff bits).mp hzero
  simp only [if_neg hzero, if_neg hvalue]
  by_cases hsign : isNegative bits = true
  · rw [if_pos hsign, if_pos hsign]
  rw [if_neg hsign, if_neg hsign]
  by_cases hover : 2 ^ 256 ≤ value bits
  · rw [if_pos ((overflow_iff hzero).mpr hover), if_pos hover]
  · rw [if_neg (mt (overflow_iff hzero).mp hover), if_neg hover,
      ofCompact_eq_value (Bool.eq_false_iff.mpr hsign) (Nat.lt_of_not_le hover)]

/-- A word is usable: its sign bit is clear, and its number is positive and has at most 256 bits. -/
def Usable (bits : UInt32) : Prop :=
  isNegative bits = false ∧ 0 < value bits ∧ value bits < 2 ^ 256

/-- What is wrong with a word that is not usable. -/
inductive Fault (bits : UInt32) : TargetError → Prop where
  /-- Nothing is left of the mantissa, whatever the sign bit says. -/
  | zero : value bits = 0 → Fault bits (.zero bits)
  /-- The sign bit is set. -/
  | negative : value bits ≠ 0 → isNegative bits = true → Fault bits (.negative bits)
  /-- The number is too large. -/
  | overflow : isNegative bits = false → 2 ^ 256 ≤ value bits → Fault bits (.overflow bits)

theorem decode_of_usable {bits : UInt32} (h : Usable bits) : decode bits = .ok (value bits) := by
  obtain ⟨hsign, hpos, hlt⟩ := h
  rw [decode_eq, if_neg (Nat.ne_of_gt hpos), if_neg (by rw [hsign]; decide),
    if_neg (Nat.not_le_of_lt hlt)]

theorem decode_of_fault {bits : UInt32} {error : TargetError} (h : Fault bits error) :
    decode bits = .error error := by
  rw [decode_eq]
  cases h with
  | zero hzero => rw [if_pos hzero]
  | negative hvalue hsign => rw [if_neg hvalue, if_pos hsign]
  | overflow hsign hover =>
    have hvalue : value bits ≠ 0 := Nat.ne_of_gt (Nat.lt_of_lt_of_le (Nat.two_pow_pos 256) hover)
    rw [if_neg hvalue, if_neg (by rw [hsign]; decide), if_pos hover]

/-- A word has one fault at most. -/
theorem Fault.unique {bits : UInt32} {error error' : TargetError} (h : Fault bits error)
    (h' : Fault bits error') : error = error' := by
  have hdecode := decode_of_fault h
  rw [decode_of_fault h', Except.error.injEq] at hdecode
  exact hdecode.symm

theorem Fault.not_usable {bits : UInt32} {error : TargetError} (h : Fault bits error) :
    ¬ Usable bits := fun husable => by
  have hdecode := decode_of_fault h
  rw [decode_of_usable husable] at hdecode
  cases hdecode

theorem usable_or_fault (bits : UInt32) : Usable bits ∨ ∃ error, Fault bits error := by
  by_cases hvalue : value bits = 0
  · exact Or.inr ⟨_, .zero hvalue⟩
  cases hsign : isNegative bits with
  | true => exact Or.inr ⟨_, .negative hvalue hsign⟩
  | false =>
    rcases Nat.lt_or_ge (value bits) (2 ^ 256) with hlt | hover
    · exact Or.inl ⟨hsign, Nat.pos_of_ne_zero hvalue, hlt⟩
    · exact Or.inr ⟨_, .overflow hsign hover⟩

/-- The words that decode are the usable ones, and the target is their number. -/
theorem decode_eq_ok_iff {bits : UInt32} {target : Nat} :
    decode bits = .ok target ↔ Usable bits ∧ target = value bits := by
  constructor
  · intro h
    rcases usable_or_fault bits with husable | ⟨error, hfault⟩
    · rw [decode_of_usable husable, Except.ok.injEq] at h
      exact ⟨husable, h.symm⟩
    · rw [decode_of_fault hfault] at h
      cases h
  · rintro ⟨husable, rfl⟩
    exact decode_of_usable husable

theorem decode_eq_error_iff {bits : UInt32} {error : TargetError} :
    decode bits = .error error ↔ Fault bits error := by
  refine ⟨fun h => ?_, decode_of_fault⟩
  rcases usable_or_fault bits with husable | ⟨error', hfault⟩
  · rw [decode_of_usable husable] at h
    cases h
  · rw [decode_of_fault hfault, Except.error.injEq] at h
    exact h ▸ hfault

end MergedMining.Target
