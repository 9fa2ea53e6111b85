import MergedMining.Proofs.Target.Expansion

/-!
# Decoding is exact

A compact word has three fields: eight bits of size, a sign bit and twenty-three bits of mantissa.
Size and mantissa spell a natural number, to which there is no bound.  Decoding never computes it:
it compares the fields with constants, and then expands the word in 256 bits, where the sign bit
counts as a leading one, large shifts wrap around and high bits are lost.  Yet the answer is the one
that the number calls for, for every word.

## Main definitions

* `Target.spelled` — the number that a size and a mantissa spell.

## Main results

* `Target.value_eq_spelled` — the number of a word is spelled by its bits.
* `Target.toNatLE_reverse_bytes` — thirty-two bytes hold every target.
* `Target.decode_exact` — what decoding answers, by the number and the sign bit.
-/

namespace MergedMining.Target

/-- The number that a size in bytes and a mantissa spell.  The mantissa stands for the three leading
bytes; a smaller size cuts off the last of them. -/
def spelled (size mantissa : Nat) : Nat :=
  if 3 < size then mantissa * 256 ^ (size - 3) else mantissa / 256 ^ (3 - size)

theorem value_eq_spelled (bits : UInt32) :
    value bits = spelled (bits >>> 24).toNat (bits &&& 0x7fffff).toNat := by
  rw [value, spelled, size_toNat, mantissa_toNat]
  by_cases h : size bits ≤ 3
  · rw [if_pos h, if_neg (Nat.not_lt_of_le h)]
  · rw [if_neg h, if_pos (Nat.lt_of_not_le h)]

theorem toNatLE_reverse_bytes {target : Nat} (h : target < 2 ^ 256) :
    Bytes.toNatLE (bytes target).reverse = target := by
  have hwidth : 2 ^ 256 = 256 ^ 32 := two_pow_eight_mul 32
  rw [bytes, List.reverse_reverse, Bytes.toNatLE_ofNatLE, ← hwidth, Nat.mod_eq_of_lt h]

/-- **Decoding is exact.**  Let a word's bits spell a number.  Decoding finds a zero exactly if that
number is zero, whatever the sign bit; a negative number exactly if it is not zero and the sign bit
is set; an overflow exactly if it is not zero, the sign bit is clear and it needs more than 256
bits.  In all other cases it answers the number itself, and the lossy expansion it takes it from has
lost nothing: the thirty-two bytes of the target, read as a number, are what the bits spell. -/
theorem decode_exact (bits : UInt32) :
    let number := spelled (bits >>> 24).toNat (bits &&& 0x7fffff).toNat
    let signed := bits &&& 0x800000 ≠ 0
    (decode bits = .error (.zero bits) ↔ number = 0) ∧
      (decode bits = .error (.negative bits) ↔ number ≠ 0 ∧ signed) ∧
      (decode bits = .error (.overflow bits) ↔ number ≠ 0 ∧ ¬ signed ∧ 2 ^ 256 ≤ number) ∧
      (∀ target, decode bits = .ok target ↔
        number ≠ 0 ∧ ¬ signed ∧ number < 2 ^ 256 ∧ target = number) ∧
      (∀ target, decode bits = .ok target →
        ofCompact bits = target ∧ Bytes.toNatLE (bytes target).reverse = number) := by
  intro number signed
  have hnumber : value bits = number := value_eq_spelled bits
  have hsigned : isNegative bits = true ↔ signed := (sign_iff bits).symm
  have hclear : isNegative bits = false ↔ ¬ signed := by rw [← hsigned, Bool.not_eq_true]
  simp only [decode_eq_error_iff, decode_eq_ok_iff, Usable, hnumber, hclear]
  refine ⟨?zero, ?negative, ?overflow, ?target, ?bytes⟩
  case zero =>
    constructor
    · intro h
      cases h with
      | zero hzero => exact hnumber ▸ hzero
    · intro hzero
      exact .zero (hnumber.trans hzero)
  case negative =>
    constructor
    · intro h
      cases h with
      | negative hvalue hsign => exact ⟨hnumber ▸ hvalue, hsigned.mp hsign⟩
    · rintro ⟨hvalue, hsign⟩
      exact .negative (hnumber ▸ hvalue) (hsigned.mpr hsign)
  case overflow =>
    constructor
    · intro h
      cases h with
      | overflow hsign hover =>
        rw [hnumber] at hover
        have hpos : 0 < number := Nat.lt_of_lt_of_le (Nat.two_pow_pos 256) hover
        exact ⟨Nat.ne_of_gt hpos, hclear.mp hsign, hover⟩
    · rintro ⟨-, hsign, hover⟩
      exact .overflow (hclear.mpr hsign) (hnumber ▸ hover)
  case target =>
    intro target
    rw [Nat.pos_iff_ne_zero]
    constructor
    · rintro ⟨⟨hsign, hvalue, hlt⟩, htarget⟩
      exact ⟨hvalue, hsign, hlt, htarget⟩
    · rintro ⟨hvalue, hsign, hlt, htarget⟩
      exact ⟨⟨hsign, hvalue, hlt⟩, htarget⟩
  case bytes =>
    rintro target ⟨⟨hsign, -, hlt⟩, rfl⟩
    have hexpanded := ofCompact_eq_value (hclear.mpr hsign) (hnumber ▸ hlt)
    exact ⟨hexpanded.trans hnumber, toNatLE_reverse_bytes hlt⟩

/-- At 33 bytes two bytes of mantissa are the last that fit. -/
example : decode 0x2100ffff = .ok (0xffff * 256 ^ 30) ∧
    decode 0x21010000 = .error (.overflow 0x21010000) := by decide

/-- A sign bit alone makes no number negative. -/
example : decode 0x03800000 = .error (.zero 0x03800000) ∧
    decode 0x03800001 = .error (.negative 0x03800001) := by decide

end MergedMining.Target
