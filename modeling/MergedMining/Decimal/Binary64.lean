import MergedMining.Power

/-!
# Double-precision numbers

The non-negative finite numbers of the 64-bit binary floating-point format, as exact products of a
mantissa and a power of two, and the rounding of fractions to them.

## Main definitions

* `Binary64` — a number `mantissa * 2 ^ exponent`.
* `Binary64.ofRatio` — the number nearest to a fraction.
* `Binary64.ofDecimal` — the number nearest to a decimal.
-/

namespace MergedMining

/-- The number `mantissa * 2 ^ exponent`. -/
structure Binary64 where
  /-- An integer below `2 ^ 53`. -/
  mantissa : Nat
  /-- The power of two, from -1074 to 971. -/
  exponent : Int
  deriving DecidableEq, Repr

namespace Binary64

/-- Zero. -/
def zero : Binary64 := ⟨0, 0⟩

/-- The number as a fraction. -/
def toRatio (x : Binary64) : Nat × Nat :=
  (x.mantissa * 2 ^ x.exponent.toNat, 2 ^ (-x.exponent).toNat)

/-- The largest `e` with `2 ^ e ≤ num / den`, for a positive fraction. -/
def floorLog2 (num den : Nat) : Int :=
  let e : Int := Nat.log2 num - Nat.log2 den
  if num * 2 ^ (-e).toNat < den * 2 ^ e.toNat then e - 1 else e

/-- The integer nearest to a fraction; a half goes to the even neighbour. -/
def roundRatio (num den : Nat) : Nat :=
  let q := num / den
  let r := num % den
  if 2 * r < den ∨ (2 * r = den ∧ q % 2 = 0) then q else q + 1

/-- The number nearest to a fraction, ties going to the even mantissa; nothing if that is above the
largest finite number. -/
def ofRatio (num den : Nat) : Option Binary64 :=
  if num = 0 then some zero
  else
    let exponent := max (-1074) (floorLog2 num den - 52)
    let mantissa := roundRatio (num * 2 ^ (-exponent).toNat) (den * 2 ^ exponent.toNat)
    let rounded : Binary64 :=
      if mantissa = 0x20000000000000 then ⟨0x10000000000000, exponent + 1⟩ else ⟨mantissa, exponent⟩
    if rounded.exponent > 971 then none else some rounded

/-- The rounded product of two numbers. -/
def mul (x y : Binary64) : Option Binary64 :=
  ofRatio (x.toRatio.1 * y.toRatio.1) (x.toRatio.2 * y.toRatio.2)

/-- The rounded quotient of two numbers, the second not zero. -/
def div (x y : Binary64) : Option Binary64 :=
  ofRatio (x.toRatio.1 * y.toRatio.2) (x.toRatio.2 * y.toRatio.1)

/-- The number nearest to `digits * 10 ^ power`.  Powers that decide the answer by themselves are
not worked out. -/
def ofDecimal (digits : Nat) (power : Int) : Option Binary64 :=
  if digits = 0 then some zero
  else if power > 400 then none
  else if power + (Nat.log2 digits + 1) < -400 then some zero
  else ofRatio (digits * 10 ^ power.toNat) (10 ^ (-power).toNat)

/-- The number nearest to a power of ten. -/
def powerOfTen (power : Nat) : Binary64 := (ofDecimal 1 power).getD zero

end Binary64

end MergedMining
