import MergedMining.Decimal.Binary64

/-!
# The shortest decimal of a floating-point number

Of all decimals that are read back as a given number, the one with the fewest digits, and of those
the one nearest to the number.  The search goes over one, two, … seventeen digits: on each decimal
grid only the two neighbours of the number can serve.  Formats differ in which of two neighbours
equally near they take, and in where they use an exponent.

## Main definitions

* `Binary64.shortest` — digits and power of ten of the decimal.
* `Binary64.Style` — what a format decides.
* `Binary64.toText` — the decimal, written in a style.
-/

namespace MergedMining.Binary64

/-- The largest `e` with `10 ^ e ≤ num / den`, for a positive fraction. -/
def floorLog10 (num den : Nat) : Int :=
  if den ≤ num then (Nat.toDigits 10 (num / den)).length - 1
  else -(Nat.toDigits 10 ((den - 1) / num)).length

/-- Whether `digits * 10 ^ power` is read back as the number: it lies in the interval around it
whose ends are half way to its neighbours, ends included if the mantissa is even. -/
def readsAs (x : Binary64) (digits : Nat) (power : Int) : Bool :=
  let below := if x.mantissa = 0x10000000000000 ∧ x.exponent > -1074 then 1 else 2
  let unit := x.exponent - 2
  let value := digits * 10 ^ power.toNat * 2 ^ (-unit).toNat
  let scale := 2 ^ unit.toNat * 10 ^ (-power).toNat
  let lower := (4 * x.mantissa - below) * scale
  let upper := (4 * x.mantissa + 2) * scale
  if x.mantissa % 2 = 0 then lower ≤ value && value ≤ upper else lower < value && value < upper

/-- Which of two decimals equally near is taken. -/
inductive Tie where
  /-- The greater. -/
  | up
  /-- The one whose last digit is even. -/
  | even
  deriving DecidableEq, Repr

/-- Whether the lower of two decimals equally near is taken. -/
def Tie.isLower (tie : Tie) (lower : Nat) : Bool :=
  match tie with
  | .up => false
  | .even => lower % 2 == 0

/-- The best of the two neighbours of the number on the grid of `10 ^ power`, if one serves. -/
def onGrid (tie : Tie) (x : Binary64) (power : Int) : Option Nat :=
  let num := x.toRatio.1 * 10 ^ (-power).toNat
  let den := x.toRatio.2 * 10 ^ power.toNat
  let lower := num / den
  match x.readsAs lower power, x.readsAs (lower + 1) power with
  | true, true =>
      let isLower := 2 * (num % den) < den || (2 * (num % den) == den && tie.isLower lower)
      some (if isLower then lower else lower + 1)
  | true, false => some lower
  | false, true => some (lower + 1)
  | false, false => none

/-- The digits and the power of ten of the shortest decimal of a positive number. -/
def shortest (tie : Tie) (x : Binary64) : Nat × Int :=
  let top := floorLog10 x.toRatio.1 x.toRatio.2
  let grids := (List.range 17).map fun (n : Nat) => top - (n : Int)
  match grids.findSome? fun power => (x.onGrid tie power).map (·, power) with
  -- just below a power of ten, the upper neighbour has one digit more than its grid
  | some (10, power) => (1, power + 1)
  | some found => found
  | none => (0, 0)

/-- Digits with a point after the first `places` of them; places without a digit are filled with
zeros, and a whole number gets one behind its point. -/
def pointed (digits : List Char) (places : Int) : List Char :=
  let whole := digits.take places.toNat ++ List.replicate (places.toNat - digits.length) '0'
  let fraction := List.replicate (-places).toNat '0' ++ digits.drop places.toNat
  (if whole.isEmpty then ['0'] else whole) ++ '.' :: (if fraction.isEmpty then ['0'] else fraction)

/-- Digits with a point after the first of them, and the exponent that makes up for it, always with
its sign.  A single digit has no point. -/
def scaled (digits : List Char) (places : Int) : List Char :=
  let whole := digits.take 1
  let fraction := digits.drop 1
  (if fraction.isEmpty then whole else whole ++ '.' :: fraction) ++
    'e' :: (if places < 1 then [] else ['+']) ++ (toString (places - 1)).toList

/-- What a format decides. -/
structure Style where
  /-- Which of two shortest decimals equally near is taken. -/
  tie : Tie
  /-- The least and the greatest place of the point for which no exponent is written, counted from
  the first digit; nothing if none is ever written. -/
  plain : Option (Int × Int)
  deriving DecidableEq, Repr

/-- Whether the style writes no exponent for a point in this place. -/
def Style.isPlain (style : Style) (places : Int) : Bool :=
  match style.plain with
  | none => true
  | some (least, greatest) => least ≤ places && places ≤ greatest

/-- The shortest decimal, written in a style. -/
def toText (style : Style) (x : Binary64) : String :=
  if x.mantissa = 0 then "0.0"
  else
    let (digits, power) := x.shortest style.tie
    let text := Nat.toDigits 10 digits
    let places := text.length + power
    String.ofList (if style.isPlain places then pointed text places else scaled text places)

end MergedMining.Binary64
