import MergedMining.Decoding.Mismatch

/-!
# Numbers in JSON texts

A number of a JSON text is kept as its digits.  As a value it is an integer if it is written as one
and fits into 64 bits, and else a floating-point number: its leading digits, as far as 64 bits take
them, are scaled by a power of ten, with one rounding at each step.

## Main definitions

* `Json.Numeral` — the digits of a number, `Json.Numeral.scan?` reads them.
* `Json.Numeral.value?` — the value, if it is in range.
-/

namespace MergedMining.Json

/-- A number as it is written. -/
structure Numeral where
  /-- Whether a minus sign stands in front. -/
  negative : Bool
  /-- The digits before the point. -/
  whole : List Nat
  /-- The digits after the point. -/
  fraction : List Nat := []
  /-- The sign and the digits of the exponent. -/
  exponent : Option (Bool × List Nat) := none
  deriving DecidableEq, Repr

/-- Splits off the digits in front. -/
def scanDigits : List Char → List Nat × List Char
  | [] => ([], [])
  | c :: cs =>
      match Hex.digitValue? 10 c with
      | some d => let (ds, rest) := scanDigits cs; (d :: ds, rest)
      | none => ([], c :: cs)

namespace Numeral

/-- Reads the part behind the point, if there is one.  A point needs a digit behind it. -/
def scanFraction? : List Char → Option (List Nat × List Char)
  | '.' :: rest =>
      match scanDigits rest with
      | ([], _) => none
      | scanned => some scanned
  | rest => some ([], rest)

/-- Reads the exponent's sign. -/
def scanSign : List Char → Bool × List Char
  | '-' :: rest => (true, rest)
  | '+' :: rest => (false, rest)
  | rest => (false, rest)

/-- Reads the exponent, if there is one.  An exponent needs a digit. -/
def scanExponent? : List Char → Option (Option (Bool × List Nat) × List Char)
  | c :: rest =>
      if c = 'e' ∨ c = 'E' then
        let (negative, rest) := scanSign rest
        match scanDigits rest with
        | ([], _) => none
        | (digits, rest) => some (some (negative, digits), rest)
      else some (none, c :: rest)
  | [] => some (none, [])

/-- Reads a number off the front of a text.  A zero in front stands alone before the point. -/
def scan? (text : List Char) : Option (Numeral × List Char) := do
  let (negative, rest) := match text with
    | '-' :: rest => (true, rest)
    | rest => (false, rest)
  let (whole, rest) := scanDigits rest
  match whole with
  | [] | 0 :: _ :: _ => none
  | _ =>
      let (fraction, rest) ← scanFraction? rest
      let (exponent, rest) ← scanExponent? rest
      return (⟨negative, whole, fraction, exponent⟩, rest)

/-! ### Values -/

/-- The value of a number. -/
inductive Value where
  /-- An integer. -/
  | integer (value : Int)
  /-- A floating-point number. -/
  | float (negative : Bool) (magnitude : Binary64)
  deriving DecidableEq, Repr

/-- Takes digits into a 64-bit integer as long as they fit, and counts those that are taken. -/
def gather : (significand taken : Nat) → List Nat → Nat × Nat
  | significand, taken, [] => (significand, taken)
  | significand, taken, d :: ds =>
      if 10 * significand + d < UInt64.size then gather (10 * significand + d) (taken + 1) ds
      else (significand, taken)

/-- Scales an integer by a power of ten, with one rounding at each step; nothing if that is out of
range. -/
def scaled (significand : Nat) (power : Int) : Option Binary64 := do
  let start ← Binary64.ofDecimal significand 0
  if 308 < power then
    if significand = 0 then some .zero else none
  else if 0 ≤ power then start.mul (.powerOfTen power.toNat)
  else if -308 ≤ power then start.div (.powerOfTen (-power).toNat)
  else if -616 ≤ power then (← start.div (.powerOfTen 308)).div (.powerOfTen (-power - 308).toNat)
  else some .zero

/-- The exponent as an integer, unless it needs more than 31 bits. -/
def exponentValue? (negative : Bool) (digits : List Nat) : Option Int :=
  let n : Nat := digits.foldl (fun n d => if n < 0x80000000 then 10 * n + d else n) 0
  if n < 0x80000000 then some (if negative then -n else n) else none

/-- The value, if it is in range. -/
def value? (n : Numeral) : Option Value :=
  let (significand, taken) := gather 0 0 n.whole
  let dropped := n.whole.length - taken
  if dropped = 0 ∧ n.fraction = [] ∧ n.exponent = none then
    if n.negative = false then some (.integer significand)
    else if significand ≠ 0 ∧ significand ≤ 0x8000000000000000 then some (.integer (-significand))
    else (scaled significand 0).map (.float true)
  else
    let (significand, places) := gather significand 0 n.fraction
    let power : Int := dropped - places
    match n.exponent with
    | none => (scaled significand power).map (.float n.negative)
    | some (negative, digits) =>
        match exponentValue? negative digits with
        | some exponent => (scaled significand (power + exponent)).map (.float n.negative)
        | none =>
            if significand = 0 ∨ negative then some (.float n.negative .zero) else none

end Numeral

end MergedMining.Json
