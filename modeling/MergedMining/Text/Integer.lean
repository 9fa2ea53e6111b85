import MergedMining.Hex

/-!
# Reading integers

Integers in a base, with an optional single sign in front.  The first fault from the left is
reported: a character that is no digit, or the digit that takes the number out of its range.

## Main definitions

* `Integer.readNat` — a number from zero up to a bound; a plus sign is allowed.
* `Integer.readInt` — a number between two bounds around zero; either sign is allowed.
-/

namespace MergedMining

/-- Why a text is no integer of its range. -/
inductive IntegerError where
  /-- There is no text. -/
  | empty
  /-- A character is no digit, or there is nothing but a sign. -/
  | invalidDigit
  /-- The number is above the range. -/
  | tooLarge
  /-- The number is below the range. -/
  | tooSmall
  deriving DecidableEq, Repr

/-- The wording of an error. -/
def IntegerError.message : IntegerError → String
  | .empty => "cannot parse integer from empty string"
  | .invalidDigit => "invalid digit found in string"
  | .tooLarge => "number too large to fit in target type"
  | .tooSmall => "number too small to fit in target type"

namespace Integer

/-- Continues a number with further digits, as long as it does not exceed `bound`; `excess` is the
error if it does. -/
def readDigits (base bound : Nat) (excess : IntegerError) : Nat → List Char →
    Except IntegerError Nat
  | n, [] => .ok n
  | n, c :: cs =>
      match Hex.digitValue? base c with
      | none => .error .invalidDigit
      | some d =>
          if bound < base * n + d then .error excess
          else readDigits base bound excess (base * n + d) cs

/-- Reads a number from zero to `bound`. -/
def readNat (base bound : Nat) : List Char → Except IntegerError Nat
  | [] => .error .empty
  | ['+'] => .error .invalidDigit
  | '+' :: digits => readDigits base bound .tooLarge 0 digits
  | digits => readDigits base bound .tooLarge 0 digits

/-- Reads a number from `-least` to `most`. -/
def readInt (base least most : Nat) : List Char → Except IntegerError Int
  | ['-'] => .error .invalidDigit
  | '-' :: digits => (readDigits base least .tooSmall 0 digits).map fun n => -(n : Int)
  | text => (readNat base most text).map fun n => (n : Int)

/-- Reads an unsigned 32-bit word. -/
def readWord (base : Nat) (text : String) : Except IntegerError UInt32 :=
  (readNat base (UInt32.size - 1) text.toList).map UInt32.ofNat

end Integer

end MergedMining
