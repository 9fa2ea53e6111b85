import MergedMining.Bytes
import MergedMining.Text.Quoted

/-!
# Hexadecimal text

Bytes as pairs of hexadecimal digits.  Writing uses lower case, reading takes either case, and what
is wrong with a text is found in a fixed order: an odd number of digits first, then a wrong length
where one is asked for, then the first character that is no digit.

## Main definitions

* `Hex.encode`, `Hex.decode`, `Hex.decodeExactly` — writing and reading.
* `Hex.paddedDigits` — a number as a fixed number of digits.
-/

namespace MergedMining

/-- What is wrong with a hexadecimal text. -/
inductive HexError where
  /-- The digits do not pair up. -/
  | oddLength
  /-- The text spells another number of bytes than asked for. -/
  | wrongLength
  /-- The byte at this position is no digit. -/
  | badCharacter (byte : UInt8) (position : Nat)
  deriving DecidableEq, Repr

/-- The wording of an error.  A byte stands for the character of its code. -/
def HexError.message : HexError → String
  | .oddLength => "Odd number of digits"
  | .wrongLength => "Invalid string length"
  | .badCharacter byte position =>
      "Invalid character " ++ Text.quotedChar (Char.ofNat byte.toNat) ++ " at position " ++
        toString position

namespace Hex

/-- The lower-case digit of a number below sixteen. -/
def digit (n : Nat) : Char :=
  if n < 10 then Char.ofNat (48 + n) else Char.ofNat (87 + n)

/-- The value of a digit in a base up to thirty-six, either case. -/
def digitValue? (base : Nat) (c : Char) : Option Nat :=
  let value :=
    if 48 ≤ c.toNat ∧ c.toNat ≤ 57 then some (c.toNat - 48)
    else if 97 ≤ c.toNat ∧ c.toNat ≤ 122 then some (c.toNat - 87)
    else if 65 ≤ c.toNat ∧ c.toNat ≤ 90 then some (c.toNat - 55)
    else none
  value.filter (· < base)

/-- The two digits of each byte in turn. -/
def digits : Bytes → List Char
  | [] => []
  | b :: bs => digit (b.toNat / 16) :: digit (b.toNat % 16) :: digits bs

/-- The text of a byte string. -/
def encode (bs : Bytes) : String := String.ofList (digits bs)

/-- The low `width` hexadecimal digits of a number, most significant first. -/
def paddedDigits : (width : Nat) → (n : Nat) → List Char
  | 0, _ => []
  | width + 1, n => paddedDigits width (n / 16) ++ [digit (n % 16)]

/-- A word as `0x` and eight digits. -/
def word (w : UInt32) : String := "0x" ++ String.ofList (paddedDigits 8 w.toNat)

/-- A word as `0x` and as many digits as it needs. -/
def shortWord (w : UInt32) : String := "0x" ++ String.ofList (Nat.toDigits 16 w.toNat)

/-- The value of a byte that stands for a digit, at a position to report. -/
def nibble (position : Nat) (b : UInt8) : Except HexError Nat :=
  match digitValue? 16 (Char.ofNat b.toNat) with
  | some value => .ok value
  | none => .error (.badCharacter b position)

/-- Reads pairs of digits, the first of them at `position`. -/
def decodePairs (position : Nat) : Bytes → Except HexError Bytes
  | hi :: lo :: rest => do
      let hi ← nibble position hi
      let lo ← nibble (position + 1) lo
      let bytes ← decodePairs (position + 2) rest
      return UInt8.ofNat (16 * hi + lo) :: bytes
  | _ => .ok []

/-- The bytes of a text as it is encoded for storage. -/
def textBytes (text : String) : Bytes := text.toUTF8.toList

/-- Reads a text of any length. -/
def decode (text : String) : Except HexError Bytes :=
  let bytes := textBytes text
  if bytes.length % 2 = 1 then .error .oddLength else decodePairs 0 bytes

/-- Reads a text that has to spell `count` bytes. -/
def decodeExactly (count : Nat) (text : String) : Except HexError Bytes :=
  let bytes := textBytes text
  if bytes.length % 2 = 1 then .error .oddLength
  else if bytes.length / 2 ≠ count then .error .wrongLength
  else decodePairs 0 bytes

end Hex

end MergedMining
