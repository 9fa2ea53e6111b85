import MergedMining.Text.Blank
import MergedMining.Text.Integer
import MergedMining.Version

/-!
# Versions as text

People write a version either as a decimal number, perhaps a negative one, or as the hexadecimal
digits of its 32 bits behind `0x`.

## Main definitions

* `Version.ofText` — reading either form.
* `Version.decimal`, `Hex.word` — the two forms.
-/

namespace MergedMining.Version

/-- Why a text is no version. -/
inductive TextError where
  /-- What stands behind `0x` is no 32-bit word. -/
  | hexadecimal (text : String) (error : IntegerError)
  /-- It is no 32-bit number with a sign. -/
  | decimal (text : String) (error : IntegerError)
  deriving DecidableEq, Repr

/-- The wording of an error and of what caused it. -/
def TextError.messages : TextError → List String
  | .hexadecimal text error => ["invalid hex version: " ++ text, error.message]
  | .decimal text error => ["invalid version: " ++ text, error.message]

/-- A version as a decimal number. -/
def decimal (v : Version) : String := toString (signed v)

/-- Reads a version; white space around it does not count. -/
def ofText (text : String) : Except TextError Version :=
  let text := Text.trim text
  match text.toList with
  | '0' :: 'x' :: digits | '0' :: 'X' :: digits =>
      match Integer.readNat 16 (UInt32.size - 1) digits with
      | .ok n => .ok (UInt32.ofNat n)
      | .error error => .error (.hexadecimal text error)
  | digits =>
      match Integer.readInt 10 0x80000000 0x7fffffff digits with
      | .ok n => .ok (ofSigned n)
      | .error error => .error (.decimal text error)

end MergedMining.Version
