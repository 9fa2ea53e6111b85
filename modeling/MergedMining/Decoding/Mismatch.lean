import MergedMining.Decimal.Shortest
import MergedMining.Text.Integer
import MergedMining.Text.Quoted
import MergedMining.Version

/-!
# Values that do not fit

A text can be well-formed and still not hold what is wanted.  The readers for JSON and for TOML
share the reasons and their wording.

## Main definitions

* `Decoding.Mismatch` — why a value does not fit.
* `Decoding.Mismatch.message` — the wording.
-/

namespace MergedMining.Decoding

/-- A floating-point number as it is found. -/
inductive FloatValue where
  /-- A finite number and its sign. -/
  | finite (negative : Bool) (magnitude : Binary64)
  /-- An infinity. -/
  | infinite (negative : Bool)
  /-- Not a number. -/
  | notANumber
  deriving DecidableEq, Repr

/-- The text of a floating-point number, in a style. -/
def FloatValue.toText (style : Binary64.Style) : FloatValue → String
  | .finite negative magnitude => (if negative then "-" else "") ++ magnitude.toText style
  | .infinite negative => if negative then "-inf" else "inf"
  | .notANumber => "NaN"

/-- What is found. -/
inductive Found where
  /-- The null value. -/
  | null
  /-- A truth value. -/
  | boolean (value : Bool)
  /-- An integer. -/
  | integer (value : Int)
  /-- A floating-point number. -/
  | float (value : FloatValue)
  /-- A text. -/
  | text (value : String)
  /-- A sequence of values. -/
  | sequence
  /-- A collection of named values. -/
  | map
  deriving DecidableEq, Repr

/-- How a found value is named, numbers in a style. -/
def Found.name (style : Binary64.Style) : Found → String
  | .null => "null"
  | .boolean value => "boolean " ++ Text.ticked (if value then "true" else "false")
  | .integer value => "integer " ++ Text.ticked (toString value)
  | .float value => "floating point " ++ Text.ticked (value.toText style)
  | .text value => "string " ++ Text.quoted value
  | .sequence => "sequence"
  | .map => "map"

/-- What is wanted. -/
inductive Wanted where
  /-- An unsigned number of this many bits. -/
  | unsigned (bits : Nat)
  /-- A truth value. -/
  | boolean
  /-- A text. -/
  | text
  /-- A sequence. -/
  | sequence
  /-- The empty value. -/
  | unit
  /-- A record of this name. -/
  | record (name : String)
  deriving DecidableEq, Repr

/-- How a wanted value is named. -/
def Wanted.name : Wanted → String
  | .unsigned bits => "u" ++ toString bits
  | .boolean => "a boolean"
  | .text => "a string"
  | .sequence => "a sequence"
  | .unit => "unit"
  | .record name => "struct " ++ name

/-- Why a value does not fit. -/
inductive Mismatch where
  /-- It is of another kind. -/
  | kind (found : Found) (wanted : Wanted)
  /-- It is of the right kind but out of range. -/
  | range (found : Found) (wanted : Wanted)
  /-- A sequence is too short for its record. -/
  | tooFew (count : Nat) (name : String) (fields : Nat)
  /-- A sequence has more elements than were read. -/
  | tooMany (count read : Nat)
  /-- A field is not there. -/
  | missing (name : String)
  /-- A field is there twice. -/
  | duplicate (name : String)
  /-- No alternative has this name. -/
  | unknownAlternative (name only : String)
  /-- Neither alternative of a compact target fits. -/
  | neitherBits
  /-- The text of a hash is no hexadecimal text of its length. -/
  | hash (error : HexError)
  /-- The text of a compact target is no number. -/
  | bits (text : String) (error : IntegerError)
  /-- The positions of a version layout are refused. -/
  | layout (error : VersionError)
  /-- A value is of a kind that the format itself rules out here. -/
  | expected (wanted found : String)
  /-- An alternative that holds nothing is given something. -/
  | notEmpty
  /-- An alternative written as a table does not stand alone. -/
  | notAlone
  deriving DecidableEq, Repr

/-- The wording, numbers in a style. -/
def Mismatch.message (style : Binary64.Style) : Mismatch → String
  | .kind found wanted => "invalid type: " ++ found.name style ++ ", expected " ++ wanted.name
  | .range found wanted => "invalid value: " ++ found.name style ++ ", expected " ++ wanted.name
  | .tooFew count name fields =>
      "invalid length " ++ toString count ++ ", expected struct " ++ name ++ " with " ++
        toString fields ++ " elements"
  | .tooMany count read =>
      "invalid length " ++ toString count ++ ", expected " ++ toString read ++
        (if read = 1 then " element in sequence" else " elements in sequence")
  | .missing name => "missing field " ++ Text.ticked name
  | .duplicate name => "duplicate field " ++ Text.ticked name
  | .unknownAlternative name only =>
      "unknown variant " ++ Text.ticked name ++ ", expected " ++ Text.ticked only
  | .neitherBits => "data did not match any variant of untagged enum BitsRepr"
  | .hash error => error.message
  | .bits text error => "invalid compact bits " ++ text ++ ": " ++ error.message
  | .layout error => error.message
  | .expected wanted found => "expected " ++ wanted ++ ", found " ++ found
  | .notEmpty => "expected empty table"
  | .notAlone => "enum table must contain exactly one table"

/-- Reads the text of a compact target: hexadecimal digits, perhaps after `0x`. -/
def bitsOfText (text : String) : Except Mismatch UInt32 :=
  let digits :=
    match text.toList with
    | '0' :: 'x' :: digits => digits
    | '0' :: 'X' :: digits => digits
    | digits => digits
  match Integer.readNat 16 (UInt32.size - 1) digits with
  | .ok n => .ok (UInt32.ofNat n)
  | .error error => .error (.bits text error)

/-- The layout with these positions, as a field of parameters. -/
def layoutOf (flagBit shift : UInt8) : Except Mismatch Version.Layout :=
  (Version.Layout.ofPositions flagBit shift).mapError .layout

end MergedMining.Decoding
