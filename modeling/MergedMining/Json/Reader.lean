import MergedMining.Hash256
import MergedMining.Json.Node

/-!
# Reading JSON values

Readers take the value of a text for a value of the domain.  Faults of form and values that do not
fit are reported in the order of the text.

## Main definitions

* `Json.Error` — why a text holds no such value.
* `Json.Reader` — reads a value.
* `Json.unsigned`, `Json.boolean`, `Json.hash`, `Json.sequence`, … — readers.
* `Json.Record` — describes a record, which may be written as an object or as an array;
  `Json.Record.read` reads it.
* `Json.decode` — reads a text.
-/

namespace MergedMining.Json

open Decoding

/-- Why a text holds no value of the wanted form. -/
inductive Error where
  /-- It is not well-formed. -/
  | malformed
  /-- A value does not fit. -/
  | mismatch (reason : Mismatch)
  deriving DecidableEq, Repr

/-- Numbers in messages: a tie goes to the even digit, and an exponent is written beyond sixteen
digits before the point and beyond four zeros after it. -/
def messageStyle : Binary64.Style := ⟨.even, some (-4, 16)⟩

/-- The wording of an error. -/
def Error.message : Error → String
  | .malformed => "malformed text"
  | .mismatch reason => reason.message messageStyle

/-- Reads a value. -/
abbrev Reader (α : Type) := Node → Except Error α

/-- A number as it is found. -/
def foundNumber (n : Numeral) : Except Error Found :=
  match n.value? with
  | some (.integer value) => .ok (.integer value)
  | some (.float negative magnitude) => .ok (.float (.finite negative magnitude))
  | none => .error .malformed

/-- What kind of value a node is, as far as that shows before its inside is read. -/
def found : Node → Except Error Found
  | .null => .ok .null
  | .boolean value => .ok (.boolean value)
  | .number n => foundNumber n
  | .string (some text) => .ok (.text text)
  | .array .. => .ok .sequence
  | .object .. => .ok .map
  | .string none | .missing => .error .malformed

/-- The error for a value of another kind than wanted. -/
def refuse {α : Type} (wanted : Wanted) (node : Node) : Except Error α := do
  let found ← found node
  throw (.mismatch (.kind found wanted))

/-! ### Simple values -/

/-- A number from zero below `2 ^ bits`. -/
def unsigned (bits : Nat) : Reader Nat := fun node =>
  match node with
  | .number n =>
      match n.value? with
      | some (.integer value) =>
          if 0 ≤ value ∧ value.toNat < 2 ^ bits then .ok value.toNat
          else .error (.mismatch (.range (.integer value) (.unsigned bits)))
      | _ => refuse (.unsigned bits) node
  | _ => refuse (.unsigned bits) node

/-- A 32-bit word. -/
def word : Reader UInt32 := fun node => (unsigned 32 node).map UInt32.ofNat

/-- A truth value. -/
def boolean : Reader Bool
  | .boolean value => .ok value
  | node => refuse .boolean node

/-- A text. -/
def text : Reader String
  | .string (some text) => .ok text
  | node => refuse .text node

/-- A hash: sixty-four hexadecimal digits, perhaps after `0x`. -/
def hash : Reader Hash256 := fun node => do
  let text ← text node
  let digits := match text.toList with
    | '0' :: 'x' :: digits => String.ofList digits
    | _ => text
  match Hex.decodeExactly 32 digits with
  | .error error => throw (.mismatch (.hash error))
  | .ok bytes =>
      match Hash256.ofBytes? bytes with
      | some x => return x
      | none => throw (.mismatch (.hash .wrongLength))

/-- A compact target: an integer, or a text of hexadecimal digits.  The value is read as a whole,
up to a limit of nesting, before it is judged. -/
def bits : Reader UInt32 := fun node =>
  if !node.isSound 126 then .error .malformed
  else
    match node with
    | .string (some text) => (bitsOfText text).mapError .mismatch
    | .number n =>
        match n.value? with
        | some (.integer value) =>
            if 0 ≤ value ∧ value.toNat < UInt32.size then .ok (UInt32.ofNat value.toNat)
            else .error (.mismatch .neitherBits)
        | _ => .error (.mismatch .neitherBits)
    | _ => .error (.mismatch .neitherBits)

/-! ### Sequences -/

/-- Checks that an array or object is closed. -/
def closed (ending : Ending) : Except Error Unit :=
  if ending = .closed then .ok () else .error .malformed

/-- A sequence of values. -/
def sequence {α : Type} (item : Reader α) : Reader (List α)
  | .array items ending => do
      let values ← items.mapM item
      closed ending
      return values
  | node => refuse .sequence node

/-! ### Alternatives -/

/-- Checks the name of the only alternative. -/
def checkName (only : String) : Option String → Except Error Unit
  | some name =>
      if name = only then .ok () else .error (.mismatch (.unknownAlternative name only))
  | none => .error .malformed

/-- The only alternative of its kind: its name, or an object that gives it the null value. -/
def alternative (only : String) : Reader Unit
  | .string name => checkName only name
  | .object ((name, node) :: others) ending => do
      checkName only name
      match node with
      | .null => pure ()
      | node => refuse .unit node
      if others.isEmpty then closed ending else throw .malformed
  | _ => .error .malformed

/-! ### Records -/

/-- A field of a record that is read into a draft. -/
structure Field (δ : Type) where
  /-- The field's name. -/
  name : String
  /-- Whether the draft has it already. -/
  isSet : δ → Bool
  /-- Reads it into a draft. -/
  read : Reader (δ → δ)

/-- A record. -/
structure Record (δ α : Type) where
  /-- The record's name. -/
  name : String
  /-- The draft without any field. -/
  empty : δ
  /-- The fields, in the order in which an array gives them. -/
  fields : List (Field δ)
  /-- The record of a draft, or the name of a field it cannot do without. -/
  complete : δ → Except String α

/-- Reads the members of an object.  Names that are not known are passed over. -/
def readMembers {δ : Type} (fields : List (Field δ)) : δ → List (Option String × Node) →
    Except Error δ
  | draft, [] => .ok draft
  | _, (none, _) :: _ => .error .malformed
  | draft, (some name, node) :: members =>
      match fields.find? (·.name == name) with
      | none => if node.isWhole then readMembers fields draft members else .error .malformed
      | some field =>
          if field.isSet draft then .error (.mismatch (.duplicate name))
          else
            match field.read node with
            | .error error => .error error
            | .ok set => readMembers fields (set draft) members

/-- Reads the items of an array, one for each field; gives the items that are left over too. -/
def readItems {δ : Type} : δ → List (Field δ) → List Node → Except Error (δ × List Node)
  | draft, field :: fields, node :: nodes =>
      match field.read node with
      | .error error => .error error
      | .ok set => readItems (set draft) fields nodes
  | draft, _, nodes => .ok (draft, nodes)

namespace Record

variable {δ α : Type} (r : Record δ α)

/-- Reads a record. -/
def read : Reader α
  | .object members ending => do
      let draft ← readMembers r.fields r.empty members
      closed ending
      (r.complete draft).mapError fun name => .mismatch (.missing name)
  | .array items ending => do
      let (draft, rest) ← readItems r.empty r.fields items
      if rest.isEmpty then closed ending else throw .malformed
      (r.complete draft).mapError fun name =>
        .mismatch (.tooFew (r.fields.findIdx (·.name == name)) r.name r.fields.length)
  | node => refuse (.record r.name) node

end Record

/-! ### Texts -/

/-- Reads a text that holds one value and nothing else. -/
def decode {α : Type} (reader : Reader α) (text : String) : Except Error α := do
  let document := Document.ofText text
  let value ← reader document.root
  if document.complete then return value else throw .malformed

end MergedMining.Json
