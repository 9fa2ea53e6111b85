import MergedMining.Toml.Document

/-!
# Reading TOML values

Readers take the members of a document for values of the domain.  An error names the headers and the
key it was found under; what stands inside a value has no name of its own.  A member that no reader
wants is passed over, and only a header that cannot stand where it does stops the reader there.

## Main definitions

* `Toml.Error` — why a text holds no such value.
* `Toml.Reader` — reads what a name stands for.
* `Toml.unsigned`, `Toml.boolean`, `Toml.bits`, `Toml.alternative` — readers.
* `Toml.Record` — describes a record; `Toml.Record.read` reads one from a member,
  `Toml.Record.readDocument` from a whole text.
-/

namespace MergedMining.Toml

open Decoding

/-- Why a text holds no value of the wanted form. -/
inductive Error where
  /-- It is no document. -/
  | malformed
  /-- The member on this path does not fit. -/
  | mismatch (reason : Mismatch) (path : List String)
  /-- In the table on this path there is a header that cannot stand there. -/
  | clash (reason : Clash) (path : List String)
  deriving DecidableEq, Repr

/-- Numbers in messages: a tie goes up, and no exponent is written. -/
def messageStyle : Binary64.Style := ⟨.up, none⟩

namespace Error

/-- The wording of the place of an error. -/
def place : List String → String
  | [] => ""
  | path => " for key " ++ Text.ticked (".".intercalate path)

/-- The wording of an error. -/
def message : Error → String
  | malformed => "malformed document"
  | mismatch reason path => reason.message messageStyle ++ place path
  | clash reason path => reason.message ++ place path

/-- The same error, found on a path. -/
def within (outer : List String) : Error → Error
  | malformed => malformed
  | mismatch reason path => mismatch reason (outer ++ path)
  | clash reason path => clash reason (outer ++ path)

/-- The same error, without the keys it was found under. -/
def unnamed : Error → Error
  | malformed => malformed
  | mismatch reason _ => mismatch reason []
  | clash reason _ => clash reason []

end Error

/-- Reads what a name stands for. -/
abbrev Reader (α : Type) := Item → Except Error α

/-! ### Passing over -/

mutual

/-- The first header that cannot stand where it does, and the names that lead to it. -/
def Group.clash? : Group → Option (Clash × List String)
  | .table _ members => membersClash? members
  | .elements earlier last => (tablesClash? earlier).or (membersClash? last)

/-- The first such header in an array of tables. -/
def tablesClash? : List (List Member) → Option (Clash × List String)
  | [] => none
  | members :: tables => (membersClash? members).or (tablesClash? tables)

/-- The first such header in a table. -/
def membersClash? : List Member → Option (Clash × List String)
  | [] => none
  | .entry .. :: members => membersClash? members
  | .group key group :: members =>
      (group.clash?.map fun (reason, path) => (reason, key :: path)).or (membersClash? members)
  | .clash reason :: _ => some (reason, [])

end

/-- Passes over what a name stands for. -/
def pass : Reader Unit
  | .value _ => .ok ()
  | .group group =>
      match group.clash? with
      | none => .ok ()
      | some (reason, path) => .error (.clash reason path)

/-! ### Simple values -/

/-- What a value is found to be.  A date is a map of one hidden name. -/
def Scalar.found : Scalar → Found
  | .text value => .text value
  | .integer value => .integer value
  | .float value => .float value
  | .boolean value => .boolean value
  | .date _ => .map

/-- What a name stands for, as it is found. -/
def Item.found : Item → Found
  | .value (.scalar scalar) => scalar.found
  | .value (.array _) | .group (.elements ..) => .sequence
  | .value (.inline _) | .value (.dotted _) | .group (.table ..) => .map

/-- The error for something of another kind than wanted. -/
def refuse {α : Type} (wanted : Wanted) (item : Item) : Except Error α :=
  .error (.mismatch (.kind item.found wanted) [])

/-- A number from zero below `2 ^ bits`. -/
def unsigned (bits : Nat) : Reader Nat
  | .value (.scalar (.integer value)) =>
      if 0 ≤ value ∧ value.toNat < 2 ^ bits then .ok value.toNat
      else .error (.mismatch (.range (.integer value) (.unsigned bits)) [])
  | item => refuse (.unsigned bits) item

/-- A 32-bit word. -/
def word : Reader UInt32 := fun item => (unsigned 32 item).map UInt32.ofNat

/-- A truth value. -/
def boolean : Reader Bool
  | .value (.scalar (.boolean value)) => .ok value
  | item => refuse .boolean item

/-- A compact target: an integer, or a text of hexadecimal digits.  Anything else is passed over
before it is refused. -/
def bits : Reader UInt32
  | .value (.scalar (.text text)) => (bitsOfText text).mapError (.mismatch · [])
  | .value (.scalar (.integer value)) =>
      if 0 ≤ value ∧ value.toNat < UInt32.size then .ok (UInt32.ofNat value.toNat)
      else .error (.mismatch .neitherBits [])
  | item => do
      pass item
      throw (.mismatch .neitherBits [])

/-! ### Alternatives -/

/-- How a value is named where an alternative is wanted. -/
def Value.kindName : Value → String
  | .scalar (.text _) => "string"
  | .scalar (.integer _) => "integer"
  | .scalar (.float _) => "float"
  | .scalar (.boolean _) => "boolean"
  | .scalar (.date _) => "datetime"
  | .array _ => "array"
  | .inline _ => "inline table"
  | .dotted _ => "dotted table"

/-- Checks the name of the only alternative. -/
def checkName (only name : String) : Except Error Unit :=
  if name = only then .ok () else .error (.mismatch (.unknownAlternative name only) [])

/-- Checks that what is given to an alternative is an empty table. -/
def checkEmpty : Value → Except Error Unit
  | .inline [] | .dotted [] => .ok ()
  | .inline _ | .dotted _ => .error (.mismatch .notEmpty [])
  | value => .error (.mismatch (.expected "table" value.kindName) [])

/-- The only alternative of its kind: its name, or a table between braces that gives it an empty
table.  Under a header it can only be the one section of its document. -/
def alternative (sections : List Section) (only : String) : Reader Unit
  | .value (.scalar (.text name)) => checkName only name
  | .value (.inline [(name, value)]) => do
      checkName only name
      checkEmpty value
  | .value (.inline []) =>
      .error (.mismatch (.expected "exactly 1 element" "zero elements") [])
  | .value (.inline _) =>
      .error (.mismatch (.expected "exactly 1 element" "more than 1 element") [])
  | .value value =>
      .error (.mismatch (.expected "string or inline table" value.kindName) [])
  | .group _ =>
      match sections with
      | [s] => do
          checkName only (s.path.getLastD "")
          checkEmpty (.dotted s.entries)
      | _ => .error (.mismatch .notAlone [])

/-! ### Records -/

/-- A field of a record that is read into a draft. -/
structure Field (δ : Type) where
  /-- The field's name. -/
  name : String
  /-- Whether the draft has it already. -/
  isSet : δ → Bool
  /-- Reads it into a draft. -/
  read : Reader (δ → δ)

/-- A record. -/
structure Record (δ α : Type) where
  /-- The record's name. -/
  name : String
  /-- The draft without any field. -/
  empty : δ
  /-- The fields, in the order in which an array gives them. -/
  fields : List (Field δ)
  /-- The record of a draft, or the name of a field it cannot do without. -/
  complete : δ → Except String α

variable {δ : Type}

/-- Reads what a name stands for into a draft.  Names that are not known are passed over. -/
def readField (fields : List (Field δ)) (draft : δ) (key : String) (item : Item) : Except Error δ :=
  match fields.find? (·.name == key) with
  | none => ((pass item).mapError (.within [key])).map fun () => draft
  | some field =>
      if field.isSet draft then .error (.mismatch (.duplicate key) [])
      else ((field.read item).mapError (.within [key])).map fun set => set draft

/-- Reads the members of a table. -/
def readMembers (fields : List (Field δ)) : δ → List Member → Except Error δ
  | draft, [] => .ok draft
  | draft, .entry key value :: members => do
      readMembers fields (← readField fields draft key (.value value)) members
  | draft, .group key group :: members => do
      readMembers fields (← readField fields draft key (.group group)) members
  | _, .clash reason :: _ => .error (.clash reason [])

/-- Reads the items of an array, one for each field; gives the items that are left over too. -/
def readItems : δ → List (Field δ) → List Item → Except Error (δ × List Item)
  | draft, field :: fields, item :: items => do
      let set ← field.read item
      readItems (set draft) fields items
  | draft, _, items => .ok (draft, items)

namespace Record

variable {α : Type} (r : Record δ α)

/-- The record of a draft. -/
def finish (draft : δ) : Except Error α :=
  (r.complete draft).mapError fun name => .mismatch (.missing name) []

/-- Reads the draft of a record from the items of an array. -/
def readArray (items : List Item) : Except Error δ := do
  let (draft, rest) ← readItems r.empty r.fields items
  if rest.isEmpty then return draft
  else throw (.mismatch (.tooMany items.length (items.length - rest.length)) [])

/-- Reads the draft of a record.  Keys within a value are not named in errors. -/
def readDraft : Reader δ
  | .group (.table _ members) => readMembers r.fields r.empty members
  | .group (.elements earlier last) =>
      r.readArray ((earlier ++ [last]).map fun members => .group (.table true members))
  | .value (.inline entries) | .value (.dotted entries) =>
      (readMembers r.fields r.empty (Entries.members entries)).mapError .unnamed
  | .value (.array items) => r.readArray (items.map .value)
  | .value (.scalar (.date _)) => .ok r.empty
  | item => refuse (.record r.name) item

/-- Reads a record. -/
def read : Reader α := fun item => do r.finish (← r.readDraft item)

/-- Reads a record from the members of a document. -/
def readDocument (document : Document) : Except Error α := do
  r.finish (← readMembers r.fields r.empty document.members)

end Record

end MergedMining.Toml
