import MergedMining.Toml.Value

/-!
# TOML documents

A document is a sequence of sections: entries under a header that names a table, or an element of an
array of tables.  The first section has no header and belongs to the document itself.  The sections
together make up one table, whose members stand in the order in which a reader meets them.  A header
that cannot stand where it does is one of these members: the reader that comes to it goes no
further.

## Main definitions

* `Toml.Section` — entries under a header, `Toml.sections?` reads those of a text.
* `Toml.Group`, `Toml.Member` — what sections make up.
* `Toml.Handover` — what an element of an array leaves to the next one.
* `Toml.Item` — what a name stands for.
* `Toml.Document` — a document, `Toml.Document.ofText?` reads one and
  `Toml.Document.members` are those of its table.
-/

namespace MergedMining.Toml

/-! ### Sections -/

/-- Entries under a header. -/
structure Section where
  /-- The names in the header. -/
  path : List String := []
  /-- Whether the header starts an element of an array of tables. -/
  isElement : Bool := false
  /-- The entries. -/
  entries : Entries := []

/-- Reads the closing brackets of a header. -/
def closeHeader? (isElement : Bool) (tokens : List Token) : Option (List Token) :=
  match isElement, dropBlank tokens with
  | false, .closeBracket :: tokens => some tokens
  | true, .closeBracket :: .closeBracket :: tokens => some tokens
  | _, _ => none

/-- Reads the end of a line.  A comment leaves the line's end to what follows. -/
def endLine? (tokens : List Token) : Option (List Token) :=
  match dropBlank tokens with
  | [] => some []
  | .newline :: tokens | .comment :: tokens => some tokens
  | _ => none

/-- Reads a header behind its first bracket. -/
def header? (tokens : List Token) : Option (Section × List Token) := do
  let (isElement, tokens) := match tokens with
    | .openBracket :: tokens => (true, tokens)
    | tokens => (false, tokens)
  let ((name, more), tokens) ← scanKey? tokens
  let tokens ← endLine? (← closeHeader? isElement tokens)
  return ({ path := name :: more, isElement }, tokens)

/-- Reads the rest of a section and the sections behind it, in at most `fuel` lines. -/
def sectionsWithin? : (fuel : Nat) → Section → List Token → Option (List Section)
  | 0, _, _ => none
  | fuel + 1, current, tokens =>
      match dropSpace tokens with
      | [] => some [current]
      | .openBracket :: tokens => do
          let (next, tokens) ← header? tokens
          return current :: (← sectionsWithin? fuel next tokens)
      | tokens => do
          let ((key, more), tokens) ← scanAssignment? tokens
          let (value, tokens) ← value? tokens
          let entries ← putValue? value key more current.entries
          sectionsWithin? fuel { current with entries } (← endLine? tokens)

/-- The sections of a text.  A first section without entries does not count.  Every line takes at
least one token. -/
def sections? (text : String) : Option (List Section) := do
  let tokens ← tokens? text
  match ← sectionsWithin? (tokens.length + 1) {} tokens with
  | ⟨[], _, []⟩ :: sections => return sections
  | sections => return sections

/-! ### Tables -/

/-- Why a header cannot stand where it does. -/
inductive Clash where
  /-- The table on this path has a header already. -/
  | redefined (path : List String)
  /-- It starts an array of tables where there is a table. -/
  | notArray
  deriving DecidableEq, Repr

/-- The wording of a clash. -/
def Clash.message : Clash → String
  | .redefined path => "redefinition of table " ++ Text.ticked (".".intercalate path)
  | .notArray => "table redefined as array"

mutual

/-- What the sections under one name make up. -/
inductive Group where
  /-- A table with a header of its own, or one that only stands in the way to others. -/
  | table (hasHeader : Bool) (members : List Member)
  /-- An array of tables, with its last element apart: what follows belongs to it. -/
  | elements (earlier : List (List Member)) (last : List Member)

/-- What a reader of a table meets. -/
inductive Member where
  /-- An entry. -/
  | entry (key : String) (value : Value)
  /-- The sections under a name. -/
  | group (key : String) (group : Group)
  /-- A header that cannot stand here. -/
  | clash (reason : Clash)

end

/-- The members of a table that has only entries. -/
def Entries.members (entries : Entries) : List Member :=
  entries.map fun (key, value) => .entry key value

/-- The members that a section brings. -/
def Section.members (s : Section) : List Member := Entries.members s.entries

/-- What an element of an array keeps of its members when the next element is started, and what it
leaves to that one. -/
abbrev Handover := List Member → List Member × List Member

/-- An element keeps all its members. -/
def Handover.nothing : Handover := fun members => (members, [])

variable (handover : Handover)

/-- What becomes of the sections under a name when another one is put there. -/
def Section.join (s : Section) : Option Group → Group
  | none => if s.isElement then .elements [] s.members else .table true s.members
  | some (.table hasHeader members) =>
      if hasHeader then .table true (members ++ [.clash (.redefined s.path)])
      else if s.isElement then .table false (members ++ [.clash .notArray])
      else .table true (members ++ s.members)
  | some (.elements earlier last) =>
      if s.isElement then
        let (kept, left) := handover last
        .elements (earlier ++ [kept]) (s.members ++ left)
      else .elements earlier (last ++ [.clash (.redefined s.path)])

/-- Changes what stands under a name; entries of this name are something else. -/
def changeGroup (name : String) (change : Option Group → Group) : List Member → List Member
  | [] => [.group name (change none)]
  | .group key group :: members =>
      if key = name then .group key (change (some group)) :: members
      else .group key group :: changeGroup name change members
  | member :: members => member :: changeGroup name change members

/-- Puts a section where `names` lead.  Tables on the way are made where there are none; of an array
of tables the last element is on the way. -/
def Section.enter (s : Section) : (names : List String) → Option Group → Group
  | [], group => s.join handover group
  | name :: names, none => .table false (changeGroup name (s.enter names) [])
  | name :: names, some (.table hasHeader members) =>
      .table hasHeader (changeGroup name (s.enter names) members)
  | name :: names, some (.elements earlier last) =>
      .elements earlier (changeGroup name (s.enter names) last)

/-- Puts a section into the document's table. -/
def Section.addTo (members : List Member) (s : Section) : List Member :=
  match s.path with
  | [] => members ++ s.members
  | name :: names => changeGroup name (s.enter handover names) members

/-- What a name stands for. -/
inductive Item where
  /-- The value of an entry. -/
  | value (value : Value)
  /-- The sections under the name. -/
  | group (group : Group)

/-! ### Documents -/

/-- A document. -/
structure Document where
  /-- The sections. -/
  sections : List Section

namespace Document

/-- The document of a text. -/
def ofText? (text : String) : Option Document := (sections? text).map (⟨·⟩)

/-- The members of the document's table, if elements of arrays leave members to the next ones. -/
def membersBy (document : Document) : List Member :=
  document.sections.foldl (Section.addTo handover) []

/-- The members of the document's table. -/
def members (document : Document) : List Member := document.membersBy .nothing

end Document

end MergedMining.Toml
