import MergedMining.Toml.Document

/-!
# Sound documents

A document is read for the members that are wanted, so a fault elsewhere can go unnoticed.  A sound
document has no such fault: no table has a key twice, whatever is written as a date is one, and all
headers can stand where they do.

## Main definitions

* `Toml.Value.isSound`, `Toml.Group.isSound`, `Toml.Document.isSound` — the rule at each level.
* `Toml.isSound` — whether a text is a sound document.
-/

namespace MergedMining.Toml

/-- The key by which a date is told from a table: a table that starts with it is the date whose text
stands under it. -/
def dateKey : String := "$__toml_private_datetime"

/-- Whether a value is the text of a date. -/
def Value.isDateText : Value → Bool
  | .scalar (.text text) => isDate text.toList
  | _ => false

namespace Member

/-- The name of a member; a clash has none. -/
def name? : Member → Option String
  | entry key _ | group key _ => some key
  | clash _ => none

/-- Whether a member is an entry. -/
def isEntry : Member → Bool
  | entry .. => true
  | _ => false

/-- The value of a member that marks its table as a date. -/
def dateMark? : Member → Option Value
  | entry key value => if key = dateKey then some value else none
  | _ => none

end Member

/-- The value that marks a table as a date, if its first member is such a mark. -/
def dateMark? (members : List Member) : Option Value := members.head?.bind Member.dateMark?

/-- A table that is marked as a date is read no further than its mark.  If it is an element of an
array, the sections under it count for the next element. -/
def handover : Handover := fun members =>
  match dateMark? members with
  | some _ => members.partition Member.isEntry
  | none => (members, [])

/-- Whether the names in a table are distinct.  A section cannot be the text of a date, so that none
may stand first under the hidden key. -/
def namesAreSound (members : List Member) : Bool :=
  let names := members.filterMap Member.name?
  decide names.Nodup && names.head? != some dateKey

/-- Whether a table is sound, given whether all its members are.  Behind the mark of a date only
entries may follow, and they do not count. -/
def tableIsSound (members : List Member) (areSound : Bool) : Bool :=
  match dateMark? members with
  | some value => value.isDateText && members.all Member.isEntry
  | none => namesAreSound members && areSound

mutual

/-- Whether a value is sound. -/
def Value.isSound : Value → Bool
  | .scalar (.date text) => isDate text
  | .scalar _ => true
  | .array items => itemsAreSound items
  | .inline entries | .dotted entries =>
      tableIsSound (Entries.members entries) (entriesAreSound entries)

/-- Whether all items of an array are sound. -/
def itemsAreSound : List Value → Bool
  | [] => true
  | value :: values => value.isSound && itemsAreSound values

/-- Whether all values of a table are sound. -/
def entriesAreSound : List (String × Value) → Bool
  | [] => true
  | (_, value) :: entries => value.isSound && entriesAreSound entries

end

mutual

/-- Whether what sections make up is sound. -/
def Group.isSound : Group → Bool
  | .table _ members => tableIsSound members (membersAreSound members)
  | .elements earlier last =>
      tablesAreSound earlier && tableIsSound last (membersAreSound last)

/-- Whether all tables of an array are sound. -/
def tablesAreSound : List (List Member) → Bool
  | [] => true
  | members :: tables => tableIsSound members (membersAreSound members) && tablesAreSound tables

/-- Whether all members of a table are sound. -/
def membersAreSound : List Member → Bool
  | [] => true
  | .entry _ value :: members => value.isSound && membersAreSound members
  | .group _ group :: members => group.isSound && membersAreSound members
  | .clash _ :: _ => false

end

/-- Whether a document is sound.  Once it is marked as a date, nothing else in it counts. -/
def Document.isSound (document : Document) : Bool :=
  let members := document.membersBy handover
  match dateMark? members with
  | some value => value.isDateText
  | none => namesAreSound members && membersAreSound members

/-- Whether a text is a sound document. -/
def isSound (text : String) : Bool := (Document.ofText? text).any Document.isSound

end MergedMining.Toml
