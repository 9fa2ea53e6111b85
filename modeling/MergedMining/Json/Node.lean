import MergedMining.Json.Token

/-!
# JSON values that may break off

A text that is not well-formed is still read up to its first fault: the value then breaks off there,
in the middle of an array or an object, or where a value should have started.  So a reader that
wants a certain shape meets faults of form and values that do not fit in the order of the text.

## Main definitions

* `Json.Node` — values that may break off.
* `Json.Document` — a value and whether the text ends behind it, `Json.Document.ofTokens` reads one.
* `Json.Node.isWhole`, `Json.Node.isSound` — whether a value does not break off.
-/

namespace MergedMining.Json

/-- How an array or object ends. -/
inductive Ending where
  /-- It is closed. -/
  | closed
  /-- It breaks off. -/
  | broken
  deriving DecidableEq, Repr

/-- A value that may break off. -/
inductive Node where
  /-- There is no value. -/
  | missing
  /-- The null value. -/
  | null
  /-- A truth value. -/
  | boolean (value : Bool)
  /-- A number. -/
  | number (value : Numeral)
  /-- A string; its text is missing if its escapes do not pair up to characters. -/
  | string (text : Option String)
  /-- An array. -/
  | array (items : List Node) (ending : Ending)
  /-- An object: keys and values in the order of the text. -/
  | object (members : List (Option String × Node)) (ending : Ending)

/-- A value and what is behind it. -/
structure Document where
  /-- The value. -/
  root : Node
  /-- Whether the text ends behind the value. -/
  complete : Bool

/-! ### Reading -/

/-- An array or object that is still open, with what has been read of it, last first. -/
inductive Frame where
  /-- An array. -/
  | items (read : List Node)
  /-- An object, between members. -/
  | members (read : List (Option String × Node))
  /-- An object, behind a key. -/
  | value (read : List (Option String × Node)) (key : Option String)

/-- What may come next. -/
inductive Expect where
  /-- A value. -/
  | value
  /-- A value, or the end of the array. -/
  | valueOrEnd
  /-- A key. -/
  | key
  /-- A key, or the end of the object. -/
  | keyOrEnd
  /-- A colon. -/
  | colon
  /-- A comma, or the end of the array or object. -/
  | separator
  deriving DecidableEq

/-- Closes the open arrays and objects around a value that breaks off. -/
def unwind : Node → List Frame → Node
  | node, [] => node
  | node, .items read :: frames => unwind (.array (node :: read).reverse .broken) frames
  | _, .members read :: frames => unwind (.object read.reverse .broken) frames
  | node, .value read key :: frames => unwind (.object ((key, node) :: read).reverse .broken) frames

/-- The value that breaks off in the innermost open array or object. -/
def breakOff (expect : Expect) : List Frame → Node
  | .items read :: frames =>
      match expect with
      | .value => unwind (.array (.missing :: read).reverse .broken) frames
      | _ => unwind (.array read.reverse .broken) frames
  | .members read :: frames => unwind (.object read.reverse .broken) frames
  | .value read key :: frames => unwind (.object ((key, .missing) :: read).reverse .broken) frames
  | [] => .missing

/-- The value of a token that is a value by itself. -/
def scalar? : Token → Option Node
  | .null => some .null
  | .boolean value => some (.boolean value)
  | .number value => some (.number value)
  | .string text => some (.string text)
  | _ => none

/-- Puts a finished value into the innermost open array or object. -/
def place (node : Node) : List Frame → List Frame
  | .items read :: frames => .items (node :: read) :: frames
  | .value read key :: frames => .members ((key, node) :: read) :: frames
  | frames => frames

/-- The value that is finished when an array or object is closed, and what is still open. -/
def close? (token : Token) : List Frame → Option (Node × List Frame)
  | .items read :: frames =>
      if token = .closeArray then some (.array read.reverse .closed, frames) else none
  | .members read :: frames =>
      if token = .closeObject then some (.object read.reverse .closed, frames) else none
  | _ => none

/-- What follows a comma. -/
def afterComma : List Frame → Expect
  | .members _ :: _ => .key
  | _ => .value

/-- Reads on with some arrays and objects open. -/
def read (expect : Expect) (frames : List Frame) : List Token → Document
  | [] => ⟨breakOff expect frames, false⟩
  | token :: rest =>
      let broken : Document := ⟨breakOff expect frames, false⟩
      let finish (node : Node) (frames : List Frame) : Document :=
        match frames with
        | [] => ⟨node, rest.isEmpty⟩
        | _ => read .separator (place node frames) rest
      let close : Document :=
        match close? token frames with
        | some (node, frames) => finish node frames
        | none => broken
      match expect, frames with
      | .separator, frames =>
          if token = .comma then read (afterComma frames) frames rest else close
      | .colon, frames => if token = .colon then read .value frames rest else broken
      | .key, .members members :: frames | .keyOrEnd, .members members :: frames =>
          match token with
          | .string key => read .colon (.value members key :: frames) rest
          | _ => if expect = .keyOrEnd then close else broken
      | _, frames =>
          match token, scalar? token with
          | .openArray, _ => read .valueOrEnd (.items [] :: frames) rest
          | .openObject, _ => read .keyOrEnd (.members [] :: frames) rest
          | _, some node => finish node frames
          | _, none => if expect = .valueOrEnd then close else broken

namespace Document

/-- The value at the start of a token list. -/
def ofTokens (tokens : List Token) : Document := read .value [] tokens

/-- The value at the start of a text. -/
def ofText (text : String) : Document := ofTokens (tokens text)

end Document

/-! ### Whole values -/

namespace Node

mutual

/-- Whether a value does not break off. -/
def isWhole : Node → Bool
  | missing => false
  | array items ending => areWhole items && ending == .closed
  | object members ending => membersAreWhole members && ending == .closed
  | _ => true

/-- Whether no item breaks off. -/
def areWhole : List Node → Bool
  | [] => true
  | node :: nodes => node.isWhole && areWhole nodes

/-- Whether no member breaks off. -/
def membersAreWhole : List (Option String × Node) → Bool
  | [] => true
  | (_, node) :: members => node.isWhole && membersAreWhole members

end

mutual

/-- Whether a value does not break off, all its numbers are in range and all its strings are texts,
with at most `depth` arrays and objects inside each other. -/
def isSound (depth : Nat) : Node → Bool
  | missing => false
  | number value => value.value?.isSome
  | string text => text.isSome
  | array items ending => 0 < depth && areSound (depth - 1) items && ending == .closed
  | object members ending =>
      0 < depth && membersAreSound (depth - 1) members && ending == .closed
  | _ => true

/-- Whether all items are sound. -/
def areSound (depth : Nat) : List Node → Bool
  | [] => true
  | node :: nodes => node.isSound depth && areSound depth nodes

/-- Whether all members are sound. -/
def membersAreSound (depth : Nat) : List (Option String × Node) → Bool
  | [] => true
  | (key, node) :: members => key.isSome && node.isSound depth && membersAreSound depth members

end

end Node

end MergedMining.Json
