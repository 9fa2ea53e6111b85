import MergedMining.Toml.Scalar

/-!
# TOML values

Values with parts are arrays and tables.  A table is written in one piece between braces, or grows
from keys with dots; the two are kept apart, since only the second kind may grow further.

## Main definitions

* `Toml.Value` — values.
* `Toml.putValue?` — puts a value under a key with dots.
* `Toml.value?` — reads a value.
-/

namespace MergedMining.Toml

/-- A value. -/
inductive Value where
  /-- A value without parts. -/
  | scalar (value : Scalar)
  /-- An array. -/
  | array (items : List Value)
  /-- A table between braces. -/
  | inline (entries : List (String × Value))
  /-- A table that keys with dots have built. -/
  | dotted (entries : List (String × Value))

/-- Named values in the order in which they are written. -/
abbrev Entries := List (String × Value)

/-- The first member of this name, with what stands before and behind it. -/
def splitAtKey? {α : Type} (key : String) : List (String × α) →
    Option (List (String × α) × α × List (String × α))
  | [] => none
  | (name, a) :: rest =>
      if name = key then some ([], a, rest)
      else
        (splitAtKey? key rest).map fun (before, found, after) =>
          ((name, a) :: before, found, after)

/-- Puts a value under the key made of `key` and `more`.  Tables on the way must have grown from
keys with dots too. -/
def putValue? (value : Value) (key : String) : (more : List String) → Entries → Option Entries
  | [], entries => some (entries ++ [(key, value)])
  | next :: more, entries =>
      match splitAtKey? key entries with
      | none => (putValue? value next more []).map fun inner => entries ++ [(key, .dotted inner)]
      | some (before, .dotted inner, after) =>
          (putValue? value next more inner).map fun inner => before ++ (key, .dotted inner) :: after
      | some _ => none

/-! ### Reading -/

/-- Passes over blanks. -/
def dropBlank : List Token → List Token
  | .blank _ :: tokens => tokens
  | tokens => tokens

/-- Passes over blanks, comments and ends of lines. -/
def dropSpace : List Token → List Token
  | .blank _ :: tokens | .newline :: tokens | .comment :: tokens => dropSpace tokens
  | tokens => tokens

/-- The part of a key that a token is. -/
def keyPart? : Token → Option String
  | .word word => some (String.ofList word)
  | .string text false => some text
  | _ => none

/-- Reads a key: parts with dots between them, and blanks around the dots. -/
def scanKey? : List Token → Option ((String × List String) × List Token)
  | [] => none
  | .blank _ :: tokens => scanKey? tokens
  | token :: tokens => do
      let part ← keyPart? token
      match tokens with
      | .period :: tokens | .blank _ :: .period :: tokens =>
          let ((next, more), tokens) ← scanKey? tokens
          return ((part, next :: more), tokens)
      | tokens => return ((part, []), tokens)

/-- Reads a key and the sign behind it, up to the value. -/
def scanAssignment? (tokens : List Token) : Option ((String × List String) × List Token) := do
  let (key, tokens) ← scanKey? tokens
  match dropBlank tokens with
  | .equals :: tokens => return (key, dropBlank tokens)
  | _ => none

/-- Reads the value that starts with this word. -/
def wordValue? (word : List Char) (tokens : List Token) : Option (Scalar × List Token) :=
  if word = ['t', 'r', 'u', 'e'] then some (.boolean true, tokens)
  else if word = ['f', 'a', 'l', 's', 'e'] then some (.boolean false, tokens)
  else if word = ['i', 'n', 'f'] ∨ word = ['n', 'a', 'n'] then numberOrDate? word tokens
  else
    match word with
    | [] => none
    | c :: _ =>
        if c = '-' ∨ (Hex.digitValue? 10 c).isSome then numberOrDate? word tokens else none

mutual

/-- Reads a value in at most `fuel` nested steps. -/
def valueWithin? : (fuel : Nat) → List Token → Option (Value × List Token)
  | 0, _ | _, [] => none
  | fuel + 1, token :: tokens =>
      match token with
      | .string text _ => some (.scalar (.text text), tokens)
      | .word word => (wordValue? word tokens).map fun (value, tokens) => (.scalar value, tokens)
      | .plus =>
          match tokens with
          | .word word :: tokens =>
              (number? word tokens).map fun (value, tokens) => (.scalar value, tokens)
          | _ => none
      | .openBracket =>
          (itemsWithin? fuel tokens).map fun (items, tokens) => (.array items, tokens)
      | .openBrace =>
          match dropBlank tokens with
          | .closeBrace :: tokens => some (.inline [], tokens)
          | tokens =>
              (entriesWithin? fuel [] tokens).map fun (entries, tokens) => (.inline entries, tokens)
      | _ => none

/-- Reads the items of an array and its end.  A comma may stand behind the last item. -/
def itemsWithin? : (fuel : Nat) → List Token → Option (List Value × List Token)
  | 0, _ => none
  | fuel + 1, tokens =>
      match dropSpace tokens with
      | .closeBracket :: tokens => some ([], tokens)
      | tokens => do
          let (value, tokens) ← valueWithin? fuel tokens
          match dropSpace tokens with
          | .closeBracket :: tokens => return ([value], tokens)
          | .comma :: tokens =>
              let (values, tokens) ← itemsWithin? fuel tokens
              return (value :: values, tokens)
          | _ => none

/-- Reads further entries of a table between braces, and its end. -/
def entriesWithin? : (fuel : Nat) → Entries → List Token → Option (Entries × List Token)
  | 0, _, _ => none
  | fuel + 1, entries, tokens => do
      let ((key, more), tokens) ← scanAssignment? tokens
      let (value, tokens) ← valueWithin? fuel tokens
      let entries ← putValue? value key more entries
      match dropBlank tokens with
      | .closeBrace :: tokens => return (entries, tokens)
      | .comma :: tokens => entriesWithin? fuel entries tokens
      | _ => none

end

/-- Reads a value.  There are at most two nested steps to each token. -/
def value? (tokens : List Token) : Option (Value × List Token) :=
  valueWithin? (2 * tokens.length) tokens

end MergedMining.Toml
