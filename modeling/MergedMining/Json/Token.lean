import MergedMining.Json.Numeral

/-!
# Tokens of JSON texts

A text is cut into tokens from the left.  Where no token can be read the list ends in a token that
says so, and what stands behind is not looked at.

## Main definitions

* `Json.Token` — the tokens.
* `Json.tokens` — the tokens of a text.
-/

namespace MergedMining.Json

/-- A token. -/
inductive Token where
  /-- Opens an object. -/
  | openObject
  /-- Closes an object. -/
  | closeObject
  /-- Opens an array. -/
  | openArray
  /-- Closes an array. -/
  | closeArray
  /-- Stands between a key and its value. -/
  | colon
  /-- Stands between members. -/
  | comma
  /-- The null value. -/
  | null
  /-- A truth value. -/
  | boolean (value : Bool)
  /-- A number. -/
  | number (value : Numeral)
  /-- A string; its text is missing if its escapes do not pair up to characters. -/
  | string (text : Option String)
  /-- No token can be read here. -/
  | malformed
  deriving DecidableEq, Repr

/-! ### Strings -/

/-- A piece of a string: a character, or a UTF-16 unit that is written as an escape. -/
inductive Piece where
  /-- A character. -/
  | char (c : Char)
  /-- An escaped unit. -/
  | unit (n : Nat)
  deriving DecidableEq, Repr

/-- The number that four hexadecimal digits spell. -/
def fourDigits? (a b c d : Char) : Option Nat := do
  let a ← Hex.digitValue? 16 a
  let b ← Hex.digitValue? 16 b
  let c ← Hex.digitValue? 16 c
  let d ← Hex.digitValue? 16 d
  return 4096 * a + 256 * b + 16 * c + d

/-- The character of an escape with a single letter. -/
def simpleEscape? : Char → Option Char
  | '"' => some '"'
  | '\\' => some '\\'
  | '/' => some '/'
  | 'b' => some '\x08'
  | 'f' => some '\x0c'
  | 'n' => some '\n'
  | 'r' => some '\r'
  | 't' => some '\t'
  | _ => none

/-- Reads the inside of a string up to its closing quote.  Control characters have to be
escaped. -/
def scanPieces : List Char → Option (List Piece × List Char)
  | [] => none
  | '"' :: rest => some ([], rest)
  | '\\' :: 'u' :: a :: b :: c :: d :: rest =>
      match fourDigits? a b c d, scanPieces rest with
      | some n, some (pieces, rest) => some (.unit n :: pieces, rest)
      | _, _ => none
  | '\\' :: c :: rest =>
      match simpleEscape? c, scanPieces rest with
      | some c, some (pieces, rest) => some (.char c :: pieces, rest)
      | _, _ => none
  | c :: rest =>
      if c = '\\' ∨ c.toNat < 0x20 then none
      else (scanPieces rest).map fun (pieces, rest) => (.char c :: pieces, rest)

/-- The characters that pieces spell: a unit is a character by itself, or the first of a pair of
surrogates. -/
def joinPieces? : List Piece → Option (List Char)
  | [] => some []
  | .char c :: rest => (joinPieces? rest).map (c :: ·)
  | .unit high :: rest =>
      if 0xdc00 ≤ high ∧ high ≤ 0xdfff then none
      else if 0xd800 ≤ high ∧ high ≤ 0xdbff then
        match rest with
        | .unit low :: rest =>
            if 0xdc00 ≤ low ∧ low ≤ 0xdfff then
              (joinPieces? rest).map
                (Char.ofNat (0x10000 + 1024 * (high - 0xd800) + (low - 0xdc00)) :: ·)
            else none
        | _ => none
      else (joinPieces? rest).map (Char.ofNat high :: ·)

/-- Reads a string behind its opening quote. -/
def scanString (text : List Char) : Token × List Char :=
  match scanPieces text with
  | some (pieces, rest) => (.string ((joinPieces? pieces).map String.ofList), rest)
  | none => (.malformed, [])

/-! ### Texts -/

/-- Reads one token; blanks in front of it are not expected. -/
def scanToken : List Char → Token × List Char
  | '\x7b' :: rest => (.openObject, rest)
  | '\x7d' :: rest => (.closeObject, rest)
  | '[' :: rest => (.openArray, rest)
  | ']' :: rest => (.closeArray, rest)
  | ':' :: rest => (.colon, rest)
  | ',' :: rest => (.comma, rest)
  | '"' :: rest => scanString rest
  | 'n' :: 'u' :: 'l' :: 'l' :: rest => (.null, rest)
  | 't' :: 'r' :: 'u' :: 'e' :: rest => (.boolean true, rest)
  | 'f' :: 'a' :: 'l' :: 's' :: 'e' :: rest => (.boolean false, rest)
  | text =>
      match Numeral.scan? text with
      | some (n, rest) => (.number n, rest)
      | none => (.malformed, [])

/-- Whether a character may stand between tokens. -/
def isBlank (c : Char) : Bool := c == ' ' || c == '\n' || c == '\t' || c == '\r'

/-- The tokens of a text, read in at most `fuel` steps. -/
def tokensWithin : (fuel : Nat) → List Char → List Token
  | 0, _ | _, [] => []
  | fuel + 1, c :: cs =>
      if isBlank c then tokensWithin fuel cs
      else
        let (token, rest) := scanToken (c :: cs)
        token :: tokensWithin fuel rest

/-- The tokens of a text.  Every step takes at least one character, so that there are no more steps
than characters. -/
def tokens (text : String) : List Token := tokensWithin text.length text.toList

end MergedMining.Json
