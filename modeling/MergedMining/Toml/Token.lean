import MergedMining.Text.Integer

/-!
# Tokens of TOML texts

A text is cut into tokens from the left; a text with a character that starts none is refused as a
whole.  Numbers and dates are no tokens of their own: they are put together later from words and
marks, since the same words can be keys.

## Main definitions

* `Toml.Token` — the tokens.
* `Toml.tokens?` — the tokens of a text.
-/

namespace MergedMining.Toml

/-- A token. -/
inductive Token where
  /-- The end of a line. -/
  | newline
  /-- Blanks and tabs. -/
  | blank (text : List Char)
  /-- A comment up to the end of the line. -/
  | comment
  /-- Stands between a key and its value. -/
  | equals
  /-- Stands between the parts of a key. -/
  | period
  /-- Stands between values. -/
  | comma
  /-- Stands between the parts of a time. -/
  | colon
  /-- A sign. -/
  | plus
  /-- Opens an inline table. -/
  | openBrace
  /-- Closes an inline table. -/
  | closeBrace
  /-- Opens an array or a header. -/
  | openBracket
  /-- Closes an array or a header. -/
  | closeBracket
  /-- A string. -/
  | string (text : String) (multiline : Bool)
  /-- Letters, digits, dashes and underscores. -/
  | word (text : List Char)
  deriving DecidableEq, Repr

/-- Whether a character is a blank or a tab. -/
def isBlank (c : Char) : Bool := c == ' ' || c == '\t'

/-- Whether a character may stand in a comment. -/
def isCommentChar (c : Char) : Bool := c == '\t' || 0x20 ≤ c.toNat

/-- Whether a character may stand in a string as it is. -/
def isStringChar (c : Char) : Bool := isCommentChar c && c.toNat != 0x7f

/-- Whether a character may stand in a word. -/
def isWordChar (c : Char) : Bool :=
  (Hex.digitValue? 36 c).isSome || c == '-' || c == '_'

/-! ### Strings -/

/-- A piece of a string: a character, or one behind a backslash. -/
inductive Piece where
  /-- A character. -/
  | char (c : Char)
  /-- A character behind a backslash. -/
  | escape (c : Char)
  deriving DecidableEq, Repr

/-- Reads a string within a line, up to its closing quote.  If `escapes`, a backslash takes the
next character with it. -/
def scanLine (quote : Char) (escapes : Bool) : List Char → Option (List Piece × List Char)
  | [] => none
  | c :: rest =>
      if c = quote then some ([], rest)
      else if c = '\n' then none
      else if c = '\\' ∧ escapes then
        match rest with
        | [] => none
        | e :: rest =>
            (scanLine quote escapes rest).map fun (pieces, rest) => (.escape e :: pieces, rest)
      else (scanLine quote escapes rest).map fun (pieces, rest) => (.char c :: pieces, rest)

/-- Splits off up to two quotes, which belong to a string in front of its closing quotes. -/
def extraQuotes (quote : Char) : List Char → List Piece × List Char
  | a :: b :: rest =>
      if a = quote then
        if b = quote then ([.char quote, .char quote], rest) else ([.char quote], b :: rest)
      else ([], a :: b :: rest)
  | [a] => if a = quote then ([.char quote], []) else ([], [a])
  | [] => ([], [])

/-- Reads a string over several lines, up to its three closing quotes. -/
def scanBlock (quote : Char) (escapes : Bool) : List Char → Option (List Piece × List Char)
  | [] => none
  | c :: rest =>
      if c = '\\' ∧ escapes then
        match rest with
        | [] => none
        | e :: rest =>
            (scanBlock quote escapes rest).map fun (pieces, rest) => (.escape e :: pieces, rest)
      else if [quote, quote, quote].isPrefixOf (c :: rest) then
        some (extraQuotes quote (rest.drop 2))
      else (scanBlock quote escapes rest).map fun (pieces, rest) => (.char c :: pieces, rest)

/-- What is passed over behind a backslash at the end of a line. -/
inductive Skip where
  /-- Nothing. -/
  | nothing
  /-- Blanks up to the end of the line. -/
  | line
  /-- Blanks and ends of lines. -/
  | all
  deriving DecidableEq, Repr

/-- The character of an escape with a single letter. -/
def simpleEscape? : Char → Option Char
  | '"' => some '"'
  | '\\' => some '\\'
  | 'b' => some '\x08'
  | 'f' => some '\x0c'
  | 'n' => some '\n'
  | 'r' => some '\r'
  | 't' => some '\t'
  | _ => none

/-- The character whose code the hexadecimal digits spell. -/
def codeChar? (digits : List Char) : Option Char := do
  let digits ← digits.mapM (Hex.digitValue? 16)
  let code := digits.foldl (fun n d => 16 * n + d) 0
  if code < 0xd800 ∨ (0xdfff < code ∧ code < 0x110000) then some (Char.ofNat code) else none

/-- The text of a string's pieces. -/
def joinPieces? (multiline : Bool) : Skip → List Piece → Option (List Char)
  | skip, [] => if skip = .line then none else some []
  | skip, .char c :: rest =>
      if skip ≠ .nothing ∧ isBlank c then joinPieces? multiline skip rest
      else if skip ≠ .nothing ∧ c = '\n' then joinPieces? multiline .all rest
      else if skip = .line then none
      else if isStringChar c || (multiline && c == '\n') then
        (joinPieces? multiline .nothing rest).map (c :: ·)
      else none
  | .line, .escape _ :: _ => none
  | _, .escape 'u' :: .char a :: .char b :: .char c :: .char d :: rest => do
      let x ← codeChar? [a, b, c, d]
      let xs ← joinPieces? multiline .nothing rest
      return x :: xs
  | _, .escape 'U' :: .char a :: .char b :: .char c :: .char d :: .char e :: .char f :: .char g ::
      .char h :: rest => do
      let x ← codeChar? [a, b, c, d, e, f, g, h]
      let xs ← joinPieces? multiline .nothing rest
      return x :: xs
  | _, .escape c :: rest =>
      if multiline ∧ isBlank c then joinPieces? multiline .line rest
      else if multiline ∧ c = '\n' then joinPieces? multiline .all rest
      else do
        let x ← simpleEscape? c
        let xs ← joinPieces? multiline .nothing rest
        return x :: xs

/-- Leaves out an end of line at the start. -/
def dropFirstNewline : List Piece → List Piece
  | .char '\n' :: rest => rest
  | pieces => pieces

/-- Reads a string behind its first quote. -/
def scanString? (quote : Char) (escapes : Bool) (text : List Char) :
    Option (Token × List Char) := do
  if [quote, quote].isPrefixOf text then
    let (pieces, rest) ← scanBlock quote escapes (text.drop 2)
    let chars ← joinPieces? true .nothing (dropFirstNewline pieces)
    return (.string (String.ofList chars) true, rest)
  else
    let (pieces, rest) ← scanLine quote escapes text
    let chars ← joinPieces? false .nothing pieces
    return (.string (String.ofList chars) false, rest)

/-! ### Texts -/

/-- Reads one token. -/
def scanToken? : List Char → Option (Token × List Char)
  | [] => none
  | '\n' :: rest => some (.newline, rest)
  | '=' :: rest => some (.equals, rest)
  | '.' :: rest => some (.period, rest)
  | ',' :: rest => some (.comma, rest)
  | ':' :: rest => some (.colon, rest)
  | '+' :: rest => some (.plus, rest)
  | '\x7b' :: rest => some (.openBrace, rest)
  | '\x7d' :: rest => some (.closeBrace, rest)
  | '[' :: rest => some (.openBracket, rest)
  | ']' :: rest => some (.closeBracket, rest)
  | '#' :: rest => some (.comment, rest.dropWhile isCommentChar)
  | '"' :: rest => scanString? '"' true rest
  | '\'' :: rest => scanString? '\'' false rest
  | c :: rest =>
      if isBlank c then some (.blank (c :: rest.takeWhile isBlank), rest.dropWhile isBlank)
      else if isWordChar c then
        some (.word (c :: rest.takeWhile isWordChar), rest.dropWhile isWordChar)
      else none

/-- The tokens of a text, read in at most `fuel` steps. -/
def tokensWithin? : (fuel : Nat) → List Char → Option (List Token)
  | _, [] => some []
  | 0, _ => none
  | fuel + 1, text => do
      let (token, rest) ← scanToken? text
      let tokens ← tokensWithin? fuel rest
      return token :: tokens

/-- A carriage return in front of a line feed does not count. -/
def foldLineEnds : List Char → List Char
  | '\r' :: '\n' :: rest => '\n' :: foldLineEnds rest
  | c :: rest => c :: foldLineEnds rest
  | [] => []

/-- The tokens of a text, which may start with a byte-order mark.  Every step takes at least one
character, so that there are no more steps than characters. -/
def tokens? (text : String) : Option (List Token) :=
  let chars := match text.toList with
    | '\ufeff' :: rest => rest
    | chars => chars
  tokensWithin? chars.length (foldLineEnds chars)

end MergedMining.Toml
