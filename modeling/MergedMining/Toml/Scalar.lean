import MergedMining.Decoding.Mismatch
import MergedMining.Toml.Token

/-!
# Numbers and dates in TOML texts

Numbers and dates are put together from words and the marks between them: a date shows by a dash or
a `T` in its first word, a time by the colon behind it, and all else is a number.  What is written
where a date shows need not be one: a reader that passes over it never looks closer.

## Main definitions

* `Toml.Scalar` — values that have no parts.
* `Toml.number?` — reads a number.
* `Toml.numberOrDate?` — reads a number, or what is written as a date.
* `Toml.isDate` — whether a text is a date, a time, or both.
-/

namespace MergedMining.Toml

open Decoding

/-- A value that has no parts. -/
inductive Scalar where
  /-- A text. -/
  | text (value : String)
  /-- An integer of 64 bits. -/
  | integer (value : Int)
  /-- A floating-point number. -/
  | float (value : FloatValue)
  /-- A truth value. -/
  | boolean (value : Bool)
  /-- What is written as a date or a time. -/
  | date (text : List Char)
  deriving DecidableEq, Repr

/-! ### Runs of digits -/

/-- Digits, perhaps behind a minus sign. -/
structure Run where
  /-- Whether there is a minus sign. -/
  negative : Bool := false
  /-- The digits. -/
  digits : List Nat := []
  deriving DecidableEq, Repr

namespace Run

/-- The number that the digits spell, without the sign. -/
def magnitude (base : Nat) (run : Run) : Nat := run.digits.foldl (fun n d => base * n + d) 0

/-- The number that the run spells. -/
def value (base : Nat) (run : Run) : Int :=
  if run.negative then -(run.magnitude base) else run.magnitude base

end Run

/-- Whether a character may stand in a run. -/
def isRunChar (base : Nat) (c : Char) : Bool := c == '_' || (Hex.digitValue? base c).isSome

/-- Whether there are digits at both ends, and underscores only singly between them. -/
def isSpaced : List Char → Bool
  | [] | '_' :: _ => false
  | [_] => true
  | _ :: '_' :: rest => isSpaced rest
  | _ :: rest => isSpaced rest

/-- Whether a zero in front stands alone. -/
def hasNoLeadingZero : List Char → Bool
  | '0' :: _ :: _ => false
  | _ => true

/-- Reads a run off the front of a word: with a minus sign only if `signed`, with a zero in front
of other digits only if `zeros`. -/
def scanRun? (base : Nat) (signed zeros : Bool) (word : List Char) : Option (Run × List Char) :=
  let (negative, text) := match signed, word with
    | true, '-' :: text => (true, text)
    | _, text => (false, text)
  let run := text.takeWhile (isRunChar base)
  if isSpaced run && (zeros || hasNoLeadingZero run) then
    some (⟨negative, run.filterMap (Hex.digitValue? base)⟩, text.dropWhile (isRunChar base))
  else none

/-! ### Numbers -/

/-- The integer that a word spells, if it fits into 64 bits.  Only decimal integers have a sign, and
only they start with no zero. -/
def integer? (base : Nat) (word : List Char) : Option Scalar :=
  match scanRun? base (base == 10) (base != 10) word with
  | some (run, []) =>
      let value := run.value base
      if -0x8000000000000000 ≤ value ∧ value < 0x8000000000000000 then some (.integer value)
      else none
  | _ => none

/-- Reads the exponent of a floating-point number from what is left of a word.  A plus sign cuts the
word behind the letter. -/
def exponent? : List Char → List Token → Option (Run × List Token)
  | [], tokens => some ({}, tokens)
  | letter :: rest, tokens =>
      if letter = 'e' ∨ letter = 'E' then
        match rest, tokens with
        | [], .plus :: .word word :: tokens =>
            match scanRun? 10 false true word with
            | some (run, []) => some (run, tokens)
            | _ => none
        | rest, tokens =>
            match scanRun? 10 true true rest with
            | some (run, []) => some (run, tokens)
            | _ => none
      else none

/-- Reads a floating-point number: a word, perhaps another one behind a point, perhaps an exponent.
The number must be finite. -/
def float? (word : List Char) (fraction : Option (List Char)) (tokens : List Token) :
    Option (Scalar × List Token) := do
  let (whole, rest) ← scanRun? 10 true false word
  let (fraction, rest) ← match fraction, rest with
    | none, rest => some ({}, rest)
    | some word, [] => scanRun? 10 false true word
    | some _, _ => none
  let (exponent, tokens) ← exponent? rest tokens
  let digits : Run := ⟨false, whole.digits ++ fraction.digits⟩
  let magnitude ← Binary64.ofDecimal (digits.magnitude 10)
    (exponent.value 10 - fraction.digits.length)
  return (.float (.finite whole.negative magnitude), tokens)

/-- The floating-point numbers that have names. -/
def named? (word : List Char) : Option FloatValue :=
  if word = ['i', 'n', 'f'] then some (.infinite false)
  else if word = ['-', 'i', 'n', 'f'] then some (.infinite true)
  else if word = ['n', 'a', 'n'] ∨ word = ['-', 'n', 'a', 'n'] then some .notANumber
  else none

/-- Reads a number that starts with this word. -/
def number? (word : List Char) (tokens : List Token) : Option (Scalar × List Token) :=
  match word with
  | '0' :: 'x' :: digits => (integer? 16 digits).map (·, tokens)
  | '0' :: 'o' :: digits => (integer? 8 digits).map (·, tokens)
  | '0' :: 'b' :: digits => (integer? 2 digits).map (·, tokens)
  | word =>
      if word.contains 'e' || word.contains 'E' then float? word none tokens
      else
        match tokens with
        | .period :: .word fraction :: tokens => float? word (some fraction) tokens
        | .period :: _ => none
        | tokens =>
            match named? word with
            | some value => some (.float value, tokens)
            | none => (integer? 10 word).map (·, tokens)

/-! ### Dates -/

/-- Reads a number of two digits. -/
def twoDigits? : List Char → Option (Nat × List Char)
  | a :: b :: rest => do
      let x ← Hex.digitValue? 10 a
      let y ← Hex.digitValue? 10 b
      return (10 * x + y, rest)
  | _ => none

/-- Passes over one character. -/
def skip? (c : Char) : List Char → Option (List Char)
  | a :: rest => if a = c then some rest else none
  | [] => none

/-- Passes over year, month and day.  Months have up to thirty-one days. -/
def skipDay? (text : List Char) : Option (List Char) := do
  let (_, rest) ← twoDigits? text
  let (_, rest) ← twoDigits? rest
  let (month, rest) ← twoDigits? (← skip? '-' rest)
  let (day, rest) ← twoDigits? (← skip? '-' rest)
  if 1 ≤ month ∧ month ≤ 12 ∧ 1 ≤ day ∧ day ≤ 31 then some rest else none

/-- Passes over hour, minute and second, and the second's decimals if there are some. -/
def skipTime? (text : List Char) : Option (List Char) := do
  let (hour, rest) ← twoDigits? text
  let (minute, rest) ← twoDigits? (← skip? ':' rest)
  let (second, rest) ← twoDigits? (← skip? ':' rest)
  if 24 < hour ∨ 59 < minute ∨ 59 < second then none
  else
    match rest with
    | '.' :: rest =>
        if (rest.takeWhile isRunDigit).isEmpty then none else some (rest.dropWhile isRunDigit)
    | rest => some rest
where
  /-- Whether a character is a decimal digit. -/
  isRunDigit (c : Char) : Bool := (Hex.digitValue? 10 c).isSome

/-- Whether a text is a distance from universal time, or empty. -/
def isOffset : List Char → Bool
  | [] | ['Z'] | ['z'] => true
  | c :: rest =>
      (c == '+' || c == '-') &&
        (do let (_, rest) ← twoDigits? rest
            let (_, rest) ← twoDigits? (← skip? ':' rest)
            return rest.isEmpty : Option Bool).getD false

/-- Whether a text is a date, a time, or a date with a time and perhaps a distance from universal
time. -/
def isDate (text : List Char) : Bool :=
  if text[2]? = some ':' then skipTime? text == some []
  else
    match skipDay? text with
    | none => false
    | some [] => true
    | some (c :: rest) =>
        (c == 'T' || c == 't' || c == ' ') &&
          match skipTime? rest with
          | none => false
          | some rest => isOffset rest

/-- Reads a mark and the word behind it, if the mark is there. -/
def part? (mark : Token) (c : Char) : List Token → Option (List Char × List Token)
  | [] => some ([], [])
  | token :: tokens =>
      if token = mark then
        match tokens with
        | .word word :: tokens => some (c :: word, tokens)
        | _ => none
      else some ([], token :: tokens)

/-- Reads the rest of a time behind its first colon. -/
def clock? : List Token → Option (List Char × List Token)
  | .word minute :: .colon :: .word second :: tokens => do
      let (fraction, tokens) ← part? .period '.' tokens
      let (offset, tokens) ← part? .plus '+' tokens
      let (minutes, tokens) ← part? .colon ':' tokens
      return (':' :: minute ++ ':' :: second ++ fraction ++ offset ++ minutes, tokens)
  | _ => none

/-- Reads a date that starts with this word.  A single blank may stand in front of the time. -/
def date? (word : List Char) (tokens : List Token) : Option (Scalar × List Token) := do
  let (word, tokens) := match tokens with
    | .blank [' '] :: .word hour :: tokens => (word ++ ' ' :: hour, tokens)
    | tokens => (word, tokens)
  let (time, tokens) ← match tokens with
    | .colon :: tokens => clock? tokens
    | tokens => some ([], tokens)
  return (.date (word ++ time), tokens)

/-- Whether a word starts a date. -/
def startsDate (word : List Char) : Bool :=
  word.contains 'T' || word.contains 't' ||
    ((word.drop 1).contains '-' && !hasExponentSign word)
where
  /-- Whether a dash stands behind an exponent's letter. -/
  hasExponentSign : List Char → Bool
    | a :: b :: rest => ((a == 'e' || a == 'E') && b == '-') || hasExponentSign (b :: rest)
    | _ => false

/-- Reads a number or a date that starts with this word. -/
def numberOrDate? (word : List Char) (tokens : List Token) : Option (Scalar × List Token) :=
  if startsDate word then date? word tokens
  else
    match tokens with
    | .colon :: tokens => (clock? tokens).map fun (time, tokens) => (.date (word ++ time), tokens)
    | tokens => number? word tokens

end MergedMining.Toml
