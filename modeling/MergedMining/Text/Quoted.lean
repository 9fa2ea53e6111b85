import MergedMining.Text.Plain

/-!
# Quoted text

Texts between grave accents as they are, and texts between quotes in the two styles of this
library's output: for messages, where every character without a shape of its own is written as its
code point, and for JSON, where only quotes, backslashes and control characters are escaped.

## Main definitions

* `Text.ticked` — between grave accents.
* `Text.quoted`, `Text.quotedChar` — for messages.
* `Text.jsonQuoted` — for JSON.
-/

namespace MergedMining.Text

/-- A text between grave accents. -/
def ticked (text : String) : String := "`" ++ text ++ "`"

/-- A character in a message, between quotes of this kind. -/
def escaped (quote c : Char) : List Char :=
  match c with
  | '\\' => ['\\', '\\']
  | '\n' => ['\\', 'n']
  | '\r' => ['\\', 'r']
  | '\t' => ['\\', 't']
  | '\x00' => ['\\', '0']
  | c =>
      if c = quote then ['\\', c]
      else if isPlain c then [c]
      else ['\\', 'u', '\x7b'] ++ Nat.toDigits 16 c.toNat ++ ['\x7d']

/-- A text between double quotes, as messages show it. -/
def quoted (text : String) : String :=
  String.ofList ('"' :: (text.toList.flatMap (escaped '"') ++ ['"']))

/-- A character between single quotes, as messages show it. -/
def quotedChar (c : Char) : String := String.ofList ('\'' :: (escaped '\'' c ++ ['\'']))

/-- A hexadecimal digit in small letters. -/
def lowerDigit (n : Nat) : Char := (Nat.toDigits 16 (n % 16)).headD '0'

/-- A character in a JSON text. -/
def jsonEscaped (c : Char) : List Char :=
  match c with
  | '"' => ['\\', '"']
  | '\\' => ['\\', '\\']
  | '\n' => ['\\', 'n']
  | '\r' => ['\\', 'r']
  | '\t' => ['\\', 't']
  | '\x08' => ['\\', 'b']
  | '\x0c' => ['\\', 'f']
  | c =>
      if c.toNat < 0x20 then
        ['\\', 'u', '0', '0', lowerDigit (c.toNat / 16), lowerDigit c.toNat]
      else [c]

/-- A text between quotes, as JSON spells it. -/
def jsonQuoted (text : String) : String :=
  String.ofList ('"' :: (text.toList.flatMap jsonEscaped ++ ['"']))

end MergedMining.Text
