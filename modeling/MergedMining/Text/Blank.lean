/-!
# Blank characters

The white space of Unicode, and texts without it at their ends.

## Main definitions

* `Text.isBlank` — whether a character is white space.
* `Text.trim` — a text without white space around it.
-/

namespace MergedMining.Text

/-- Whether a character is white space. -/
def isBlank (c : Char) : Bool :=
  let n := c.toNat
  (0x9 ≤ n && n ≤ 0xd) || n == 0x20 || n == 0x85 || n == 0xa0 || n == 0x1680 ||
    (0x2000 ≤ n && n ≤ 0x200a) || n == 0x2028 || n == 0x2029 || n == 0x202f || n == 0x205f ||
    n == 0x3000

/-- What is left of some characters without white space at the front. -/
def trimFront (text : List Char) : List Char := text.dropWhile isBlank

/-- What is left of some characters without white space at either end. -/
def trimBoth (text : List Char) : List Char := (trimFront (trimFront text).reverse).reverse

/-- A text without white space around it. -/
def trim (text : String) : String := String.ofList (trimBoth text.toList)

end MergedMining.Text
