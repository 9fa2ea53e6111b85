import MergedMining.Wire.Reader

/-!
# Counts and lengths

A number below 253 is one byte; larger ones are a tag and two, four or eight bytes.  Only the
shortest spelling is accepted.

## Main definitions

* `Wire.VarInt.write`, `Wire.VarInt.read` — numbers below `2 ^ 64`.
* `Wire.writeList`, `Wire.readList` — lists behind their count.
* `Wire.writeBytes`, `Wire.readBytes` — byte strings behind their length.
-/

namespace MergedMining.Wire

namespace VarInt

/-- How many bytes the spelling of a number takes. -/
def size (n : Nat) : Nat :=
  if n < 0xfd then 1 else if n < 0x10000 then 3 else if n < 0x100000000 then 5 else 9

/-- The spelling of a number below `2 ^ 64`. -/
def write (n : Nat) : Bytes :=
  if n < 0xfd then [UInt8.ofNat n]
  else if n < 0x10000 then 0xfd :: Bytes.ofNatLE 2 n
  else if n < 0x100000000 then 0xfe :: Bytes.ofNatLE 4 n
  else 0xff :: Bytes.ofNatLE 8 n

/-- A number of `width` bytes that has no shorter spelling, which is to be at least `least`. -/
def readLong (width least : Nat) : Reader Nat := fun data => do
  let (bytes, rest) ← take width data
  let n := Bytes.toNatLE bytes
  if n < least then throw .nonMinimal else return (n, rest)

/-- A number in its shortest spelling. -/
def read : Reader Nat := fun data => do
  let (tag, rest) ← byte data
  if tag = 0xfd then readLong 2 0xfd rest
  else if tag = 0xfe then readLong 4 0x10000 rest
  else if tag = 0xff then readLong 8 0x100000000 rest
  else return (tag.toNat, rest)

end VarInt

/-- A list behind its count. -/
def writeList {α : Type} (item : α → Bytes) (xs : List α) : Bytes :=
  VarInt.write xs.length ++ xs.flatMap item

/-- Reads a list behind its count. -/
def readList {α : Type} (item : Reader α) : Reader (List α) := fun data => do
  let (count, rest) ← VarInt.read data
  many item count rest

/-- A byte string behind its length. -/
def writeBytes (bs : Bytes) : Bytes := VarInt.write bs.length ++ bs

/-- Reads a byte string behind its length. -/
def readBytes : Reader Bytes := fun data => do
  let (length, rest) ← VarInt.read data
  take length rest

end MergedMining.Wire
