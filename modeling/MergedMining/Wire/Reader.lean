import MergedMining.Hash256

/-!
# Reading the wire format

The wire format is the one peers exchange blocks in: fixed-width little-endian fields, counts and
lengths of variable width in front of lists and byte strings.  A reader takes a value off the front
of the input and hands on the rest.

## Main definitions

* `Wire.Error` — why an input cannot be read.
* `Wire.Reader` — takes a value off the front of the input.
* `Wire.take`, `Wire.uint32`, `Wire.hash`, … — fields of fixed width.
* `Wire.many` — a value several times over.
-/

namespace MergedMining.Wire

/-- The largest number of elements, and of bytes, one witness may take. -/
def witnessLimit : Nat := 4000000

/-- Why an input cannot be read. -/
inductive Error where
  /-- The input ended inside a field. -/
  | endOfInput
  /-- A count or length is spelled longer than it has to be. -/
  | nonMinimal
  /-- Bytes are left after the value. -/
  | trailingBytes
  /-- A transaction announces witnesses but none of its inputs has any. -/
  | noWitnesses
  /-- The byte after the witness marker is unknown. -/
  | unknownFlag (flag : UInt8)
  /-- A witness is too large. -/
  | oversized (requested : Nat)
  deriving DecidableEq, Repr

/-- The wording of an error. -/
def Error.message : Error → String
  | .endOfInput => "IO error"
  | .nonMinimal => "non-minimal varint"
  | .trailingBytes => "parse failed: data not consumed entirely when explicitly deserializing"
  | .noWitnesses => "parse failed: witness flag set but no witnesses present"
  | .unknownFlag flag => "unsupported segwit version: " ++ toString flag.toNat
  | .oversized requested =>
      "allocation of oversized vector: requested " ++ toString requested ++ ", maximum " ++
        toString witnessLimit

/-- Takes a value off the front of the input. -/
abbrev Reader (α : Type) := Bytes → Except Error (α × Bytes)

/-- The next `count` bytes. -/
def take (count : Nat) : Reader Bytes := fun data =>
  let taken := data.take count
  if taken.length = count then .ok (taken, data.drop count) else .error .endOfInput

/-- The next byte. -/
def byte : Reader UInt8
  | b :: rest => .ok (b, rest)
  | [] => .error .endOfInput

/-- A 32-bit word. -/
def uint32 : Reader UInt32 := fun data => do
  let (bytes, rest) ← take 4 data
  return (Bytes.toUInt32 bytes, rest)

/-- A 64-bit word. -/
def uint64 : Reader UInt64 := fun data => do
  let (bytes, rest) ← take 8 data
  return (Bytes.toUInt64 bytes, rest)

/-- A hash. -/
def hash : Reader Hash256 := fun data =>
  if h : (data.take 32).length = 32 then .ok (⟨data.take 32, h⟩, data.drop 32)
  else .error .endOfInput

/-- A value `count` times.  The count may be any number: reading stops as soon as the input does
not hold another value. -/
def many {α : Type} (item : Reader α) : (count : Nat) → Reader (List α)
  | 0, data => .ok ([], data)
  | count + 1, data => do
      let (x, rest) ← item data
      let (xs, rest) ← many item count rest
      return (x :: xs, rest)

/-- A value that has to take the whole input. -/
def entire {α : Type} (reader : Reader α) (data : Bytes) : Except Error α := do
  let (x, rest) ← reader data
  if rest.isEmpty then return x else throw .trailingBytes

end MergedMining.Wire
