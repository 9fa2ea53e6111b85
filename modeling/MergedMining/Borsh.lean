import MergedMining.Merkle.Branch
import MergedMining.Params.Basic

/-!
# Borsh

A binary format in which every value has one encoding: numbers in a fixed width, least significant
byte first, lists behind a 32-bit count, alternatives behind a one-byte tag, fields one after the
other.

## Main definitions

* `Borsh.Error` — why bytes are no encoding.
* `Borsh.Reader` — takes a value off the front of the input, `Borsh.entire` a value that takes all
  of it.
* `Merkle.Branch.toBorsh`, `Params.toBorsh`, … — encodings; `Borsh.branch`, `Borsh.params`, … —
  their readers.
-/

namespace MergedMining

namespace Borsh

/-- Why bytes are no encoding. -/
inductive Error where
  /-- The input ended inside a number or tag. -/
  | endOfInput
  /-- The input ended inside a hash. -/
  | endOfHash
  /-- Bytes are left after the value. -/
  | trailingBytes
  /-- A truth value is neither 0 nor 1. -/
  | badBoolean (byte : UInt8)
  /-- No alternative has this tag. -/
  | unknownTag (tag : UInt8)
  /-- The positions of a version layout are refused. -/
  | layout (error : VersionError)
  deriving DecidableEq, Repr

/-- The wording of an error. -/
def Error.message : Error → String
  | .endOfInput => "Unexpected length of input"
  | .endOfHash => "failed to fill whole buffer"
  | .trailingBytes => "Not all bytes read"
  | .badBoolean byte => "Invalid bool representation: " ++ toString byte.toNat
  | .unknownTag tag => "Unexpected variant tag: " ++ toString tag.toNat
  | .layout error => error.message

/-- Takes a value off the front of the input. -/
abbrev Reader (α : Type) := Bytes → Except Error (α × Bytes)

/-! ### Readers -/

/-- A byte. -/
def byte : Reader UInt8
  | b :: rest => .ok (b, rest)
  | [] => .error .endOfInput

/-- A 32-bit word. -/
def word : Reader UInt32
  | b₀ :: b₁ :: b₂ :: b₃ :: rest => .ok (Bytes.toUInt32 [b₀, b₁, b₂, b₃], rest)
  | _ => .error .endOfInput

/-- A truth value. -/
def boolean : Reader Bool := fun data => do
  let (b, rest) ← byte data
  if b = 0 then return (false, rest)
  else if b = 1 then return (true, rest)
  else throw (.badBoolean b)

/-- A hash. -/
def hash : Reader Hash256 := fun data =>
  if h : (data.take 32).length = 32 then .ok (⟨data.take 32, h⟩, data.drop 32)
  else .error .endOfHash

/-- A hash `count` times. -/
def hashes : (count : Nat) → Reader (List Hash256)
  | 0, data => .ok ([], data)
  | count + 1, data => do
      let (x, rest) ← hash data
      let (xs, rest) ← hashes count rest
      return (x :: xs, rest)

/-- A branch. -/
def branch : Reader Merkle.Branch := fun data => do
  let (count, rest) ← word data
  let (hashes, rest) ← hashes count.toNat rest
  let (index, rest) ← word rest
  return (⟨hashes, index⟩, rest)

/-- A work hash. -/
def workHash : Reader WorkHash := fun data => do
  let (tag, rest) ← byte data
  if tag = 0 then return (.sha256d, rest) else throw (.unknownTag tag)

/-- A layout; positions that are refused are an error. -/
def layout : Reader Version.Layout := fun data => do
  let (flagBit, rest) ← byte data
  let (shift, rest) ← byte rest
  match Version.Layout.ofPositions flagBit shift with
  | .ok layout => return (layout, rest)
  | .error error => throw (.layout error)

/-- Parameters, which are not judged. -/
def params : Reader Params := fun data => do
  let (chainId, rest) ← word data
  let (strictChainId, rest) ← boolean rest
  let (maxTreeHeight, rest) ← word rest
  let (workHash, rest) ← workHash rest
  let (powLimit, rest) ← word rest
  let (layout, rest) ← layout rest
  return (⟨chainId, strictChainId, maxTreeHeight, workHash, powLimit, layout⟩, rest)

/-- A value that has to take the whole input. -/
def entire {α : Type} (reader : Reader α) (data : Bytes) : Except Error α := do
  let (x, rest) ← reader data
  if rest.isEmpty then return x else throw .trailingBytes

end Borsh

/-! ### Encodings -/

/-- A branch. -/
def Merkle.Branch.toBorsh (b : Merkle.Branch) : Bytes :=
  Bytes.ofNatLE 4 b.hashes.length ++ b.hashes.flatMap Hash256.bytes ++ Bytes.ofUInt32 b.index

/-- A work hash. -/
def WorkHash.toBorsh : WorkHash → Bytes
  | .sha256d => [0]

/-- A layout. -/
def Version.Layout.toBorsh (layout : Version.Layout) : Bytes :=
  [UInt8.ofNat layout.flagBit, UInt8.ofNat layout.shift]

/-- Parameters. -/
def Params.toBorsh (params : Params) : Bytes :=
  Bytes.ofUInt32 params.chainId ++ [if params.strictChainId then 1 else 0] ++
    Bytes.ofUInt32 params.maxTreeHeight ++ params.workHash.toBorsh ++
    Bytes.ofUInt32 params.powLimit ++ params.layout.toBorsh

end MergedMining
