import MergedMining.Target
import MergedMining.Version
import MergedMining.Wire.Reader

/-!
# Block headers

The eighty bytes a block is known by, and the work they carry.

## Main definitions

* `BlockHeader` — the six fields, `BlockHeader.write` and `BlockHeader.read` their wire format.
* `BlockHeader.hash` — the block hash.
* `WorkHash` — which hash of a header its work is measured by.
-/

namespace MergedMining

/-- A block header. -/
structure BlockHeader where
  /-- The version, with all its fields. -/
  version : Version
  /-- The hash of the block before. -/
  prev : Hash256
  /-- The root of the tree of transaction ids. -/
  merkleRoot : Hash256
  /-- The time stamp. -/
  time : UInt32
  /-- The compact target. -/
  bits : UInt32
  /-- The number that is varied in mining. -/
  nonce : UInt32
  deriving DecidableEq

namespace BlockHeader

/-- The eighty bytes of a header. -/
def write (header : BlockHeader) : Bytes :=
  Bytes.ofUInt32 header.version ++ header.prev.bytes ++ header.merkleRoot.bytes ++
    Bytes.ofUInt32 header.time ++ Bytes.ofUInt32 header.bits ++ Bytes.ofUInt32 header.nonce

/-- Reads a header. -/
def read : Wire.Reader BlockHeader := fun data => do
  let (version, rest) ← Wire.uint32 data
  let (prev, rest) ← Wire.hash rest
  let (merkleRoot, rest) ← Wire.hash rest
  let (time, rest) ← Wire.uint32 rest
  let (bits, rest) ← Wire.uint32 rest
  let (nonce, rest) ← Wire.uint32 rest
  return (⟨version, prev, merkleRoot, time, bits, nonce⟩, rest)

/-- The block hash: double SHA-256 of the eighty bytes. -/
def hash (header : BlockHeader) : Hash256 := .ofMessage header.write

@[simp] theorem length_write (header : BlockHeader) : header.write.length = 80 := by
  simp [write, header.prev.length_bytes, header.merkleRoot.length_bytes]

-- the first block of all, with the number that its hash is known by
example :
    (hash ⟨1, .zero,
      .ofNat 0x4a5e1e4baab89f3a32518a88c31bc87f618f76673e2cc77ab2127b7afdeda33b,
      1231006505, 0x1d00ffff, 2083236893⟩).toNat =
    0x000000000019d6689c085ae165831e934ff763ae46a2a6c172b3f1b60a8ce26f := by decide +kernel

end BlockHeader

/-- The hash of a header that its work is measured by. -/
inductive WorkHash where
  /-- Double SHA-256, which is also the block hash. -/
  | sha256d
  deriving DecidableEq, Repr, Inhabited

/-- The hash compared with the target. -/
def WorkHash.apply : WorkHash → BlockHeader → Hash256
  | .sha256d, header => header.hash

end MergedMining
