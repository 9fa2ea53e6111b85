import MergedMining.Merkle.Branch
import MergedMining.Wire.VarInt

/-!
# Merkle branches on the wire

The hashes behind their count, then the position.
-/

namespace MergedMining.Merkle.Branch

/-- The wire format of a branch. -/
def write (b : Branch) : Bytes :=
  Wire.writeList Hash256.bytes b.hashes ++ Bytes.ofUInt32 b.index

/-- Reads a branch.  Hashes are taken one by one, so that a count the input cannot hold ends in
the input's end. -/
def read : Wire.Reader Branch := fun data => do
  let (hashes, rest) ← Wire.readList Wire.hash data
  let (index, rest) ← Wire.uint32 rest
  return (⟨hashes, index⟩, rest)

end MergedMining.Merkle.Branch
