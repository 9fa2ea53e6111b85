import MergedMining.Merkle.Branch
import MergedMining.Slot

/-!
# Sample values

Values made from a supply of bytes.  Bytes that are missing count as zero, so that every supply
gives a value.

## Main definitions

* `Fixture.Sample.hash`, `Fixture.Sample.word`, `Fixture.Sample.branch` — a value, and the bytes
  left over.
* `Fixture.cycled` — a stretch of a byte string repeated for ever.
-/

namespace MergedMining.Fixture

namespace Sample

/-- The first `count` bytes, zeros standing in for missing ones. -/
def padded (count : Nat) (supply : Bytes) : Bytes :=
  let taken := supply.take count
  taken ++ List.replicate (count - taken.length) 0

@[simp] theorem length_padded (count : Nat) (supply : Bytes) :
    (padded count supply).length = count := by
  simp only [padded, List.length_append, List.length_take, List.length_replicate]
  omega

/-- A hash: thirty-two bytes. -/
def hash (supply : Bytes) : Hash256 × Bytes :=
  (⟨padded 32 supply, length_padded ..⟩, supply.drop 32)

/-- A word: four bytes, least significant first. -/
def word (supply : Bytes) : UInt32 × Bytes :=
  (Bytes.toUInt32 (padded 4 supply), supply.drop 4)

/-- A list of hashes: before each of them a byte is taken, and an odd one says that another hash
follows. -/
def hashes (supply : Bytes) : List Hash256 × Bytes :=
  match supply with
  | [] => ([], [])
  | b :: rest =>
      if b % 2 = 1 then
        let (xs, left) := hashes (rest.drop 32)
        ((hash rest).1 :: xs, left)
      else ([], rest)
termination_by supply.length
decreasing_by simp only [List.length_drop, List.length_cons]; omega

/-- A branch: its hashes, then the position. -/
def branch (supply : Bytes) : Merkle.Branch × Bytes :=
  let (hashes, rest) := hashes supply
  let (index, rest) := word rest
  (⟨hashes, index⟩, rest)

end Sample

/-- The bytes from `start` on, `count` of them, of a byte string repeated for ever; zeros if it is
empty. -/
def cycled (stream : Array UInt8) (start count : Nat) : Bytes :=
  (List.range count).map fun i => stream.getD ((start + i) % stream.size) 0

end MergedMining.Fixture
