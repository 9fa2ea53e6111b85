import MergedMining.Json.Reader
import MergedMining.Merkle.Branch

/-!
# Hashes and Merkle branches in JSON

A hash is a string of hexadecimal digits; a branch is a record of its hashes and its index.
-/

namespace MergedMining

/-- A hash in JSON. -/
def Hash256.toJson (x : Hash256) : String := "\"" ++ x.hex ++ "\""

namespace Merkle.Branch

/-- A branch in JSON. -/
def toJson (b : Branch) : String :=
  "\x7b\"hashes\":[" ++ ",".intercalate (b.hashes.map Hash256.toJson) ++ "],\"index\":" ++
    toString b.index.toNat ++ "\x7d"

/-- What has been read of a branch. -/
structure Draft where
  /-- The hashes. -/
  hashes : Option (List Hash256) := none
  /-- The index. -/
  index : Option UInt32 := none

/-- How a branch is read. -/
def record : Json.Record Draft Branch where
  name := "MerkleBranch"
  empty := {}
  fields :=
    [⟨"hashes", (·.hashes.isSome), fun node => do
        let hashes ← Json.sequence Json.hash node
        return fun draft => { draft with hashes := some hashes }⟩,
     ⟨"index", (·.index.isSome), fun node => do
        let index ← Json.word node
        return fun draft => { draft with index := some index }⟩]
  complete
    | ⟨some hashes, some index⟩ => .ok ⟨hashes, index⟩
    | ⟨none, _⟩ => .error "hashes"
    | ⟨_, none⟩ => .error "index"

/-- Reads a branch from a JSON text. -/
def ofJson (text : String) : Except Json.Error Branch := Json.decode record.read text

end Merkle.Branch

end MergedMining
