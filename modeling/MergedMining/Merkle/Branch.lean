import MergedMining.Hash256

/-!
# Merkle branches

A branch leads from a leaf of a hash tree to its root: it holds the sibling of every node on the
way, leaf level first, and the position of the leaf.

## Main definitions

* `Merkle.Branch` — the siblings and the position.
* `Merkle.Branch.rootOf` — the root a branch leads a leaf to.
-/

namespace MergedMining.Merkle

/-- The siblings on the way from a leaf up to the root, and the leaf's position. -/
structure Branch where
  /-- The siblings, leaf level first. -/
  hashes : List Hash256 := []
  /-- The leaf's position.  Its bit `i` is set when the node at level `i` stands on the right. -/
  index : UInt32 := 0
  deriving DecidableEq

/-- Joins a node at an even or odd position with its sibling. -/
def step (index : Nat) (node sibling : Hash256) : Hash256 :=
  if index % 2 = 1 then Hash256.join sibling node else Hash256.join node sibling

/-- Climbs from a node at position `index`, joining one sibling per level. -/
def climb (index : Nat) (node : Hash256) : List Hash256 → Hash256
  | [] => node
  | sibling :: rest => climb (index / 2) (step index node sibling) rest

namespace Branch

/-- How many levels the branch climbs. -/
def height (b : Branch) : Nat := b.hashes.length

/-- The root to which the branch leads `leaf`.  Every position is allowed: bits above the height
play no part. -/
def rootOf (b : Branch) (leaf : Hash256) : Hash256 := climb b.index.toNat leaf b.hashes

end Branch

@[simp] theorem climb_nil (index : Nat) (node : Hash256) : climb index node [] = node := rfl

@[simp] theorem climb_cons (index : Nat) (node sibling : Hash256) (rest : List Hash256) :
    climb index node (sibling :: rest) = climb (index / 2) (step index node sibling) rest := rfl

end MergedMining.Merkle
