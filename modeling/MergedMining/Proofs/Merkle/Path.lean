import MergedMining.Merkle.Branch

/-!
# The path a branch describes

A branch is climbed by halving the position level by level.  Said for the whole path at once, the
node at level `l` stands on the right exactly if bit `l` of the position is set, and the path of
position 0 keeps to the left.

## Main definitions

* `Merkle.Branch.rootByBits` — the root reached when every level looks at its own bit.

## Main results

* `Merkle.Branch.rootOf_eq_rootByBits` — climbing a branch follows the bits of its position.
* `Merkle.climb_zero` — at position 0 every sibling stands on the right.
-/

namespace MergedMining.Merkle

/-- Joins a node with its sibling, the node on the right or on the left. -/
def joinAt (right : Bool) (node sibling : Hash256) : Hash256 :=
  if right then Hash256.join sibling node else Hash256.join node sibling

/-- The root to which a branch leads `leaf`: at each level the node stands on the right exactly if
that bit of the position is set. -/
def Branch.rootByBits (b : Branch) (leaf : Hash256) : Hash256 :=
  b.hashes.zipIdx.foldl
    (fun node s => joinAt (b.index.toNat.testBit s.2) node s.1) leaf

theorem step_div_two_pow (index level : Nat) (node sibling : Hash256) :
    step (index / 2 ^ level) node sibling = joinAt (index.testBit level) node sibling := by
  rw [step, joinAt, Nat.testBit_eq_decide_div_mod_eq]
  simp only [decide_eq_true_eq]

/-- Climbing on from any level, the levels counted from there. -/
theorem climb_div_two_pow (index : Nat) (hashes : List Hash256) :
    ∀ (level : Nat) (node : Hash256), climb (index / 2 ^ level) node hashes =
      (hashes.zipIdx level).foldl (fun node s => joinAt (index.testBit s.2) node s.1) node := by
  induction hashes with
  | nil => intro level node; rfl
  | cons sibling rest ih =>
    intro level node
    have hhalf : index / 2 ^ level / 2 = index / 2 ^ (level + 1) := by
      rw [Nat.div_div_eq_div_mul, Nat.pow_succ]
    rw [climb_cons, hhalf, step_div_two_pow, ih, List.zipIdx_cons, List.foldl_cons]

/-- **Climbing a branch follows the bits of its position.** -/
theorem Branch.rootOf_eq_rootByBits (b : Branch) (leaf : Hash256) :
    b.rootOf leaf = b.rootByBits leaf := by
  have h := climb_div_two_pow b.index.toNat b.hashes 0 leaf
  rwa [Nat.pow_zero, Nat.div_one] at h

/-- **The path of position 0 keeps to the left.** -/
theorem climb_zero (hashes : List Hash256) :
    ∀ node : Hash256, climb 0 node hashes = hashes.foldl Hash256.join node := by
  induction hashes with
  | nil => intro node; rfl
  | cons sibling rest ih =>
    intro node
    rw [climb_cons, List.foldl_cons, ← ih]
    rfl

end MergedMining.Merkle
