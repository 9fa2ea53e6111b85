import MergedMining.Merkle.Branch

/-!
# Building Merkle trees

A tree is built level by level.  Neighbours are joined in pairs, and a level with an odd number of
nodes joins its last node with itself, as in the transaction tree of a block.

## Main definitions

* `Merkle.levelAbove` — one level made from the one below.
* `Merkle.open?` — the branch of a leaf, and the root of the tree.
-/

namespace MergedMining.Merkle

/-- The level above: neighbours joined in pairs, a last odd node joined with itself. -/
def levelAbove : List Hash256 → List Hash256
  | left :: right :: rest => Hash256.join left right :: levelAbove rest
  | [last] => [Hash256.join last last]
  | [] => []

/-- How many levels lie between `leaves` leaves and the root: the least height at which there is
room for all of them. -/
def treeHeight (leaves : Nat) : Nat := if leaves ≤ 1 then 0 else Nat.log2 (leaves - 1) + 1

/-- The sibling of the node at a position: its neighbour, or the node itself at an odd end. -/
def siblingAt (level : List Hash256) (index : Nat) : Hash256 :=
  level.getD (index ^^^ 1) (level.getD index .zero)

/-- The siblings from a position upwards through `height` levels, and the node they end at. -/
def openFrom : (height : Nat) → (level : List Hash256) → (index : Nat) → List Hash256 × Hash256
  | 0, level, _ => ([], level.headD .zero)
  | height + 1, level, index =>
      let (siblings, root) := openFrom height (levelAbove level) (index / 2)
      (siblingAt level index :: siblings, root)

/-- The branch that proves the leaf at `index`, and the root of the tree over `leaves`; nothing if
no leaf stands there. -/
def open? (leaves : List Hash256) (index : UInt32) : Option (Branch × Hash256) :=
  if index.toNat < leaves.length then
    let (siblings, root) := openFrom (treeHeight leaves.length) leaves index.toNat
    some (⟨siblings, index⟩, root)
  else none

theorem length_levelAbove (level : List Hash256) :
    (levelAbove level).length = (level.length + 1) / 2 := by
  fun_induction levelAbove level with
  | case1 left right rest ih => simp only [List.length_cons, ih]; omega
  | case2 last => simp
  | case3 => rfl

@[simp] theorem length_openFrom (height : Nat) (level : List Hash256) (index : Nat) :
    (openFrom height level index).1.length = height := by
  induction height generalizing level index with
  | zero => rfl
  | succ height ih => simp [openFrom, ih]

end MergedMining.Merkle
