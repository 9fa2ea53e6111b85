import Mathlib.Data.Nat.Bitwise
import MergedMining.Merkle.Tree

/-!
# Opened trees lead back to their root

A tree is built level by level, and a branch of it collects the neighbour of one node on every level.
Climbing that branch from its leaf joins the same pairs again, so that it ends in the root of the
tree, for any number of leaves: a node at an odd end is its own neighbour on both ways.

## Main results

* `Merkle.getElem?_levelAbove` — a node and its sibling are joined in the level above.
* `Merkle.climb_openFrom` — climbing the siblings of a node ends in the root.
* `Merkle.exists_open?` — a leaf that is there has a branch, which leads it to the root.
-/

namespace MergedMining.Merkle

theorem xor_one_add_two (i : Nat) : (i + 2) ^^^ 1 = (i ^^^ 1) + 2 := by
  have hlow := Nat.xor_mod_two_eq (m := i) (n := 1)
  have hlow' := Nat.xor_mod_two_eq (m := i + 2) (n := 1)
  have hhigh := Nat.xor_div_two (a := i) (b := 1)
  have hhigh' := Nat.xor_div_two (a := i + 2) (b := 1)
  rw [Nat.div_eq_of_lt (by decide : 1 < 2), Nat.xor_zero] at hhigh hhigh'
  omega

/-- Behind the first pair siblings are found as in the rest of the level. -/
theorem siblingAt_cons_cons (left right : Hash256) (rest : List Hash256) (i : Nat) :
    siblingAt (left :: right :: rest) (i + 2) = siblingAt rest i := by
  unfold siblingAt
  rw [xor_one_add_two]
  rfl

theorem step_add_two (i : Nat) (node sibling : Hash256) :
    step (i + 2) node sibling = step i node sibling := by
  unfold step
  rw [Nat.add_mod_right]

/-- **A node is joined with its sibling in the level above**, in the order of their positions. -/
theorem getElem?_levelAbove (level : List Hash256) :
    ∀ {i : Nat} {node : Hash256}, level[i]? = some node →
      (levelAbove level)[i / 2]? = some (step i node (siblingAt level i)) := by
  fun_induction levelAbove level with
  | case1 left right rest ih =>
    intro i node hnode
    -- the pair in front, and what comes behind it
    rcases i with _ | _ | i
    · cases hnode
      rfl
    · cases hnode
      rfl
    · have hrest : rest[i]? = some node := hnode
      rw [Nat.add_assoc, Nat.add_div_right i (by decide), List.getElem?_cons_succ, ih hrest,
        siblingAt_cons_cons, step_add_two]
  | case2 last =>
    intro i node hnode
    cases i with
    | zero =>
      cases hnode
      rfl
    | succ i => cases hnode
  | case3 =>
    intro i node hnode
    cases hnode

theorem le_two_pow_treeHeight (leaves : Nat) : leaves ≤ 2 ^ treeHeight leaves := by
  unfold treeHeight
  by_cases h : leaves ≤ 1
  · rw [if_pos h]
    exact h
  · rw [if_neg h]
    have hlog := Nat.lt_log2_self (n := leaves - 1)
    omega

/-- **Climbing the siblings of a node ends in the root**, by induction on the levels above it. -/
theorem climb_openFrom : ∀ (height : Nat) {level : List Hash256} {i : Nat} {node : Hash256},
    level[i]? = some node → level.length ≤ 2 ^ height →
    climb i node (openFrom height level i).1 = (openFrom height level i).2 := by
  intro height
  induction height with
  | zero =>
    intro level i node hnode hroom
    -- there is room for the root only
    match level, i with
    | [root], 0 =>
      cases hnode
      rfl
    | _ :: _ :: _, _ => simp at hroom
  | succ height ih =>
    intro level i node hnode hroom
    have hroom' : (levelAbove level).length ≤ 2 ^ height := by
      rw [length_levelAbove]
      omega
    have habove := ih (getElem?_levelAbove level hnode) hroom'
    exact habove

/-- **A leaf that is there has a branch**, which stands at its position and leads it to the root. -/
theorem exists_open? {leaves : List Hash256} {index : UInt32} {leaf : Hash256}
    (hleaf : leaves[index.toNat]? = some leaf) :
    ∃ b root, open? leaves index = some (b, root) ∧ b.index = index ∧ b.rootOf leaf = root := by
  obtain ⟨hindex, -⟩ := List.getElem?_eq_some_iff.mp hleaf
  unfold open?
  rw [if_pos hindex]
  exact ⟨_, _, rfl, rfl, climb_openFrom _ hleaf (le_two_pow_treeHeight leaves.length)⟩

end MergedMining.Merkle
