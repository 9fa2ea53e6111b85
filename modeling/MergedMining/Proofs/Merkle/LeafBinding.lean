import Mathlib.Data.Nat.ModEq
import MergedMining.Proofs.Merkle.Binding
import MergedMining.Proofs.Merkle.Levels

/-!
# A root binds its leaves

Who shows a branch chooses its siblings freely.  The height and the position are all that a verifier
knows; only as many bits of the position as there are levels are looked at, and above bit 31 the way
keeps to the left.  Still two branches of one height and one position that lead to one root lead
there from one leaf, or they hash two different messages to one hash on the same level.  For the
root of a tree this says that nothing but the leaf at the position can be shown to be there.

## Main definitions

* `Merkle.Branch.ClashAtLevel` — the ways of two leaves hash different messages to one hash.

## Main results

* `Merkle.Branch.binds` — two branches to one root bind the leaf and the siblings.
* `Merkle.leaves_bound` — both, with the root and the height that opening any leaf gives.
-/

namespace MergedMining.Merkle

open Hash256 (Clash)

namespace Branch

/-- At one level the ways of two leaves hash two different messages of 64 bytes to one hash. -/
def ClashAtLevel (b₁ : Branch) (leaf₁ : Hash256) (b₂ : Branch) (leaf₂ : Hash256) : Prop :=
  ∃ (level : Nat) (s t : Bytes), (messages b₁.index.toNat leaf₁ b₁.hashes)[level]? = some s ∧
    (messages b₂.index.toNat leaf₂ b₂.hashes)[level]? = some t ∧
    s.length = 64 ∧ t.length = 64 ∧ Clash s t

/-- **Two branches to one root bind the leaf and the siblings**, if their positions agree in as many
bits as they have levels. -/
theorem binds {b₁ b₂ : Branch} {leaf₁ leaf₂ : Hash256} (hheight : b₁.height = b₂.height)
    (hindex : b₁.index.toNat ≡ b₂.index.toNat [MOD 2 ^ b₁.height])
    (hroot : b₁.rootOf leaf₁ = b₂.rootOf leaf₂) :
    (leaf₁ = leaf₂ ∧ b₁.hashes = b₂.hashes) ∨ b₁.ClashAtLevel leaf₁ b₂ leaf₂ := by
  rcases climb_inj b₁.hashes b₂.hashes _ _ leaf₁ leaf₂ hheight hindex hroot with
    hsame | ⟨level, s, t, hs, ht, hclash⟩
  · exact Or.inl hsame
  · have hlen₁ := length_of_mem_messages (List.mem_of_getElem? hs)
    have hlen₂ := length_of_mem_messages (List.mem_of_getElem? ht)
    exact Or.inr ⟨level, s, t, hs, ht, hlen₁, hlen₂, hclash⟩

end Branch

/-- **A root binds its leaves.**  Let two branches have one height, and positions that agree modulo
the number of leaves there is room for.  If they lead two leaves to one root, the leaves and all
siblings are the same, or at some level the two ways hash different messages of 64 bytes to one
hash.

In particular, let the opening of any leaf of a tree give a branch and a root.  A branch of that
height, at the position of any leaf of the tree, that leads a leaf to that root leads the leaf which
stands there, past its siblings in the tree, or there is such a level on its way and on the way of
the leaf which stands there. -/
theorem leaves_bound :
    (∀ (b₁ b₂ : Branch) (leaf₁ leaf₂ : Hash256), b₁.height = b₂.height →
      b₁.index.toNat ≡ b₂.index.toNat [MOD 2 ^ b₁.height] →
      b₁.rootOf leaf₁ = b₂.rootOf leaf₂ →
      (leaf₁ = leaf₂ ∧ b₁.hashes = b₂.hashes) ∨ b₁.ClashAtLevel leaf₁ b₂ leaf₂) ∧
    (∀ (leaves : List Hash256) (opened : UInt32) (branch : Branch) (root : Hash256),
      open? leaves opened = some (branch, root) →
      ∀ (b : Branch) (leaf : Hash256) (hindex : b.index.toNat < leaves.length),
        b.height = branch.height → b.rootOf leaf = root →
        ∃ b', open? leaves b.index = some (b', root) ∧
          ((leaf = leaves[b.index.toNat] ∧ b.hashes = b'.hashes) ∨
            b.ClashAtLevel leaf b' leaves[b.index.toNat])) := by
  refine ⟨fun b₁ b₂ leaf₁ leaf₂ => Branch.binds, ?_⟩
  intro leaves opened branch root hopened b leaf hindex hheight hroot
  -- every leaf is opened to one root, with a branch of one height
  obtain ⟨-, rfl, rfl⟩ := open?_eq_some_iff.mp hopened
  have hsame : b.height = (branchOf leaves b.index).height := by
    rw [hheight, height_branchOf, height_branchOf]
  exact ⟨branchOf leaves b.index, open?_eq_some_iff.mpr ⟨hindex, rfl, rfl⟩,
    Branch.binds hsame rfl (hroot.trans (rootOf_branchOf hindex).symm)⟩

/-- The last leaf of a tree, shown by its own branch against the root that the first one gives. -/
theorem fiveLeaves_bound :
    open? fiveLeaves 0 = some (branchOf fiveLeaves 0, treeRoot fiveLeaves) ∧
      (branchOf fiveLeaves 4).height = (branchOf fiveLeaves 0).height ∧
      (branchOf fiveLeaves 4).rootOf (.ofNat 4) = treeRoot fiveLeaves ∧
      ∃ b', open? fiveLeaves 4 = some (b', treeRoot fiveLeaves) ∧
        ((Hash256.ofNat 4 = fiveLeaves[(4 : UInt32).toNat] ∧
            (branchOf fiveLeaves 4).hashes = b'.hashes) ∨
          (branchOf fiveLeaves 4).ClashAtLevel (.ofNat 4) b' fiveLeaves[(4 : UInt32).toNat]) := by
  have hfirst : (0 : UInt32).toNat < fiveLeaves.length := by decide
  have hlast : (4 : UInt32).toNat < fiveLeaves.length := by decide
  have hopen := open?_eq_some_iff.mpr ⟨hfirst, rfl, rfl⟩
  have hheight : (branchOf fiveLeaves 4).height = (branchOf fiveLeaves 0).height := by
    rw [height_branchOf, height_branchOf]
  have hroot : (branchOf fiveLeaves 4).rootOf (.ofNat 4) = treeRoot fiveLeaves :=
    rootOf_branchOf hlast
  have hbound := leaves_bound.2 fiveLeaves 0 _ _ hopen (branchOf fiveLeaves 4) (.ofNat 4) hlast
    hheight hroot
  exact ⟨hopen, hheight, hroot, hbound⟩

end MergedMining.Merkle
