import Mathlib.Data.List.Basic
import MergedMining.Proofs.AuxProof.Sharing

/-!
# The positions of an accepted proof

Climbing a branch looks at as many bits of the position as the branch has levels, and a position has
thirty-two bits.  The bits in between could be anything if only the root counted, and one proof
could be passed on in many spellings.  They are pinned elsewhere: the coinbase has to stand
leftmost, and the block hash in the slot of its chain, which is a leaf of a tree whose size is
committed to in a word.  This holds under all parameters, since it is the word, and not the
parameters, that keeps the tree below thirty-two levels.

## Main definitions

* `Merkle.AgreeBelow`, `Merkle.DifferFrom` — positions compared below a level, and from it on.
* `AuxProof.moveChain`, `AuxProof.moveCoinbase` — a proof with another position in a branch.

## Main results

* `Merkle.Branch.rootOf_of_agreeBelow` — a climb does not look beyond the levels of its branch.
* `AuxProof.positions_of_check` — the positions that the rules leave.
* `AuxProof.positions_spelled_once` — an accepted proof is rejected with a bit changed beyond the
  levels of a branch.
-/

namespace MergedMining

/-! ### Positions level by level -/

namespace Merkle

/-- Two positions are the same on the levels below `height`. -/
def AgreeBelow (height : Nat) (i j : UInt32) : Prop :=
  ∀ level < height, i.toNat.testBit level = j.toNat.testBit level

/-- Two positions differ on some level from `height` on. -/
def DifferFrom (height : Nat) (i j : UInt32) : Prop :=
  ∃ level, height ≤ level ∧ i.toNat.testBit level ≠ j.toNat.testBit level

/-- **A climb does not look beyond the levels of its branch.** -/
theorem Branch.rootOf_of_agreeBelow {b : Branch} {index : UInt32}
    (hagree : AgreeBelow b.height index b.index) (leaf : Hash256) :
    { b with index }.rootOf leaf = b.rootOf leaf := by
  rw [rootOf_eq_rootByBits, rootOf_eq_rootByBits]
  refine List.foldl_ext _ _ _ fun node s hs => ?_
  have hlevel : s.2 < b.height := List.snd_lt_of_mem_zipIdx hs
  rw [hagree s.2 hlevel]

theorem DifferFrom.ne {height : Nat} {i j : UInt32} (h : DifferFrom height i j) : i ≠ j := by
  obtain ⟨level, -, hne⟩ := h
  rintro rfl
  exact hne rfl

/-- Of two positions that differ from a level on, only one can be a leaf of a tree of that
height. -/
theorem DifferFrom.le {height : Nat} {i j : UInt32} (h : DifferFrom height i j)
    (hj : j.toNat < 2 ^ height) : 2 ^ height ≤ i.toNat := by
  obtain ⟨level, hlevel, hne⟩ := h
  have hpow : 2 ^ height ≤ 2 ^ level := Nat.pow_le_pow_right (by decide) hlevel
  refine Nat.le_of_not_lt fun hi => hne ?_
  rw [Nat.testBit_lt_two_pow (Nat.lt_of_lt_of_le hi hpow),
    Nat.testBit_lt_two_pow (Nat.lt_of_lt_of_le hj hpow)]

end Merkle

open Merkle (AgreeBelow DifferFrom)

namespace AuxProof

/-- The proof with another position in its chain branch. -/
def moveChain (proof : AuxProof) (index : UInt32) : AuxProof :=
  { proof with chainBranch := { proof.chainBranch with index } }

/-- The proof with another position in its coinbase branch. -/
def moveCoinbase (proof : AuxProof) (index : UInt32) : AuxProof :=
  { proof with coinbaseBranch := { proof.coinbaseBranch with index } }

variable {proof : AuxProof} {hash : Hash256} {chainId : ChainId} {params : Params}
  {index : UInt32}

/-! ### What the rules leave -/

/-- The positions of an accepted proof, and the size that its coinbase commits to. -/
theorem positions_of_check (hok : proof.check hash chainId params = .ok ()) :
    proof.chainBranch.height ≤ min params.maxTreeHeight.toNat 31 ∧
      proof.chainBranch.index.toNat < 2 ^ proof.chainBranch.height ∧
      proof.coinbaseBranch.index = 0 ∧
      ∃ c, Commitment.read proof.script (proof.committedRoot hash) proof.chainBranch.height =
          .ok c ∧
        c.treeSize.toNat = 2 ^ proof.chainBranch.height := by
  obtain ⟨hcoinbase, -, hheight, -, -, ⟨c, hc, hindex⟩, -, -⟩ := (check_eq_ok_iff ..).mp hok
  -- the size is a word, whatever the parameters allow
  have hword := Commitment.height_lt_of_toNat_eq hc.treeSize_eq
  refine ⟨Nat.le_min.mpr ⟨hheight, Nat.le_of_lt_succ hword⟩, ?_, hcoinbase.2, c,
    (proof.read_eq_ok_iff_commits hash).mpr hc, hc.treeSize_eq⟩
  rw [hindex]
  exact Nat.mod_lt _ (Nat.two_pow_pos _)

/-! ### Other positions -/

/-- Where the climb sees the same position, it ends in the same root, and the same is committed. -/
theorem commits_moveChain
    (hagree : AgreeBelow proof.chainBranch.height index proof.chainBranch.index)
    {c : Commitment} : (proof.moveChain index).Commits hash c ↔ proof.Commits hash c := by
  have hroot : (proof.moveChain index).spelledRoot hash = proof.spelledRoot hash := by
    have hclimb := Merkle.Branch.rootOf_of_agreeBelow hagree hash
    rw [Merkle.Branch.rootOf_eq_rootByBits, Merkle.Branch.rootOf_eq_rootByBits] at hclimb
    exact congrArg Hash256.reversed hclimb
  rw [Commits, Commits, hroot]
  rfl

/-- A position that differs beyond the levels of the chain branch alone passes all rules up to that
of the slot, which expects the position of the accepted proof. -/
theorem check_moveChain (hok : proof.check hash chainId params = .ok ())
    (hne : index ≠ proof.chainBranch.index)
    (hagree : AgreeBelow proof.chainBranch.height index proof.chainBranch.index) :
    (proof.moveChain index).check hash chainId params =
      .error (.slotMismatch proof.chainBranch.index index) := by
  obtain ⟨hcoinbase, hcollision, hheight, hroot, -, ⟨c, hc, hindex⟩, -, -⟩ :=
    (check_eq_ok_iff ..).mp hok
  have hmoved := (commits_moveChain hagree).mpr hc
  have hslot : ¬ ((proof.moveChain index).slotRule hash chainId).holds := by
    rintro ⟨d, hd, hother⟩
    rw [hd.unique hmoved] at hother
    exact hne (UInt32.toNat_inj.mp (hother.trans hindex.symm))
  have hexpected : proof.chainBranch.index =
      UInt32.ofNat ((proof.moveChain index).slotNumber chainId c.nonce) :=
    UInt32.ofNat_toNat.symm.trans (congrArg UInt32.ofNat hindex)
  refine ((check_decides ..).error_iff _).mpr (.later hcoinbase (.later hcollision (.later hheight
    (.later hroot (.later ⟨c, hmoved⟩ (.here hslot ⟨c, hmoved, ?_⟩))))))
  rw [← hexpected]
  rfl

theorem check_moveCoinbase (hne : index ≠ 0) :
    (proof.moveCoinbase index).check hash chainId params = .error .notCoinbase :=
  ((check_decides ..).error_iff _).mpr (.here (fun h => hne h.2) rfl)

/-- **The positions of an accepted proof have one spelling**, under all parameters.  The chain
branch has as many levels as the parameters allow at most, and never more than 31; its position is a
leaf of a tree of that height, whose size the coinbase commits to; and the coinbase stands leftmost.
With a bit changed in either position that lies beyond the levels of its branch the proof is
rejected, although, if no other bit is changed, the branch leads to the same root as before. -/
theorem positions_spelled_once (hok : proof.check hash chainId params = .ok ()) :
    (proof.chainBranch.height ≤ min params.maxTreeHeight.toNat 31 ∧
      proof.chainBranch.index.toNat < 2 ^ proof.chainBranch.height ∧
      proof.coinbaseBranch.index = 0 ∧
      ∃ c, Commitment.read proof.script (proof.committedRoot hash) proof.chainBranch.height =
          .ok c ∧
        c.treeSize.toNat = 2 ^ proof.chainBranch.height) ∧
    (∀ index, DifferFrom proof.chainBranch.height index proof.chainBranch.index →
      (∃ reason, (proof.moveChain index).check hash chainId params = .error reason) ∧
      (AgreeBelow proof.chainBranch.height index proof.chainBranch.index →
        (∀ leaf, (proof.moveChain index).chainBranch.rootOf leaf =
          proof.chainBranch.rootOf leaf) ∧
        (proof.moveChain index).check hash chainId params =
          .error (.slotMismatch proof.chainBranch.index index))) ∧
    ∀ index, DifferFrom proof.coinbaseBranch.height index proof.coinbaseBranch.index →
      (proof.moveCoinbase index).check hash chainId params = .error .notCoinbase ∧
      (AgreeBelow proof.coinbaseBranch.height index proof.coinbaseBranch.index →
        ∀ leaf, (proof.moveCoinbase index).coinbaseBranch.rootOf leaf =
          proof.coinbaseBranch.rootOf leaf) := by
  have hpositions := positions_of_check hok
  have hlt := hpositions.2.1
  have hzero := hpositions.2.2.1
  refine ⟨hpositions, fun index hdiffer => ⟨?_, fun hagree => ⟨?_, ?_⟩⟩,
    fun index hdiffer => ⟨?_, fun hagree => ?_⟩⟩
  · cases hcheck : (proof.moveChain index).check hash chainId params with
    | error reason => exact ⟨reason, rfl⟩
    | ok u =>
      -- accepted, the other position would be a leaf as well
      obtain ⟨-, hlt', -⟩ := positions_of_check hcheck
      exact absurd (hdiffer.le hlt) (Nat.not_le_of_lt hlt')
  · exact Merkle.Branch.rootOf_of_agreeBelow hagree
  · exact check_moveChain hok hdiffer.ne hagree
  · rw [hzero] at hdiffer
    exact check_moveCoinbase hdiffer.ne
  · exact Merkle.Branch.rootOf_of_agreeBelow hagree

/-- Parameters that allow trees far beyond what is supported. -/
def boundless : Params := { Params.regtest 42 with maxTreeHeight := 0xffffffff }

/-- The proof with a chain branch of one level and a coinbase branch of none, under them: the second
bit of the one position and the first bit of the other one are beyond. -/
theorem twoLeafProof_spelled_once :
    twoLeafProof.check .zero 42 boundless = .ok () ∧
      twoLeafProof.chainBranch.height ≤ 31 ∧ twoLeafProof.chainBranch.index.toNat < 2 ^ 1 ∧
      DifferFrom 1 2 twoLeafProof.chainBranch.index ∧
      (twoLeafProof.moveChain 2).chainBranch.rootOf .zero =
        twoLeafProof.chainBranch.rootOf .zero ∧
      (twoLeafProof.moveChain 2).check .zero 42 boundless = .error (.slotMismatch 0 2) ∧
      DifferFrom 0 1 twoLeafProof.coinbaseBranch.index ∧
      (twoLeafProof.moveCoinbase 1).check .zero 42 boundless = .error .notCoinbase := by
  have hok : twoLeafProof.check .zero 42 boundless = .ok () := by decide +kernel
  have hchain : DifferFrom 1 2 twoLeafProof.chainBranch.index := ⟨1, by decide, by decide⟩
  have hbelow : AgreeBelow 1 2 twoLeafProof.chainBranch.index := by
    intro level hlevel
    obtain rfl : level = 0 := by omega
    decide
  have hcoinbase : DifferFrom 0 1 twoLeafProof.coinbaseBranch.index := ⟨0, by decide, by decide⟩
  obtain ⟨⟨hheight, hlt, -⟩, hmoved, hleftmost⟩ := positions_spelled_once hok
  obtain ⟨hroot, hslot⟩ := (hmoved 2 hchain).2 hbelow
  exact ⟨hok, hheight, hlt, hchain, hroot .zero, hslot, hcoinbase, (hleftmost 1 hcoinbase).1⟩

end AuxProof

end MergedMining
