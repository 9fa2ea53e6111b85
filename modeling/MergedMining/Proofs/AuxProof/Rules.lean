import MergedMining.AuxProof
import MergedMining.Proofs.Commitment.Grammar
import MergedMining.Proofs.Merkle.Path
import MergedMining.Proofs.Slot
import MergedMining.Proofs.Verdict
import MergedMining.Proofs.Version.Fields
import MergedMining.Proofs.Work

/-!
# The rules of a proof

A proof is judged by eight rules, in the order in which they stand here.  They are said in terms of
what a proof is about: numbers instead of words, paths instead of climbs, a grammar instead of a
search.  Checking a proof follows these rules, for all inputs and all parameters.

## Main definitions

* `AuxProof.rules` — the rules in their order.

## Main results

* `AuxProof.check_follows_rules` — checking a proof follows the rules.
-/

namespace MergedMining.AuxProof

variable (proof : AuxProof) (hash : Hash256) (chainId : ChainId) (params : Params)

/-! ### The rules -/

/-- The transaction has a single input, which names no output, and stands leftmost in its block. -/
def coinbaseRule : Rule where
  holds := (∃ input, proof.coinbase.inputs = [input] ∧ input.previous = .null) ∧
    proof.coinbaseBranch.index = 0
  reports reason := reason = .notCoinbase

/-- Under strict parameters the parent carries another chain's id: the part of its version above
the shift. -/
def collisionRule : Rule where
  holds := params.strictChainId = false ∨
    proof.parent.version.toNat / 2 ^ params.layout.shift ≠ chainId.toNat
  reports reason := reason = .chainIdCollision chainId

/-- The chain branch has no more levels than the parameters allow. -/
def heightRule : Rule where
  holds := proof.chainBranch.hashes.length ≤ params.maxTreeHeight.toNat
  reports reason := reason = .branchTooLong proof.chainBranch.hashes.length params.maxTreeHeight

/-- The transaction's id, joined with one sibling after the other on its right, gives the Merkle
root of the parent. -/
def parentRootRule : Rule where
  holds := proof.coinbaseBranch.hashes.foldl Hash256.join proof.coinbase.txid =
    proof.parent.merkleRoot
  reports reason := reason = .merkleRootMismatch .parentBlock

/-- The root that a script has to spell: the bytes of the one to which the bits of the position lead
the block hash, last byte first. -/
def spelledRoot : Hash256 where
  bytes := (proof.chainBranch.rootByBits hash).bytes.reverse
  length_bytes := List.length_reverse.trans (proof.chainBranch.rootByBits hash).length_bytes

/-- The commitment to the root of the chain branch, at its height, is written in the script. -/
def Commits (c : Commitment) : Prop :=
  Commitment.Written proof.script (proof.spelledRoot hash) proof.chainBranch.hashes.length c

/-- The script can be read as the grammar of commitments says. -/
def commitmentRule : Rule where
  holds := ∃ c, proof.Commits hash c
  reports reason := Commitment.Outcome proof.script (proof.spelledRoot hash)
    proof.chainBranch.hashes.length (.error reason)

/-- The slot of the chain under a nonce: the two mixed, modulo the number of leaves. -/
def slotNumber (nonce : UInt32) : Nat :=
  Slot.mixed nonce chainId % 2 ^ proof.chainBranch.hashes.length

/-- The block hash stands in the slot of its chain. -/
def slotRule : Rule where
  holds := ∃ c, proof.Commits hash c ∧
    proof.chainBranch.index.toNat = proof.slotNumber chainId c.nonce
  reports reason := ∃ c, proof.Commits hash c ∧
    reason = .slotMismatch (UInt32.ofNat (proof.slotNumber chainId c.nonce))
      proof.chainBranch.index

/-- The parent's word spells a target. -/
def targetRule : Rule where
  holds := Target.Usable proof.parent.bits
  reports reason := ∃ error, Target.Fault proof.parent.bits error ∧ reason = .invalidTarget error

/-- The double SHA-256 of the parent's eighty bytes, as a little-endian number, is at most the
number that the parent's word denotes. -/
def workRule : Rule where
  holds := Bytes.toNatLE (Hash256.ofMessage proof.parent.write).bytes ≤
    Target.value proof.parent.bits
  reports reason := reason = .targetNotMet (.ofMessage proof.parent.write) proof.parent.bits

/-- The rules in the order in which they are tried. -/
def rules : List Rule :=
  [proof.coinbaseRule, proof.collisionRule chainId params, proof.heightRule params,
    proof.parentRootRule, proof.commitmentRule hash, proof.slotRule hash chainId,
    proof.targetRule, proof.workRule]

/-! ### What the tests compute -/

theorem coinbase_test_iff :
    (!(proof.coinbase.isCoinbase && proof.coinbaseBranch.index == 0)) = true ↔
      ¬ proof.coinbaseRule.holds := by
  rw [Bool.not_eq_true', ← Bool.not_eq_true, not_iff_not, Bool.and_eq_true, beq_iff_eq]
  refine and_congr_left' ?_
  rw [Transaction.isCoinbase]
  split
  case h_1 input hinputs => simp [hinputs]
  case h_2 hinputs =>
    refine iff_of_false (by decide) ?_
    rintro ⟨input, hinput, -⟩
    exact hinputs input hinput

theorem collision_test_iff :
    (params.strictChainId &&
        (params.layout.decode proof.parent.version).chainId == chainId) = true ↔
      ¬ (proof.collisionRule chainId params).holds := by
  rw [collisionRule, not_or, Classical.not_not, Bool.not_eq_false, Bool.and_eq_true, beq_iff_eq,
    ← UInt32.toNat_inj, Version.Layout.decode_chainId_toNat]

/-- The rule in terms of the chain id that the parent's version decodes to. -/
theorem collisionRule_holds_iff :
    (proof.collisionRule chainId params).holds ↔
      params.strictChainId = false ∨
        (params.layout.decode proof.parent.version).chainId ≠ chainId := by
  rw [collisionRule, Ne, Ne, ← UInt32.toNat_inj, Version.Layout.decode_chainId_toNat]

/-- A transaction that stands leftmost is joined with siblings on its right only. -/
theorem parentRoot_test_iff (hindex : proof.coinbaseBranch.index = 0) :
    proof.coinbaseBranch.rootOf proof.coinbase.txid ≠ proof.parent.merkleRoot ↔
      ¬ proof.parentRootRule.holds := by
  rw [Merkle.Branch.rootOf, hindex, UInt32.toNat_zero, Merkle.climb_zero]
  rfl

theorem committedRoot_eq_spelledRoot : proof.committedRoot hash = proof.spelledRoot hash := by
  rw [committedRoot, Merkle.Branch.rootOf_eq_rootByBits]
  rfl

theorem read_eq_ok_iff_commits {c : Commitment} :
    Commitment.read proof.script (proof.committedRoot hash) proof.chainBranch.height = .ok c ↔
      proof.Commits hash c := by
  rw [committedRoot_eq_spelledRoot]
  exact Commitment.read_eq_ok_iff_written

theorem Commits.unique {proof : AuxProof} {hash : Hash256} {c d : Commitment}
    (hc : proof.Commits hash c) (hd : proof.Commits hash d) : c = d := by
  rw [← read_eq_ok_iff_commits] at hc hd
  rw [hc, Except.ok.injEq] at hd
  exact hd

/-- Under a commitment the slot is not reduced any further than its tree. -/
theorem slot_toNat_of_commits {c : Commitment} (hc : proof.Commits hash c) :
    (slot c.nonce chainId proof.chainBranch.height).toNat = proof.slotNumber chainId c.nonce := by
  have hheight := Commitment.height_lt_of_toNat_eq hc.treeSize_eq
  rw [slot_toNat, Merkle.Branch.height, Nat.min_eq_left (Nat.le_of_lt hheight), slotNumber]

/-! ### Checks follow rules -/

theorem checkParentWork_decides (workHash : WorkHash) :
    Decides [proof.targetRule, proof.workRule] (proof.checkParentWork workHash) := by
  rw [checkParentWork, WorkHash.apply_eq_ofMessage]
  cases hdecode : Target.decode proof.parent.bits with
  | error error =>
    have hfault := Target.decode_eq_error_iff.mp hdecode
    refine .fail hfault.not_usable fun other => ⟨?_, fun hother => ⟨error, hfault, hother⟩⟩
    rintro ⟨error', hfault', rfl⟩
    rw [hfault'.unique hfault]
  | ok target =>
    obtain ⟨husable, rfl⟩ := Target.decode_eq_ok_iff.mp hdecode
    refine .pass husable ?_
    by_cases hmeets : (Hash256.ofMessage proof.parent.write).meets
        (Target.value proof.parent.bits) = true
    · simp only [if_pos hmeets]
      exact .pass (Hash256.meets_iff.mp hmeets) .nil
    · simp only [if_neg hmeets]
      exact .fail (fun hwork => hmeets (Hash256.meets_iff.mpr hwork)) fun other => Iff.rfl

/-- The commitment is judged by the two rules in front of those that come after it. -/
theorem checkCommitment_decides {rest : List Rule} {verdict : Except Rejection Unit}
    (hrest : Decides rest verdict) :
    Decides (proof.commitmentRule hash :: proof.slotRule hash chainId :: rest)
      (match proof.checkCommitment hash chainId with
        | .error reason => .error reason
        | .ok () => verdict) := by
  rw [checkCommitment]
  cases hread : Commitment.read proof.script (proof.committedRoot hash)
      proof.chainBranch.height with
  | error reason =>
    refine .fail ?_ fun other => ?_
    · rintro ⟨c, hc⟩
      rw [(proof.read_eq_ok_iff_commits hash).mpr hc] at hread
      cases hread
    · rw [committedRoot_eq_spelledRoot] at hread
      refine Commitment.read_eq_iff_outcome.symm.trans ?_
      rw [← Merkle.Branch.height, hread, Except.error.injEq, eq_comm]
  | ok c =>
    have hc := (proof.read_eq_ok_iff_commits hash).mp hread
    -- the test compares words, the rule numbers
    have hslot := proof.slot_toNat_of_commits hash chainId hc
    refine .pass ⟨c, hc⟩ ?_
    by_cases hindex : proof.chainBranch.index = slot c.nonce chainId proof.chainBranch.height
    · simp only [if_pos hindex]
      exact .pass ⟨c, hc, by rw [hindex, hslot]⟩ hrest
    · simp only [if_neg hindex]
      refine .fail ?_ fun other => ?_
      · rintro ⟨d, hd, hslot'⟩
        rw [hd.unique hc, ← hslot, UInt32.toNat_inj] at hslot'
        exact hindex hslot'
      · have hexpected : slot c.nonce chainId proof.chainBranch.height =
            UInt32.ofNat (proof.slotNumber chainId c.nonce) := by rw [← hslot, UInt32.ofNat_toNat]
        rw [hexpected]
        constructor
        · rintro ⟨d, hd, rfl⟩
          rw [hd.unique hc]
        · rintro rfl
          exact ⟨c, hc, rfl⟩

/-- The tests of a check are those of the rules, in their order. -/
theorem check_decides :
    Decides (proof.rules hash chainId params) (proof.check hash chainId params) := by
  rw [check, rules]
  refine .guard proof.coinbase_test_iff (fun other => Iff.rfl) fun hcoinbase => ?_
  refine .guard (proof.collision_test_iff chainId params) (fun other => Iff.rfl) fun _ => ?_
  refine .guard Nat.not_le.symm (fun other => Iff.rfl) fun _ => ?_
  -- the climb starts at the position that the first rule has found to be 0
  refine .guard (proof.parentRoot_test_iff hcoinbase.2) (fun other => Iff.rfl) fun _ => ?_
  exact proof.checkCommitment_decides hash chainId (proof.checkParentWork_decides params.workHash)

/-- A proof is accepted exactly if it passes all rules. -/
theorem check_eq_ok_iff :
    proof.check hash chainId params = .ok () ↔
      proof.coinbaseRule.holds ∧ (proof.collisionRule chainId params).holds ∧
        (proof.heightRule params).holds ∧ proof.parentRootRule.holds ∧
        (proof.commitmentRule hash).holds ∧ (proof.slotRule hash chainId).holds ∧
        proof.targetRule.holds ∧ proof.workRule.holds := by
  rw [(proof.check_decides hash chainId params).ok_iff, rules]
  simp only [List.forall_mem_cons, List.not_mem_nil, false_implies, implies_true, and_true]

/-- **Checking a proof follows the rules**, for every transaction, script, branch and header, and
under all parameters, validated or not: the proof is accepted exactly if all eight rules hold, and
otherwise rejected exactly for the reason of the first one that does not. -/
theorem check_follows_rules :
    (proof.check hash chainId params = .ok () ↔
      ∀ rule ∈ proof.rules hash chainId params, rule.holds) ∧
    ∀ reason, proof.check hash chainId params = .error reason ↔
      Refuses (proof.rules hash chainId params) reason :=
  ⟨(proof.check_decides hash chainId params).ok_iff,
    (proof.check_decides hash chainId params).error_iff⟩

end MergedMining.AuxProof
