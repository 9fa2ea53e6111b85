import MergedMining.Proofs.AuxProof.Rules
import MergedMining.Proofs.Slot.Residues

/-!
# The chains that share a proof

A proof names no chain.  What ties it to one is the slot: the position in the tree has to be the one
that follows from the nonce and the chain id.  The multiplier of the slot is odd, so that under one
nonce two ids take the same leaf of a tree of `2 ^ h` leaves exactly if they are congruent modulo
`2 ^ h`.  An accepted proof is therefore good for all chains of one residue class, save the one whose
id the parent block carries under strict parameters, and for no others.

## Main results

* `AuxProof.slotRule_iff_of_holds` — a proof in the slot of one chain is in that of another.
* `AuxProof.shared_iff` — for which chains an accepted proof is accepted, and why not for the others.
-/

namespace MergedMining

namespace AuxProof

variable {proof : AuxProof} {hash : Hash256} {params : Params} {chainId₁ : ChainId}

/-- A proof that stands in the slot of one chain stands in that of another one exactly if the ids
agree modulo the number of leaves. -/
theorem slotRule_iff_of_holds (h₁ : (proof.slotRule hash chainId₁).holds) (chainId₂ : ChainId) :
    (proof.slotRule hash chainId₂).holds ↔
      chainId₁.toNat ≡ chainId₂.toNat [MOD 2 ^ proof.chainBranch.height] := by
  obtain ⟨c, hc, hindex⟩ := h₁
  rw [← Slot.mixed_modEq_iff c.nonce]
  constructor
  · rintro ⟨d, hd, hindex'⟩
    -- the script commits to one nonce only
    rw [hd.unique hc, hindex] at hindex'
    exact hindex'
  · intro hmod
    exact ⟨c, hc, hindex.trans hmod⟩

/-- Outside of its slot a proof is rejected with the slot that it should stand in. -/
theorem reports_slotMismatch (h₁ : (proof.slotRule hash chainId₁).holds) (chainId₂ : ChainId) :
    ∃ c, Commitment.read proof.script (proof.committedRoot hash) proof.chainBranch.height = .ok c ∧
      (proof.slotRule hash chainId₂).reports
        (.slotMismatch (slot c.nonce chainId₂ proof.chainBranch.height)
          proof.chainBranch.index) := by
  obtain ⟨c, hc, -⟩ := h₁
  refine ⟨c, (proof.read_eq_ok_iff_commits hash).mpr hc, c, hc, ?_⟩
  rw [← proof.slot_toNat_of_commits hash chainId₂ hc, UInt32.ofNat_toNat]

/-- **The chains that share a proof.**  A proof that is accepted for one chain is accepted for
another exactly if the two ids are congruent modulo the number of leaves and the parent does not
carry the other id under strict parameters.  Where it does, the collision is the reason; where it
does not and the ids are not congruent, the reason is the position, which is not the slot of the
other chain under the nonce that the script commits to. -/
theorem shared_iff (h₁ : proof.check hash chainId₁ params = .ok ()) (chainId₂ : ChainId) :
    (proof.check hash chainId₂ params = .ok () ↔
      chainId₁.toNat ≡ chainId₂.toNat [MOD 2 ^ proof.chainBranch.height] ∧
        (params.strictChainId = false ∨
          (params.layout.decode proof.parent.version).chainId ≠ chainId₂)) ∧
    (¬ chainId₁.toNat ≡ chainId₂.toNat [MOD 2 ^ proof.chainBranch.height] →
      (params.strictChainId = false ∨
        (params.layout.decode proof.parent.version).chainId ≠ chainId₂) →
      ∃ c, Commitment.read proof.script (proof.committedRoot hash) proof.chainBranch.height =
          .ok c ∧
        proof.check hash chainId₂ params =
          .error (.slotMismatch (slot c.nonce chainId₂ proof.chainBranch.height)
            proof.chainBranch.index)) ∧
    (params.strictChainId = true →
      (params.layout.decode proof.parent.version).chainId = chainId₂ →
      proof.check hash chainId₂ params = .error (.chainIdCollision chainId₂)) := by
  obtain ⟨hcoinbase, -, hheight, hroot, hcommitment, hslot₁, htarget, hwork⟩ :=
    (check_eq_ok_iff ..).mp h₁
  have hslot := slotRule_iff_of_holds hslot₁ chainId₂
  refine ⟨?_, fun hmod hcollision => ?_, fun hstrict hparent => ?_⟩
  · -- the rules that do not look at the chain hold as they did for the first one
    rw [check_eq_ok_iff, collisionRule_holds_iff, hslot]
    constructor
    · rintro ⟨-, hcollision, -, -, -, hmod, -, -⟩
      exact ⟨hmod, hcollision⟩
    · rintro ⟨hmod, hcollision⟩
      exact ⟨hcoinbase, hcollision, hheight, hroot, hcommitment, hmod, htarget, hwork⟩
  · obtain ⟨c, hread, hreports⟩ := reports_slotMismatch hslot₁ chainId₂
    refine ⟨c, hread, ((check_decides ..).error_iff _).mpr ?_⟩
    have hcollision := (collisionRule_holds_iff proof chainId₂ params).mpr hcollision
    exact .later hcoinbase (.later hcollision (.later hheight (.later hroot
      (.later hcommitment (.here (mt hslot.mp hmod) hreports)))))
  · refine ((check_decides ..).error_iff _).mpr (.later hcoinbase (.here ?_ rfl))
    rw [collisionRule_holds_iff]
    rintro (hlax | hne)
    · rw [hstrict] at hlax
      cases hlax
    · exact hne hparent

/-- A branch of one level, with the block of chain 42 in its slot under nonce 0. -/
def twoLeafBranch : Merkle.Branch := ⟨[.zero], slot 0 42 1⟩

/-- A proof with that branch, whose parent carries chain id 0. -/
def twoLeafProof : AuxProof :=
  let coinbase : Transaction :=
    ⟨1, [⟨.null, Commitment.payload true (twoLeafBranch.rootOf .zero).reversed 1 0, 0, []⟩], [], 0⟩
  ⟨coinbase, .zero, {}, twoLeafBranch, ⟨0, .zero, coinbase.txid, 0, 0x207fffff, 1⟩⟩

/-- It holds for chain 42 and so for chain 44, but neither for chain 43, which has the other leaf,
nor for chain 0, which the parent carries. -/
theorem twoLeafProof_shared :
    twoLeafProof.check .zero 42 (.regtest 42) = .ok () ∧
      twoLeafProof.check .zero 44 (.regtest 42) = .ok () ∧
      (∃ c, Commitment.read twoLeafProof.script (twoLeafProof.committedRoot .zero) 1 = .ok c ∧
        twoLeafProof.check .zero 43 (.regtest 42) = .error (.slotMismatch (slot c.nonce 43 1) 0)) ∧
      twoLeafProof.check .zero 0 (.regtest 42) = .error (.chainIdCollision 0) := by
  have h₁ : twoLeafProof.check .zero 42 (.regtest 42) = .ok () := by decide +kernel
  obtain ⟨hshared, -, -⟩ := shared_iff h₁ 44
  obtain ⟨-, hother, -⟩ := shared_iff h₁ 43
  obtain ⟨-, -, hcollision⟩ := shared_iff h₁ 0
  exact ⟨h₁, hshared.mpr ⟨by decide, Or.inr (by decide)⟩, hother (by decide) (Or.inr (by decide)),
    hcollision rfl (by decide)⟩

end AuxProof

end MergedMining
