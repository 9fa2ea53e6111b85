import MergedMining.Proofs.AuxProof.Rules
import MergedMining.Proofs.Merkle.Binding

/-!
# The effort of a check

A proof comes from untrusted input, and both its branches can be of any length.  The parameters say
how many levels the merge-mining tree may have, so that a chain branch beyond that is rejected
before anything is hashed.  The coinbase branch climbs the transaction tree of the parent chain,
about which the parameters say nothing: it is climbed to its end, however long it is.

## Main results

* `AuxProof.chainBranch_bounded` — a chain branch with too many levels is rejected, so that an
  accepted proof hashes no more nodes on it than the parameters allow.
* `AuxProof.longCoinbaseBranch_accepted` — a coinbase branch may have more levels than that.
-/

namespace MergedMining

/-- A climb hashes one message for each sibling. -/
@[simp] theorem Merkle.length_messages (hashes : List Hash256) :
    ∀ (index : Nat) (node : Hash256), (Merkle.messages index node hashes).length =
      hashes.length := by
  induction hashes with
  | nil => intro index node; rfl
  | cons sibling rest ih => intro index node; simp [Merkle.messages, ih]

namespace AuxProof

variable (proof : AuxProof) (hash : Hash256) (chainId : ChainId) (params : Params)

/-- A chain branch with too many levels is found by the third rule, in front of those that climb. -/
theorem check_of_not_heightRule (hhigh : ¬ (proof.heightRule params).holds) :
    proof.check hash chainId params = .error .notCoinbase ∨
      proof.check hash chainId params = .error (.chainIdCollision chainId) ∨
      proof.check hash chainId params =
        .error (.branchTooLong proof.chainBranch.hashes.length params.maxTreeHeight) := by
  have hrejects := (proof.check_decides hash chainId params).error_iff
  by_cases hcoinbase : proof.coinbaseRule.holds
  case neg => exact Or.inl ((hrejects _).mpr (.here hcoinbase rfl))
  by_cases hcollision : (proof.collisionRule chainId params).holds
  case neg => exact Or.inr (Or.inl ((hrejects _).mpr (.later hcoinbase (.here hcollision rfl))))
  exact Or.inr (Or.inr ((hrejects _).mpr
    (.later hcoinbase (.later hcollision (.here hhigh rfl)))))

/-- **The effort on the chain branch is bounded.**  A proof whose chain branch has more levels than
the parameters allow is rejected by one of the three rules that hash nothing.  So the climb of an
accepted proof from the block hash to the committed root hashes no more nodes than that. -/
theorem chainBranch_bounded :
    (params.maxTreeHeight.toNat < proof.chainBranch.hashes.length →
      proof.check hash chainId params = .error .notCoinbase ∨
        proof.check hash chainId params = .error (.chainIdCollision chainId) ∨
        proof.check hash chainId params =
          .error (.branchTooLong proof.chainBranch.hashes.length params.maxTreeHeight)) ∧
    (proof.check hash chainId params = .ok () →
      (Merkle.messages proof.chainBranch.index.toNat hash proof.chainBranch.hashes).length ≤
        params.maxTreeHeight.toNat) := by
  refine ⟨fun hhigh => ?_, fun hok => ?_⟩
  · exact proof.check_of_not_heightRule hash chainId params (Nat.not_le_of_lt hhigh)
  · obtain ⟨-, -, hheight, -⟩ := (proof.check_eq_ok_iff hash chainId params).mp hok
    rw [Merkle.length_messages]
    exact hheight

/-! ### A long coinbase branch -/

/-- The parameters of a chain for trying out that is never mined together with another one. -/
def singleChain : Params := { Params.regtest 42 with maxTreeHeight := 0 }

/-- A proof whose chain branch has no levels.  Its coinbase has one neighbour in the parent block.
-/
def neighbouredProof : AuxProof :=
  let coinbase : Transaction :=
    ⟨1, [⟨.null, Commitment.payload true .zero 0 0, 0, []⟩], [], 0⟩
  let branch : Merkle.Branch := ⟨[.zero], 0⟩
  ⟨coinbase, .zero, branch, {}, ⟨0, .zero, branch.rootOf coinbase.txid, 0, 0x207fffff, 0⟩⟩

theorem neighbouredProof_check : neighbouredProof.check .zero 42 singleChain = .ok () := by
  decide +kernel

/-- It is accepted without hashing a node on the chain branch, and rejected with one level more
there. -/
theorem neighbouredProof_bounded :
    neighbouredProof.check .zero 42 singleChain = .ok () ∧
      (Merkle.messages neighbouredProof.chainBranch.index.toNat .zero
        neighbouredProof.chainBranch.hashes).length ≤ 0 ∧
      (let longer := { neighbouredProof with chainBranch := ⟨[.zero], 0⟩ }
       singleChain.maxTreeHeight.toNat < longer.chainBranch.hashes.length ∧
        (longer.check .zero 42 singleChain = .error .notCoinbase ∨
          longer.check .zero 42 singleChain = .error (.chainIdCollision 42) ∨
          longer.check .zero 42 singleChain = .error (.branchTooLong 1 0))) :=
  ⟨neighbouredProof_check,
    (neighbouredProof.chainBranch_bounded .zero 42 singleChain).2 neighbouredProof_check,
    by decide,
    (chainBranch_bounded { neighbouredProof with chainBranch := ⟨[.zero], 0⟩ } .zero 42
      singleChain).1 (by decide)⟩

/-- **A coinbase branch may be longer** than the parameters allow for a chain branch: the proof is
accepted under parameters that agree with each other. -/
theorem longCoinbaseBranch_accepted :
    singleChain.validate = .ok () ∧
      singleChain.maxTreeHeight.toNat < neighbouredProof.coinbaseBranch.hashes.length ∧
      neighbouredProof.check .zero 42 singleChain = .ok () :=
  ⟨by decide, by decide, neighbouredProof_check⟩

end AuxProof

end MergedMining
