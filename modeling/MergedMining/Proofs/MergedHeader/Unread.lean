import MergedMining.Proofs.MergedHeader.Legacy
import MergedMining.Proofs.Transaction.Canonical

/-!
# What a verdict does not read

A proof carries data that no hash covers: the parent's hash, and the witnesses of the coinbase, which
the id of a transaction leaves out.  Whoever passes a header on can change them without changing the
header's hash, so a verdict must not depend on them.  Nor does the verdict on a proof depend on the
chain's own id and limit, which are asked of headers only.

## Main definitions

* `AuxProof.SameCore` — two proofs differ at most in the parent's hash and in witnesses.
* `Params.SameProofRules` — two sets of rules differ at most in the chain's id and limit.

## Main results

* `AuxProof.check_eq_of_sameCore` — such proofs get one verdict under such rules.
* `MergedHeader.verdict_eq_of_sameCore` — and so do headers that own them.
-/

namespace MergedMining

namespace Transaction

/-- A transaction without its witnesses. -/
def stripped (tx : Transaction) : Transaction := { tx with inputs := tx.inputs.map TxIn.stripped }

@[simp] theorem writeStripped_stripped (tx : Transaction) :
    tx.stripped.writeStripped = tx.writeStripped := by
  unfold writeStripped stripped
  rw [TxIn.writeList_stripped]

/-- **The id covers no witnesses**, however many inputs there are. -/
@[simp] theorem txid_stripped (tx : Transaction) : tx.stripped.txid = tx.txid := by
  unfold txid
  rw [writeStripped_stripped]

@[simp] theorem isCoinbase_stripped (tx : Transaction) :
    tx.stripped.isCoinbase = tx.isCoinbase := by
  obtain ⟨version, inputs, outputs, lockTime⟩ := tx
  match inputs with
  | [] => rfl
  | [input] => rfl
  | _ :: _ :: _ => rfl

end Transaction

/-- Two sets of rules differ at most in the chain's id and in the easiest target. -/
structure Params.SameProofRules (params params' : Params) : Prop where
  /-- Both are strict about chain ids, or none is. -/
  strictChainId : params.strictChainId = params'.strictChainId
  /-- Trees may have the same number of levels. -/
  maxTreeHeight : params.maxTreeHeight = params'.maxTreeHeight
  /-- Work is measured by the same hash. -/
  workHash : params.workHash = params'.workHash
  /-- The fields of a version stand in the same places. -/
  layout : params.layout = params'.layout

namespace AuxProof

/-- Two proofs differ at most in the parent's hash and in the witnesses of the coinbase's inputs. -/
structure SameCore (proof proof' : AuxProof) : Prop where
  /-- The coinbases are the same up to their witnesses. -/
  coinbase : proof.coinbase.stripped = proof'.coinbase.stripped
  /-- The coinbase branches are the same. -/
  coinbaseBranch : proof.coinbaseBranch = proof'.coinbaseBranch
  /-- The chain branches are the same. -/
  chainBranch : proof.chainBranch = proof'.chainBranch
  /-- The parents' headers are the same. -/
  parent : proof.parent = proof'.parent

/-- The script is that of the coinbase without its witnesses. -/
theorem script_eq_stripped (proof : AuxProof) :
    proof.script = proof.coinbase.stripped.inputs.head?.elim [] TxIn.script := by
  unfold script Transaction.stripped
  cases proof.coinbase.inputs with
  | nil => rfl
  | cons input inputs => rfl

namespace SameCore

variable {proof proof' : AuxProof}

theorem txid_eq (h : proof.SameCore proof') : proof.coinbase.txid = proof'.coinbase.txid := by
  rw [← Transaction.txid_stripped, h.coinbase, Transaction.txid_stripped]

theorem isCoinbase_eq (h : proof.SameCore proof') :
    proof.coinbase.isCoinbase = proof'.coinbase.isCoinbase := by
  rw [← Transaction.isCoinbase_stripped, h.coinbase, Transaction.isCoinbase_stripped]

theorem script_eq (h : proof.SameCore proof') : proof.script = proof'.script := by
  rw [script_eq_stripped, h.coinbase, ← script_eq_stripped]

theorem checkCommitment_eq (h : proof.SameCore proof') (hash : Hash256) (chainId : ChainId) :
    proof.checkCommitment hash chainId = proof'.checkCommitment hash chainId := by
  unfold checkCommitment committedRoot
  rw [h.script_eq, h.chainBranch]

theorem checkParentWork_eq (h : proof.SameCore proof') (workHash : WorkHash) :
    proof.checkParentWork workHash = proof'.checkParentWork workHash := by
  unfold checkParentWork
  rw [h.parent]

end SameCore

/-- **The verdict on a proof** reads neither the parent's hash nor any witness, and of the rules
neither the chain's id nor the limit. -/
theorem check_eq_of_sameCore {proof proof' : AuxProof} {params params' : Params}
    (h : proof.SameCore proof') (hparams : params.SameProofRules params') (hash : Hash256)
    (chainId : ChainId) :
    proof.check hash chainId params = proof'.check hash chainId params' := by
  unfold check
  rw [h.isCoinbase_eq, h.txid_eq, h.checkCommitment_eq, h.checkParentWork_eq, h.coinbaseBranch,
    h.chainBranch, h.parent, hparams.strictChainId, hparams.maxTreeHeight, hparams.workHash,
    hparams.layout]

end AuxProof

namespace MergedHeader

/-- The header with another proof in place of the one that it owns. -/
def withProof (h : MergedHeader) (proof : AuxProof) : MergedHeader := { h with proof := some proof }

@[simp] theorem header_withProof (h : MergedHeader) (proof : AuxProof) :
    (h.withProof proof).header = h.header := rfl

@[simp] theorem proof_withProof (h : MergedHeader) (proof : AuxProof) :
    (h.withProof proof).proof = some proof := rfl

@[simp] theorem fields_withProof (h : MergedHeader) (proof : AuxProof) (layout : Version.Layout) :
    (h.withProof proof).fields layout = h.fields layout := rfl

/-- The verdict on a header that owns a proof looks at the proof once the version allows for it. -/
theorem checkWork_withProof (h : MergedHeader) (proof : AuxProof) (params : Params) :
    (h.withProof proof).checkWork params =
      if params.strictChainId && !Version.isLegacy h.header.version &&
          (h.fields params.layout).chainId != params.chainId then
        .error (.wrongChainId params.chainId (h.fields params.layout).chainId)
      else if (h.fields params.layout).merged then (h.withProof proof).checkMergedWork proof params
      else .error .unexpectedProof := by
  unfold checkWork
  simp only [header_withProof, proof_withProof, fields_withProof]
  cases (h.fields params.layout).merged with
  | true => rfl
  | false => rfl

theorem checkMergedWork_withProof_eq {proof proof' : AuxProof} (h : MergedHeader)
    (params : Params) (hcore : proof.SameCore proof') :
    (h.withProof proof).checkMergedWork proof params =
      (h.withProof proof').checkMergedWork proof' params := by
  unfold checkMergedWork
  rw [AuxProof.check_eq_of_sameCore hcore ⟨rfl, rfl, rfl, rfl⟩, hcore.parent]
  rfl

/-- **What a verdict does not read.**  Two proofs that differ at most in the parent's hash and in the
witnesses of the coinbase's inputs get the same verdict for every hash and chain, reasons included,
even under rules that differ in the chain's id and limit.  A header that owns the one keeps its hash
and its verdict under all rules when it is given the other. -/
theorem verdict_eq_of_sameCore {proof proof' : AuxProof} (hcore : proof.SameCore proof') :
    (∀ (params params' : Params) (hash : Hash256) (chainId : ChainId),
      params.SameProofRules params' →
      proof.check hash chainId params = proof'.check hash chainId params') ∧
    ∀ h : MergedHeader, h.proof = some proof →
      (h.withProof proof').hash = h.hash ∧
        ∀ params, (h.withProof proof').checkWork params = h.checkWork params := by
  refine ⟨fun params params' hash chainId hparams => ?_, fun h hproof => ⟨rfl, fun params => ?_⟩⟩
  · exact AuxProof.check_eq_of_sameCore hcore hparams hash chainId
  · have hown : h.withProof proof = h := by
      unfold withProof
      rw [← hproof]
    have hverdict : (h.withProof proof).checkWork params =
        (h.withProof proof').checkWork params := by
      rw [checkWork_withProof, checkWork_withProof, checkMergedWork_withProof_eq h params hcore]
    rw [← hverdict, hown]

/-- The proof of a header of chain 42 with another hash of the parent and a witness. -/
def relayedProof : AuxProof :=
  let proof := proofFor (easyHeader 0x2a0100) 0
  { proof with
    parentHash := .ofNat 1
    coinbase := { proof.coinbase with
      inputs := proof.coinbase.inputs.map fun input => { input with witness := [[7]] } } }

/-- The header that owns it is accepted like the one it was made from, and under the rules of another
chain the proof itself gets the same verdict. -/
theorem relayedProof_verdict :
    (proofFor (easyHeader 0x2a0100) 0).SameCore relayedProof ∧
      relayedProof ≠ proofFor (easyHeader 0x2a0100) 0 ∧
      (Params.regtest 42).SameProofRules (.standard 7) ∧
      relayedProof.check (easyHeader 0x2a0100).hash 42 (.standard 7) =
        (proofFor (easyHeader 0x2a0100) 0).check (easyHeader 0x2a0100).hash 42 (.regtest 42) ∧
      (minedBy 0x2a0100 0).proof = some (proofFor (easyHeader 0x2a0100) 0) ∧
      ((minedBy 0x2a0100 0).withProof relayedProof).hash = (minedBy 0x2a0100 0).hash ∧
      ((minedBy 0x2a0100 0).withProof relayedProof).checkWork (.regtest 42) = .ok () := by
  have hcore : (proofFor (easyHeader 0x2a0100) 0).SameCore relayedProof := ⟨rfl, rfl, rfl, rfl⟩
  have hrules : (Params.regtest 42).SameProofRules (.standard 7) := ⟨rfl, rfl, rfl, rfl⟩
  have hne : relayedProof.parentHash ≠ (proofFor (easyHeader 0x2a0100) 0).parentHash := by decide
  have hok : (minedBy 0x2a0100 0).checkWork (.regtest 42) = .ok () := by decide +kernel
  obtain ⟨hcheck, hheader⟩ := verdict_eq_of_sameCore hcore
  obtain ⟨hhash, hwork⟩ := hheader (minedBy 0x2a0100 0) rfl
  exact ⟨hcore, fun heq => hne (by rw [heq]), hrules, (hcheck _ _ _ _ hrules).symm, rfl, hhash,
    (hwork _).trans hok⟩

end MergedHeader

end MergedMining
