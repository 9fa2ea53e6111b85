import MergedMining.Commitment
import MergedMining.Merkle.Wire
import MergedMining.Params.Basic
import MergedMining.Transaction

/-!
# Auxiliary proofs of work

A merge-mined block borrows the work of a parent block on another chain.  The proof leads from the
block's hash up the chain branch to a root, from the root into the parent's coinbase script, and
from the coinbase up the coinbase branch to the Merkle root of the parent's header, whose work then
counts.

## Main definitions

* `AuxProof` — the parts of a proof, `AuxProof.write` and `AuxProof.read` their wire format.
* `AuxProof.check` — whether a proof holds for a block hash on a chain.
-/

namespace MergedMining

/-- A proof that a parent block was mined for a block of another chain as well. -/
structure AuxProof where
  /-- The parent block's coinbase. -/
  coinbase : Transaction
  /-- The parent block's hash.  It travels with the proof but plays no part in it. -/
  parentHash : Hash256
  /-- Leads from the coinbase to the parent's Merkle root. -/
  coinbaseBranch : Merkle.Branch
  /-- Leads from the block hash to the root committed to. -/
  chainBranch : Merkle.Branch
  /-- The parent block's header. -/
  parent : BlockHeader
  deriving DecidableEq

namespace AuxProof

/-- The wire format of a proof. -/
def write (proof : AuxProof) : Bytes :=
  proof.coinbase.write ++ proof.parentHash.bytes ++ proof.coinbaseBranch.write ++
    proof.chainBranch.write ++ proof.parent.write

/-- Reads a proof. -/
def read : Wire.Reader AuxProof := fun data => do
  let (coinbase, rest) ← Transaction.read data
  let (parentHash, rest) ← Wire.hash rest
  let (coinbaseBranch, rest) ← Merkle.Branch.read rest
  let (chainBranch, rest) ← Merkle.Branch.read rest
  let (parent, rest) ← BlockHeader.read rest
  return (⟨coinbase, parentHash, coinbaseBranch, chainBranch, parent⟩, rest)

/-- The script that carries the commitment: that of the coinbase's input. -/
def script (proof : AuxProof) : Bytes :=
  match proof.coinbase.inputs with
  | input :: _ => input.script
  | [] => []

/-- The root of the merge-mining tree, in the order in which a script spells it. -/
def committedRoot (proof : AuxProof) (hash : Hash256) : Hash256 :=
  (proof.chainBranch.rootOf hash).reversed

/-- Checks that the parent's header meets its own target.  How easy that target is does not matter
here: the parent may come from a chain with another limit. -/
def checkParentWork (proof : AuxProof) (workHash : WorkHash) : Except Rejection Unit :=
  match Target.decode proof.parent.bits with
  | .error error => .error (.invalidTarget error)
  | .ok target =>
      let hash := workHash.apply proof.parent
      if hash.meets target then .ok () else .error (.targetNotMet hash proof.parent.bits)

/-- Checks that the commitment of the coinbase puts `hash` into the slot of its chain. -/
def checkCommitment (proof : AuxProof) (hash : Hash256) (chainId : ChainId) :
    Except Rejection Unit :=
  let height := proof.chainBranch.height
  match Commitment.read proof.script (proof.committedRoot hash) height with
  | .error reason => .error reason
  | .ok commitment =>
      let expected := slot commitment.nonce chainId height
      if proof.chainBranch.index = expected then .ok ()
      else .error (.slotMismatch expected proof.chainBranch.index)

/-- Checks that the proof holds for the block `hash` of chain `chainId`.  The first rule that fails
gives the reason. -/
def check (proof : AuxProof) (hash : Hash256) (chainId : ChainId) (params : Params) :
    Except Rejection Unit :=
  if !(proof.coinbase.isCoinbase && proof.coinbaseBranch.index == 0) then .error .notCoinbase
  else if params.strictChainId &&
      (params.layout.decode proof.parent.version).chainId == chainId then
    .error (.chainIdCollision chainId)
  else if params.maxTreeHeight.toNat < proof.chainBranch.height then
    .error (.branchTooLong proof.chainBranch.height params.maxTreeHeight)
  else if proof.coinbaseBranch.rootOf proof.coinbase.txid ≠ proof.parent.merkleRoot then
    .error (.merkleRootMismatch .parentBlock)
  else
    match proof.checkCommitment hash chainId with
    | .error reason => .error reason
    | .ok () => proof.checkParentWork params.workHash

end AuxProof

end MergedMining
