import MergedMining.Target
import MergedMining.Version

/-!
# Rejections

Why a header is not accepted.  Rejections are answers about untrusted input, each with its wording.

## Main definitions

* `Rejection` — the reasons.
* `Rejection.message` — their wording.
-/

namespace MergedMining

/-- How a coinbase script can be read as committing to more than one thing. -/
inductive Ambiguity where
  /-- The marker occurs more than once. -/
  | multipleMarkers
  /-- There is a marker, but the root stands elsewhere. -/
  | rootNotAfterMarker
  /-- There is no marker, and the root does not stand near the start. -/
  | rootTooLate
  deriving DecidableEq, Repr

/-- The tree whose root was missed. -/
inductive ProofTree where
  /-- The parent block's transactions. -/
  | parentBlock
  /-- The merge-mined chains. -/
  | chainMerkle
  deriving DecidableEq, Repr

/-- Why a header is not accepted. -/
inductive Rejection where
  /-- The transaction of the proof is not the parent block's coinbase. -/
  | notCoinbase
  /-- The parent block carries the id of the chain it is to work for. -/
  | chainIdCollision (chainId : ChainId)
  /-- The chain branch is too long. -/
  | branchTooLong (height : Nat) (max : UInt32)
  /-- The hash does not stand in the slot of its chain. -/
  | slotMismatch (expected found : UInt32)
  /-- The coinbase script can be read in several ways. -/
  | ambiguousCommitment (kind : Ambiguity)
  /-- A branch leads elsewhere than to the root it has to reach. -/
  | merkleRootMismatch (tree : ProofTree)
  /-- The size committed to is not that of a tree as high as the branch. -/
  | treeSizeMismatch (height : Nat) (found : UInt32)
  /-- The script ends inside the commitment. -/
  | truncatedCommitment
  /-- A header spells no usable target. -/
  | invalidTarget (error : TargetError)
  /-- A hash is above its target. -/
  | targetNotMet (hash : Hash256) (bits : UInt32)
  /-- The header belongs to another chain. -/
  | wrongChainId (expected found : ChainId)
  /-- The version announces a proof but there is none. -/
  | missingProof
  /-- There is a proof that the version does not announce. -/
  | unexpectedProof
  deriving DecidableEq

/-- The wording of an ambiguity. -/
def Ambiguity.message : Ambiguity → String
  | .multipleMarkers => "multiple merged-mining markers"
  | .rootNotAfterMarker => "root doesn't directly follow the merged-mining marker"
  | .rootTooLate => "unmarked root starts after byte 20"

/-- The name of a tree. -/
def ProofTree.message : ProofTree → String
  | .parentBlock => "parent block"
  | .chainMerkle => "chain merkle"

namespace Rejection

/-- The wording of a rejection. -/
def message : Rejection → String
  | .notCoinbase => "auxpow base transaction is not a coinbase"
  | .chainIdCollision chainId => "parent block carries our chain id " ++ toString chainId.toNat
  | .branchTooLong height max =>
      "chain merkle branch height " ++ toString height ++ " exceeds maximum " ++
        toString max.toNat
  | .slotMismatch expected found =>
      "chain index mismatch: expected " ++ toString expected.toNat ++ ", found " ++
        toString found.toNat
  | .ambiguousCommitment kind => "ambiguous coinbase commitment: " ++ kind.message
  | .merkleRootMismatch tree => tree.message ++ " merkle root mismatch"
  | .treeSizeMismatch height found =>
      "committed tree size " ++ toString found.toNat ++ " doesn't match branch height " ++
        toString height
  | .truncatedCommitment => "coinbase commitment is truncated"
  | .invalidTarget error => "invalid target: " ++ error.message
  | .targetNotMet hash bits =>
      "pow hash " ++ hash.display ++ " doesn't meet target " ++ Hex.word bits
  | .wrongChainId expected found =>
      "wrong chain id: expected " ++ toString expected.toNat ++ ", found " ++
        toString found.toNat
  | .missingProof => "auxpow flag set but no auxpow attached"
  | .unexpectedProof => "auxpow attached but flag not set"

/-- The rejection of a header whose work fails. -/
def ofWorkError : WorkError → Rejection
  | .invalidTarget error => .invalidTarget error
  | .targetNotMet hash bits => .targetNotMet hash bits

end Rejection

end MergedMining
