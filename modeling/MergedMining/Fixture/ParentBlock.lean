import MergedMining.AuxProof
import MergedMining.Merkle.Tree
import MergedMining.Mining
import MergedMining.Script

/-!
# Parent blocks for trying out

A parent block that is put together step by step, and the proofs that can be drawn from it.  The
usual way is to place a block hash in a chain branch, to commit to the root that comes out in the
coinbase script, and to draw the proof.

## Main definitions

* `Fixture.ParentBlock` — a parent block in the making.
* `Fixture.ParentBlock.placeChain`, `Fixture.ParentBlock.setCoinbase`, … — the steps.
* `Fixture.ParentBlock.proof` — the proof around the mined block.
-/

namespace MergedMining.Fixture

/-- Why a step cannot be done. -/
inductive Error where
  /-- The version of the parent does not fit the layout. -/
  | versionUnfit (error : VersionError)
  /-- The chain id of the parent does not fit the layout. -/
  | chainIdUnfit (error : VersionError)
  /-- There is no transaction to prove. -/
  | noTransaction
  /-- There is no coinbase. -/
  | noCoinbase
  /-- No nonce serves. -/
  | noNonce
  deriving DecidableEq, Repr

/-- A version error as a record of its fields. -/
def recordOf : VersionError → String
  | .invalidLayout flagBit shift =>
      "InvalidLayout \x7b flag_bit: " ++ toString flagBit.toNat ++ ", chain_id_shift: " ++
        toString shift.toNat ++ " \x7d"
  | .baseVersionOutOfRange base mask =>
      "BaseVersionOutOfRange \x7b base_version: " ++ toString base.toNat ++ ", mask: " ++
        toString mask.toNat ++ " \x7d"
  | .chainIdOutOfRange chainId max =>
      "ChainIdOutOfRange \x7b chain_id: " ++ toString chainId.toNat ++ ", max: " ++
        toString max.toNat ++ " \x7d"

/-- The wording of an error. -/
def Error.message : Error → String
  | .versionUnfit error => "test: parent version fits layout: " ++ recordOf error
  | .chainIdUnfit error => "test: parent chain id fits layout: " ++ recordOf error
  | .noTransaction => "the leaf index should be within the leaves length"
  | .noCoinbase => "test: coinbase set before building auxpow"
  | .noNonce => "attempt to add with overflow"

/-- A parent block in the making. -/
structure ParentBlock where
  /-- The header.  Its Merkle root follows the transactions. -/
  header : BlockHeader
  /-- The transactions, coinbase first. -/
  transactions : List Transaction := []
  /-- The branch in which the merge-mined block is placed. -/
  chainBranch : Merkle.Branch := {}
  /-- What work is measured by. -/
  workHash : WorkHash := .sha256d
  /-- Where the fields of the parent's version stand. -/
  layout : Version.Layout := .standard

namespace ParentBlock

/-- A block without transactions, with a fresh version and an easy target. -/
def start (base : UInt32) (chainId : ChainId) (layout : Version.Layout) :
    Except Error ParentBlock :=
  match layout.fresh base chainId with
  | .error error => .error (.versionUnfit error)
  | .ok version => .ok { header := ⟨version, .zero, .zero, 0, 0x207fffff, 0⟩, layout }

/-- Replaces the chain id in the version. -/
def setChainId (b : ParentBlock) (chainId : ChainId) : Except Error ParentBlock :=
  match b.layout.withChainId b.header.version chainId with
  | .error error => .error (.chainIdUnfit error)
  | .ok version => .ok { b with header := { b.header with version } }

/-- The branch that proves the first transaction, and the root of the transaction tree. -/
def openFirst (b : ParentBlock) : Except Error (Merkle.Branch × Hash256) :=
  match Merkle.open? (b.transactions.map Transaction.txid) 0 with
  | some opened => .ok opened
  | none => .error .noTransaction

/-- Brings the Merkle root in line with the transactions. -/
def updateMerkleRoot (b : ParentBlock) : Except Error ParentBlock :=
  match b.openFirst with
  | .error error => .error error
  | .ok (_, merkleRoot) => .ok { b with header := { b.header with merkleRoot } }

/-- Leaves out all transactions; the Merkle root stays. -/
def clear (b : ParentBlock) : ParentBlock := { b with transactions := [] }

/-- Replaces the transactions without touching the Merkle root. -/
def withTransactions (b : ParentBlock) (transactions : List Transaction) : ParentBlock :=
  { b with transactions }

/-- A coinbase without outputs that carries `script`. -/
def coinbaseOf (script : Bytes) : Transaction :=
  ⟨1, [⟨.null, script, 0xffffffff, []⟩], [], 0⟩

/-- Makes a coinbase with `script` the only transaction. -/
def setCoinbase (b : ParentBlock) (script : Bytes) : Except Error ParentBlock :=
  (b.withTransactions [coinbaseOf script]).updateMerkleRoot

/-- Adds a transaction at the end. -/
def push (b : ParentBlock) (tx : Transaction) : Except Error ParentBlock :=
  (b.withTransactions (b.transactions ++ [tx])).updateMerkleRoot

/-- A hash that stands in for another chain: a number in the first four bytes. -/
def placeholder (i : Nat) : Hash256 := .ofNat (i % UInt32.size)

/-- Places a block hash at `index` in a chain branch of `height` placeholders.  Gives the root in
the order in which a script spells it. -/
def placeChain (b : ParentBlock) (hash : Hash256) (height : Nat) (index : UInt32) :
    ParentBlock × Hash256 :=
  let chainBranch : Merkle.Branch := ⟨(List.range height).map placeholder, index⟩
  ({ b with chainBranch }, (chainBranch.rootOf hash).reversed)

/-- Places a block hash in the slot of its chain, and sets a coinbase that pushes the commitment.
Gives the bytes of the commitment. -/
def commit (b : ParentBlock) (hash : Hash256) (chainId : ChainId) (height : Nat) (nonce : UInt32)
    (marked : Bool) : Except Error (ParentBlock × Bytes) :=
  let (placed, root) := b.placeChain hash height (slot nonce chainId height)
  let data := Commitment.payload marked root height nonce
  match placed.setCoinbase (Script.pushes [data]) with
  | .error error => .error error
  | .ok done => .ok (done, data)

/-- The proof around the block, mined to meet or to miss `bits`, with `tx` in place of the
coinbase. -/
def proofWith (b : ParentBlock) (tx : Transaction) (meet : Bool) (bits : UInt32) :
    Except Error AuxProof :=
  match b.openFirst with
  | .error error => .error error
  | .ok (coinbaseBranch, _) =>
      match b.header.mine meet bits b.workHash with
      | none => .error .noNonce
      | some parent => .ok ⟨tx, parent.hash, coinbaseBranch, b.chainBranch, parent⟩

/-- The proof around the block, mined to meet or to miss `bits`. -/
def proofMined (b : ParentBlock) (meet : Bool) (bits : UInt32) : Except Error AuxProof :=
  match b.transactions with
  | [] => .error .noCoinbase
  | coinbase :: _ => b.proofWith coinbase meet bits

/-- The proof around the block, mined to meet its own target. -/
def proof (b : ParentBlock) : Except Error AuxProof := b.proofMined true b.header.bits

end ParentBlock

end MergedMining.Fixture
