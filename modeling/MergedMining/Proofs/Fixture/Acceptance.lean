import MergedMining.Fixture.ParentBlock
import MergedMining.Proofs.AuxProof.Rules
import MergedMining.Proofs.Commitment.Pushed
import MergedMining.Proofs.Merkle.Opening
import MergedMining.Proofs.Mining
import MergedMining.Proofs.Version.Packing

/-!
# Proofs that were built hold

A parent block is built around the hash of a merge-mined block: the hash is placed in the slot of its
chain, the coinbase pushes the commitment, further transactions follow, and the header is mined.
Building and checking are separate, and meet in the bytes.  A proof drawn from such a block is
accepted, whatever the other transactions are, unless the root or the nonce has one of the rare
values that the search in the script confuses with something else.

## Main definitions

* `Fixture.ParentBlock.mergeMined` — all steps from a fresh block to the proof.
* `Fixture.ParentBlock.Ready` — what holds of the block from the commitment on.

## Main results

* `Fixture.ParentBlock.Ready.push`, `Fixture.ParentBlock.Ready.foldlM_push` — further transactions
  keep a block ready.
* `Fixture.ParentBlock.mergeMined_accepted_iff` — which of the proofs that were built are accepted.
-/

namespace MergedMining.Fixture.ParentBlock

/-! ### Building -/

/-- The branch that places a block in the slot of its chain, among placeholders. -/
def slotBranch (chainId : ChainId) (height : Nat) (nonce : UInt32) : Merkle.Branch :=
  ⟨(List.range height).map placeholder, slot nonce chainId height⟩

/-- The root to which that branch leads a block hash, as a script spells it: last byte first. -/
def slotRoot (hash : Hash256) (chainId : ChainId) (height : Nat) (nonce : UInt32) : Hash256 where
  bytes := ((slotBranch chainId height nonce).rootOf hash).bytes.reverse
  length_bytes :=
    List.length_reverse.trans ((slotBranch chainId height nonce).rootOf hash).length_bytes

/-- Builds a parent block with version and chain id, commits to `hash` in it, adds the transactions
of others, and draws the proof. -/
def mergeMined (layout : Version.Layout) (base : UInt32) (parentChainId : ChainId) (hash : Hash256)
    (chainId : ChainId) (height : Nat) (nonce : UInt32) (marked : Bool)
    (others : List Transaction) : Except Error AuxProof := do
  let block ← start base parentChainId layout
  let (block, _) ← block.commit hash chainId height nonce marked
  let block ← others.foldlM push block
  block.proof

/-! ### What every step keeps -/

/-- A block that carries the commitment: its version and its easy target are those of the start, the
merge-mined block stays where it was placed, the coinbase has the script, and the Merkle root follows
the transactions. -/
structure Ready (block : ParentBlock) (version : Version) (branch : Merkle.Branch)
    (script : Bytes) : Prop where
  version_eq : block.header.version = version
  bits_eq : block.header.bits = 0x207fffff
  chainBranch_eq : block.chainBranch = branch
  head_eq : block.transactions.head? = some (coinbaseOf script)
  opened : ∃ opening, block.openFirst = .ok (opening, block.header.merkleRoot)

variable {block : ParentBlock} {version : Version} {branch : Merkle.Branch} {script : Bytes}
  {coinbase : Transaction}

theorem exists_openFirst (h : block.transactions.head? = some coinbase) :
    ∃ opening root, block.openFirst = .ok (opening, root) ∧ opening.index = 0 ∧
      opening.rootOf coinbase.txid = root := by
  have hleaf : (block.transactions.map Transaction.txid)[(0 : UInt32).toNat]? =
      some coinbase.txid := by
    rw [UInt32.toNat_zero, ← List.head?_eq_getElem?, List.head?_map, h]
    rfl
  obtain ⟨opening, root, hopen, hindex, hroot⟩ := Merkle.exists_open? hleaf
  refine ⟨opening, root, ?_, hindex, hroot⟩
  unfold openFirst
  rw [hopen]

/-- Bringing the Merkle root in line makes a block ready that is ready but for its root. -/
theorem ready_of_updateMerkleRoot (block : ParentBlock) (hversion : block.header.version = version)
    (hbits : block.header.bits = 0x207fffff) (hbranch : block.chainBranch = branch)
    (hhead : block.transactions.head? = some (coinbaseOf script)) :
    ∃ block', block.updateMerkleRoot = .ok block' ∧ block'.Ready version branch script := by
  obtain ⟨opening, root, hopen, -, -⟩ := exists_openFirst hhead
  refine ⟨{ block with header := { block.header with merkleRoot := root } }, ?_, ?_⟩
  · unfold updateMerkleRoot
    rw [hopen]
  · exact ⟨hversion, hbits, hbranch, hhead, opening, hopen⟩

theorem ready_of_commit (block : ParentBlock) (hversion : block.header.version = version)
    (hbits : block.header.bits = 0x207fffff) (hash : Hash256) (chainId : ChainId) (height : Nat)
    (nonce : UInt32) (marked : Bool) :
    ∃ block' data, block.commit hash chainId height nonce marked = .ok (block', data) ∧
      block'.Ready version (slotBranch chainId height nonce)
        (Script.pushes [Commitment.payload marked (slotRoot hash chainId height nonce) height
          nonce]) := by
  let placed := (block.placeChain hash height (slot nonce chainId height)).1
  let data := Commitment.payload marked (slotRoot hash chainId height nonce) height nonce
  obtain ⟨block', hset, hready⟩ := ready_of_updateMerkleRoot
    (placed.withTransactions [coinbaseOf (Script.pushes [data])]) hversion hbits rfl rfl
  refine ⟨block', data, ?_, hready⟩
  have hcommit : placed.setCoinbase (Script.pushes [data]) = .ok block' := hset
  have hplaced : block.placeChain hash height (slot nonce chainId height) =
      (placed, slotRoot hash chainId height nonce) := rfl
  simp only [commit, hplaced]
  rw [hcommit]

/-- **One more transaction keeps a block ready.** -/
theorem Ready.push (h : block.Ready version branch script) (tx : Transaction) :
    ∃ block', block.push tx = .ok block' ∧ block'.Ready version branch script := by
  have hhead : (block.transactions ++ [tx]).head? = some (coinbaseOf script) := by
    rw [List.head?_append, h.head_eq, Option.some_or]
  exact ready_of_updateMerkleRoot (block.withTransactions (block.transactions ++ [tx]))
    h.version_eq h.bits_eq h.chainBranch_eq hhead

/-- **Any number of further transactions keep a block ready**, by induction on them. -/
theorem Ready.foldlM_push (others : List Transaction) :
    ∀ {block : ParentBlock}, block.Ready version branch script →
      ∃ block', others.foldlM ParentBlock.push block = .ok block' ∧
        block'.Ready version branch script := by
  induction others with
  | nil =>
    intro block h
    exact ⟨block, rfl, h⟩
  | cons tx others ih =>
    intro block h
    obtain ⟨pushed, hpush, hpushed⟩ := h.push tx
    obtain ⟨block', hfold, hready⟩ := ih hpushed
    refine ⟨block', ?_, hready⟩
    rw [List.foldlM_cons, hpush]
    exact hfold

/-! ### The proof of a ready block -/

/-- A proof as it is drawn from a ready block: it keeps what the block had, its coinbase stands
leftmost under the parent's Merkle root, and the parent was mined to meet the easy target. -/
structure Drawn (proof : AuxProof) (version : Version) (branch : Merkle.Branch)
    (script : Bytes) : Prop where
  coinbase_eq : proof.coinbase = coinbaseOf script
  chainBranch_eq : proof.chainBranch = branch
  index_eq : proof.coinbaseBranch.index = 0
  root_eq : proof.coinbaseBranch.rootOf proof.coinbase.txid = proof.parent.merkleRoot
  version_eq : proof.parent.version = version
  bits_eq : proof.parent.bits = 0x207fffff
  work : Bytes.toNatLE (Hash256.ofMessage proof.parent.write).bytes ≤ Target.value 0x207fffff

theorem usable_easyTarget : Target.Usable 0x207fffff := ⟨by decide, by decide, by decide⟩

/-- **Drawing the proof fails only if no nonce serves.** -/
theorem Ready.proof (h : block.Ready version branch script) :
    block.proof = .error .noNonce ∨
      ∃ proof, block.proof = .ok proof ∧ Drawn proof version branch script := by
  obtain ⟨opening, hopen⟩ := h.opened
  obtain ⟨opening', root, hopen', hindex, hroot⟩ := exists_openFirst h.head_eq
  -- the branch that leads to the header's root is the one of the coinbase
  rw [hopen, Except.ok.injEq, Prod.mk.injEq] at hopen'
  obtain ⟨rfl, rfl⟩ := hopen'
  obtain ⟨others, htransactions⟩ := List.head?_eq_some_iff.mp h.head_eq
  unfold ParentBlock.proof proofMined proofWith
  cases hmine : block.header.mine true block.header.bits block.workHash with
  | none =>
    refine Or.inl ?_
    simp only [htransactions, hopen]
  | some parent =>
    obtain ⟨nonce, rfl, hmeets⟩ := BlockHeader.exists_nonce_of_mine hmine
    rw [h.bits_eq] at hmeets
    -- mining changes the nonce only, so that the root and the version stay
    let parent := block.header.withNonce nonce
    have hdrawn : Drawn ⟨coinbaseOf script, parent.hash, opening, block.chainBranch, parent⟩
        version branch script := by
      refine ⟨rfl, h.chainBranch_eq, hindex, hroot, h.version_eq, h.bits_eq, ?_⟩
      exact BlockHeader.toNatLE_le_of_meetsBits usable_easyTarget.1 usable_easyTarget.2.2 hmeets
    refine Or.inr ⟨_, ?_, hdrawn⟩
    simp only [htransactions, hopen]
    rfl

/-! ### Building and checking -/

variable {layout : Version.Layout} {base : UInt32} {parentChainId chainId : ChainId}
  {params : Params} {hash : Hash256} {height : Nat} {nonce : UInt32} {marked : Bool}

/-- Building gives a proof, unless no nonce serves. -/
theorem mergeMined_eq (hversion : layout.fresh base parentChainId = .ok version) (hash : Hash256)
    (chainId : ChainId) (height : Nat) (nonce : UInt32) (marked : Bool)
    (others : List Transaction) :
    mergeMined layout base parentChainId hash chainId height nonce marked others =
        .error .noNonce ∨
      ∃ proof, mergeMined layout base parentChainId hash chainId height nonce marked others =
          .ok proof ∧
        Drawn proof version (slotBranch chainId height nonce)
          (Script.pushes [Commitment.payload marked (slotRoot hash chainId height nonce) height
            nonce]) := by
  let fresh : ParentBlock := { header := ⟨version, .zero, .zero, 0, 0x207fffff, 0⟩, layout }
  have hstart : start base parentChainId layout = .ok fresh := by
    unfold start
    rw [hversion]
  obtain ⟨committed, data, hcommit, hcommitted⟩ :=
    ready_of_commit fresh rfl rfl hash chainId height nonce marked
  obtain ⟨block, hfold, hready⟩ := hcommitted.foldlM_push others
  have hbuilt : mergeMined layout base parentChainId hash chainId height nonce marked others =
      block.proof := by
    unfold mergeMined
    simp only [hstart, hcommit, hfold, bind, Except.bind]
  rw [hbuilt]
  exact hready.proof

/-- The trees of validated parameters have at most 30 levels. -/
theorem height_lt_of_validate (hparams : params.validate = .ok ())
    (hheight : height ≤ params.maxTreeHeight.toNat) : height < 32 := by
  unfold Params.validate at hparams
  by_cases hlt : Params.supportedTreeHeight < params.maxTreeHeight
  · rw [if_pos hlt] at hparams
    cases hparams
  · have hle := UInt32.le_iff_toNat_le.mp (UInt32.not_lt.mp hlt)
    have hsupported : Params.supportedTreeHeight.toNat = 30 := rfl
    omega

namespace Drawn

variable {proof : AuxProof}

theorem coinbaseRule_holds (h : Drawn proof version branch script) : proof.coinbaseRule.holds := by
  refine ⟨⟨⟨.null, script, 0xffffffff, []⟩, ?_, rfl⟩, h.index_eq⟩
  rw [h.coinbase_eq]
  rfl

theorem parentRootRule_holds (h : Drawn proof version branch script) :
    proof.parentRootRule.holds := by
  have hroot := mt (proof.parentRoot_test_iff h.index_eq).mpr (not_not_intro h.root_eq)
  exact Classical.not_not.mp hroot

theorem script_eq (h : Drawn proof version branch script) : proof.script = script := by
  unfold AuxProof.script
  rw [h.coinbase_eq]
  rfl

theorem height_eq (h : Drawn proof version (slotBranch chainId height nonce) script) :
    proof.chainBranch.hashes.length = height := by
  rw [h.chainBranch_eq, slotBranch, List.length_map, List.length_range]

theorem spelledRoot_eq (h : Drawn proof version (slotBranch chainId height nonce) script)
    (hash : Hash256) : proof.spelledRoot hash = slotRoot hash chainId height nonce := by
  rw [← AuxProof.committedRoot_eq_spelledRoot, AuxProof.committedRoot, h.chainBranch_eq]
  rfl

theorem commits_iff (h : Drawn proof version (slotBranch chainId height nonce) script)
    (c : Commitment) :
    proof.Commits hash c ↔
      Commitment.Written script (slotRoot hash chainId height nonce) height c := by
  unfold AuxProof.Commits
  rw [h.script_eq, h.spelledRoot_eq, h.height_eq]

/-- The slot of the chain is taken under the nonce that the script commits to. -/
theorem slotRule_holds (h : Drawn proof version (slotBranch chainId height nonce) script)
    {c : Commitment} (hc : proof.Commits hash c) (hnonce : c.nonce = nonce) :
    (proof.slotRule hash chainId).holds := by
  have hslot := proof.slot_toNat_of_commits hash chainId hc
  have hindex : proof.chainBranch.index = slot nonce chainId height := by
    rw [h.chainBranch_eq, slotBranch]
  refine ⟨c, hc, ?_⟩
  rw [← hslot, hnonce, Merkle.Branch.height, h.height_eq, hindex]

/-- **A proof that was drawn is accepted** exactly if its script commits to what was pushed. -/
theorem check_eq_ok_iff (h : Drawn proof version (slotBranch chainId height nonce)
      (Script.pushes [Commitment.payload marked (slotRoot hash chainId height nonce) height nonce]))
    (hchain : (params.layout.decode version).chainId ≠ chainId)
    (hheight : height ≤ params.maxTreeHeight.toNat) (hlt : height < 32) :
    proof.check hash chainId params = .ok () ↔
      ¬ Commitment.Confused marked (slotRoot hash chainId height nonce) nonce := by
  rw [AuxProof.check_eq_ok_iff]
  constructor
  · rintro ⟨-, -, -, -, ⟨c, hc⟩, -⟩
    exact Commitment.not_confused_of_written hlt ((h.commits_iff c).mp hc)
  · intro hclear
    -- what was pushed is found again, and the slot was computed with its nonce
    have hc := (h.commits_iff _).mpr (Commitment.written_pushed hlt hclear)
    have hcollision : (proof.collisionRule chainId params).holds := by
      rw [AuxProof.collisionRule_holds_iff, h.version_eq]
      exact Or.inr hchain
    have hlength : (proof.heightRule params).holds := by
      unfold AuxProof.heightRule
      rw [h.height_eq]
      exact hheight
    have htarget : proof.targetRule.holds := by
      unfold AuxProof.targetRule
      rw [h.bits_eq]
      exact usable_easyTarget
    have hwork : proof.workRule.holds := by
      unfold AuxProof.workRule
      rw [h.bits_eq]
      exact h.work
    exact ⟨h.coinbaseRule_holds, hcollision, hlength, h.parentRootRule_holds, ⟨_, hc⟩,
      h.slotRule_holds hc rfl, htarget, hwork⟩

end Drawn

/-- **Which proofs that were built are accepted.**  Let a parent block be built for a block hash under
a layout that base version and parent chain id fit, with another chain id than that of the parent,
and let the parameters be valid, of the same layout, and allow for the height.  Then building fails
only if no nonce of the parent serves, and the proof is accepted exactly if neither the root nor the
nonce is confused with another part of the script. -/
theorem mergeMined_accepted_iff (hversion : layout.fresh base parentChainId = .ok version)
    (hchain : parentChainId ≠ chainId) (hparams : params.validate = .ok ())
    (hlayout : params.layout = layout) (hheight : height ≤ params.maxTreeHeight.toNat)
    (hash : Hash256) (nonce : UInt32) (marked : Bool) (others : List Transaction) :
    (∀ error,
      mergeMined layout base parentChainId hash chainId height nonce marked others =
        .error error → error = .noNonce) ∧
    ∀ proof,
      mergeMined layout base parentChainId hash chainId height nonce marked others = .ok proof →
      (proof.check hash chainId params = .ok () ↔
        ¬ Commitment.Confused marked (slotRoot hash chainId height nonce) nonce) := by
  have hcarried : (params.layout.decode version).chainId ≠ chainId := by
    rw [hlayout, Version.Layout.decode_chainId_of_fresh hversion]
    exact hchain
  have hlt := height_lt_of_validate hparams hheight
  rcases mergeMined_eq hversion hash chainId height nonce marked others with
    hnone | ⟨drawn, hbuilt, hdrawn⟩
  · constructor
    · intro error herror
      rw [hnone, Except.error.injEq] at herror
      exact herror.symm
    · intro proof hproof
      rw [hnone] at hproof
      cases hproof
  · constructor
    · intro error herror
      rw [hbuilt] at herror
      cases herror
    · intro proof hproof
      rw [hbuilt, Except.ok.injEq] at hproof
      subst hproof
      exact hdrawn.check_eq_ok_iff hcarried hheight hlt

/-- A proof for the zero hash on chain 42 in a tree of two leaves under nonce 8, with a second
transaction in the parent block, is built and accepted. -/
theorem mergeMined_accepted_regtest :
    ∃ proof, mergeMined .standard 5 0 .zero 42 1 8 true [coinbaseOf []] = .ok proof ∧
      proof.check .zero 42 (.regtest 42) = .ok () := by
  have hversion : Version.Layout.standard.fresh 5 0 = .ok 5 := by decide
  have hclear : ¬ Commitment.Confused true (slotRoot .zero 42 1 8) 8 := by
    obtain ⟨hnone, hend, htail⟩ :
        Commitment.firstIndex? Commitment.marker (slotRoot .zero 42 1 8).bytes = none ∧
          (slotRoot .zero 42 1 8).bytes ≠ Bytes.cycle [0x6d] 32 ∧
          (slotRoot .zero 42 1 8).bytes ≠ Bytes.cycle [0xbe, 0x6d, 0x6d] 32 := by decide +kernel
    intro hconfused
    cases hconfused with
    | markedRoot hi => exact Commitment.firstIndex?_eq_none_iff.mp hnone _ hi
    | markedNonce heq => cases heq
    | opcode hmarked _ => cases hmarked
    | markerEnd _ heq => exact hend heq
    | markerTail _ heq => exact htail heq
  obtain ⟨-, haccepted⟩ := mergeMined_accepted_iff hversion (by decide : (0 : ChainId) ≠ 42)
    (by decide : (Params.regtest 42).validate = .ok ()) rfl (by decide : 1 ≤ 30) .zero 8 true
    [coinbaseOf []]
  have hbuilt : (mergeMined .standard 5 0 .zero 42 1 8 true [coinbaseOf []]).isOk = true := by
    decide +kernel
  cases hmerged : mergeMined .standard 5 0 .zero 42 1 8 true [coinbaseOf []] with
  | error error =>
    rw [hmerged] at hbuilt
    cases hbuilt
  | ok proof => exact ⟨proof, rfl, (haccepted proof hmerged).mpr hclear⟩

/-- A nonce that spells the marker makes a proof that is built and rejected: the script has two
markers then. -/
theorem mergeMined_markedNonce_rejected :
    (∃ proof, mergeMined .standard 5 0 .zero 42 0 0x6d6dbefa true [] = .ok proof ∧
      proof.check .zero 42 (.regtest 42) = .error (.ambiguousCommitment .multipleMarkers)) ∧
    (Params.regtest 42).validate = .ok () := by
  have hresult : (mergeMined .standard 5 0 .zero 42 0 0x6d6dbefa true []).toOption.map
      (AuxProof.check · .zero 42 (.regtest 42)) =
        some (.error (.ambiguousCommitment .multipleMarkers)) := by decide +kernel
  obtain ⟨proof, hproof, hcheck⟩ := Option.map_eq_some_iff.mp hresult
  cases hmerged : mergeMined .standard 5 0 .zero 42 0 0x6d6dbefa true [] with
  | error error =>
    rw [hmerged] at hproof
    cases hproof
  | ok built =>
    rw [hmerged] at hproof
    cases hproof
    exact ⟨⟨proof, rfl, hcheck⟩, by decide⟩

end MergedMining.Fixture.ParentBlock
