import MergedMining.Proofs.AuxProof.Rules
import MergedMining.Proofs.MergedHeader.Acceptance

/-!
# Legacy headers and the chain id

Headers of version 1 are older than merged mining, and strict parameters do not ask them for the
chain's id.  The same version is also read under the layout, like that of any other header: its
chain id is 0, and it carries the flag if the flag's bit is the lowest one.  Under such a layout a
legacy header counts as merge-mined, so that it is asked for a proof, and with a proof it is still
not asked for the chain's id.

## Main results

* `MergedHeader.checkWork_of_legacy` — a legacy header without a proof is judged by its own work
  exactly if the flag does not stand at the lowest bit.
* `MergedHeader.strict_chain_iff` — a strict chain's accepted header with a proof carries the
  chain's id, and its parent another one, exactly if it is no legacy header or the chain's id is 0.
-/

namespace MergedMining.MergedHeader

variable {h : MergedHeader} {params : Params}

/-! ### What version 1 says under a layout -/

theorem merged_eq_flagged : (h.fields params.layout).merged = h.flagged params := by
  rw [fields, Version.Layout.decode_merged, flagged]

/-- A legacy header carries the flag only at the lowest bit. -/
theorem flagged_of_legacy (hlegacy : h.header.version = 1) :
    h.flagged params = decide (params.layout.flagBit = 0) := by
  rw [flagged, hlegacy, UInt32.toNat_one, Bool.eq_iff_iff,
    Nat.testBit_one_eq_true_iff_self_eq_zero, decide_eq_true_eq]

/-- The chain id stands above the flag, and so above the only bit of version 1. -/
theorem chainId_of_legacy (hlegacy : h.header.version = 1) :
    (h.fields params.layout).chainId = 0 := by
  have hshift : 1 < 2 ^ params.layout.shift :=
    Nat.one_lt_two_pow (Nat.ne_of_gt (Nat.zero_lt_of_lt params.layout.flagBit_lt))
  rw [← UInt32.toNat_inj, fields, Version.Layout.decode_chainId_toNat, hlegacy, UInt32.toNat_one,
    Nat.div_eq_of_lt hshift, UInt32.toNat_zero]

/-! ### Legacy headers without a proof -/

/-- A header whose work fails is rejected for its target or its hash. -/
theorem reason_of_mapError {verdict : Except WorkError Unit} {reason : Rejection}
    (hreason : verdict.mapError Rejection.ofWorkError = .error reason) :
    (∃ error, reason = .invalidTarget error) ∨ ∃ hash bits, reason = .targetNotMet hash bits := by
  cases verdict with
  | ok => cases hreason
  | error error =>
    cases hreason
    cases error with
    | invalidTarget error => exact Or.inl ⟨error, rfl⟩
    | targetNotMet hash bits => exact Or.inr ⟨hash, bits, rfl⟩

/-- The verdict on a legacy header without a proof depends on its work and on the flag's bit. -/
theorem checkWork_eq_of_legacy (hlegacy : h.header.version = 1) (hnone : h.proof = none) :
    h.checkWork params =
      if params.layout.flagBit = 0 then .error .missingProof else h.checkOwnWork params := by
  have htest := mt (h.wrongChain_test_iff params).mp (not_not_intro (Or.inr (Or.inl hlegacy)))
  rw [checkWork, if_neg htest, merged_eq_flagged, flagged_of_legacy hlegacy, hnone]
  by_cases hbit : params.layout.flagBit = 0
  · rw [if_pos hbit, decide_eq_true hbit]
  · rw [if_neg hbit, decide_eq_false hbit]

/-- **A legacy header without a proof is judged by its own work** exactly if the flag does not stand
at the lowest bit: the hash of its eighty bytes has to meet the target of its word.  With the flag
there it is always asked for a proof.  It is never rejected for its chain id. -/
theorem checkWork_of_legacy (hlegacy : h.header.version = 1) (hnone : h.proof = none) :
    (h.checkWork params =
        (Work.check (.ofMessage h.header.write) h.header.bits params.powLimit).mapError
          Rejection.ofWorkError ↔
      params.layout.flagBit ≠ 0) ∧
    (params.layout.flagBit = 0 → h.checkWork params = .error .missingProof) ∧
    ∀ expected found, h.checkWork params ≠ .error (.wrongChainId expected found) := by
  have hverdict : h.checkWork params = _ := checkWork_eq_of_legacy hlegacy hnone
  rw [checkOwnWork, WorkHash.apply_eq_ofMessage] at hverdict
  by_cases hbit : params.layout.flagBit = 0
  · rw [if_pos hbit] at hverdict
    rw [hverdict]
    refine ⟨iff_of_false (fun hown => ?_) (not_not_intro hbit), fun _ => rfl, fun _ _ h => by cases h⟩
    rcases reason_of_mapError hown.symm with ⟨_, hreason⟩ | ⟨_, _, hreason⟩ <;> cases hreason
  · rw [if_neg hbit] at hverdict
    rw [hverdict]
    refine ⟨iff_of_true rfl hbit, fun hzero => absurd hzero hbit, fun expected found hchain => ?_⟩
    rcases reason_of_mapError hchain with ⟨_, hreason⟩ | ⟨_, _, hreason⟩ <;> cases hreason

/-- A header with the easiest target of a chain for trying out. -/
def easyHeader (version : Version) : BlockHeader := ⟨version, .zero, .zero, 0, 0x207fffff, 0⟩

/-- A legacy header without a proof. -/
def legacyHeader : MergedHeader := ⟨easyHeader 1, none⟩

/-- Under the standard layout it is accepted for its own work. -/
theorem legacyHeader_own_work :
    legacyHeader.header.version = 1 ∧ legacyHeader.proof = none ∧
      legacyHeader.checkWork (.regtest 42) =
        (Work.check (.ofMessage legacyHeader.header.write) 0x207fffff 0x207fffff).mapError
          Rejection.ofWorkError :=
  ⟨rfl, rfl, (checkWork_of_legacy rfl rfl).1.mpr (by decide)⟩

/-- The parameters of a chain for trying out whose flag stands at the lowest bit. -/
def lowFlag : Params :=
  { Params.regtest 42 with
    layout := { Version.Layout.standard with flagBit := 0, flagBit_lt := by decide } }

/-- With the flag at the lowest bit it is asked for a proof, although its hash meets its target. -/
theorem legacyHeader_missing_proof :
    lowFlag.validate = .ok () ∧
      Work.check (.ofMessage legacyHeader.header.write) legacyHeader.header.bits lowFlag.powLimit =
        .ok () ∧
      legacyHeader.checkWork lowFlag = .error .missingProof := by
  decide +kernel

/-! ### The chain ids of a header and its parent -/

/-- A header with a proof is accepted only if it carries the flag and the proof holds for its hash
and chain. -/
theorem check_of_checkWork {proof : AuxProof} (hproof : h.proof = some proof)
    (hok : h.checkWork params = .ok ()) :
    (params.strictChainId = false ∨ h.header.version = 1 ∨
        h.chainIdNumber params = params.chainId.toNat) ∧
      h.flagged params = true ∧
      proof.check h.hash (h.fields params.layout).chainId params = .ok () := by
  rw [checkWork] at hok
  by_cases hchain : params.strictChainId = false ∨ h.header.version = 1 ∨
      h.chainIdNumber params = params.chainId.toNat
  case neg =>
    rw [if_pos ((h.wrongChain_test_iff params).mpr hchain)] at hok
    cases hok
  refine ⟨hchain, ?_⟩
  rw [if_neg fun htest => (h.wrongChain_test_iff params).mp htest hchain, merged_eq_flagged,
    hproof] at hok
  cases hflagged : h.flagged params with
  | false => rw [hflagged] at hok; cases hok
  | true =>
    rw [hflagged] at hok
    change h.checkMergedWork proof params = .ok () at hok
    rw [checkMergedWork] at hok
    cases hcheck : proof.check h.hash (h.fields params.layout).chainId params with
    | error reason => rw [hcheck] at hok; cases hok
    | ok => exact ⟨rfl, rfl⟩

/-- Under strict parameters the parent of an accepted header carries another chain's id than the
header, legacy or not. -/
theorem parent_chainId_ne {proof : AuxProof} {hash : Hash256} {chainId : ChainId}
    (hstrict : params.strictChainId = true) (hcheck : proof.check hash chainId params = .ok ()) :
    (params.layout.decode proof.parent.version).chainId ≠ chainId := by
  obtain ⟨-, hcollision, -⟩ := (AuxProof.check_eq_ok_iff ..).mp hcheck
  rcases (AuxProof.collisionRule_holds_iff ..).mp hcollision with hlax | hne
  · rw [hstrict] at hlax; cases hlax
  · exact hne

/-- **Chain ids under strict parameters.**  An accepted header with a proof carries the chain's id,
and its parent another one, exactly if it is no legacy header or the chain's id is 0, which is what
version 1 carries.  Only where the flag stands at the lowest bit is a legacy header with a proof
accepted at all. -/
theorem strict_chain_iff {proof : AuxProof} (hstrict : params.strictChainId = true)
    (hproof : h.proof = some proof) (hok : h.checkWork params = .ok ()) :
    ((h.fields params.layout).chainId = params.chainId ∧
        (params.layout.decode proof.parent.version).chainId ≠ params.chainId ↔
      h.header.version ≠ 1 ∨ params.chainId = 0) ∧
    (h.header.version = 1 → params.layout.flagBit = 0) := by
  obtain ⟨hchain, hflagged, hcheck⟩ := check_of_checkWork hproof hok
  have hparent := parent_chainId_ne hstrict hcheck
  by_cases hlegacy : h.header.version = 1
  · rw [flagged_of_legacy hlegacy, decide_eq_true_eq] at hflagged
    refine ⟨⟨fun hcarries => Or.inr ?_, fun hzero => ?_⟩, fun _ => hflagged⟩
    · rw [← hcarries.1, chainId_of_legacy hlegacy]
    · have hown : (h.fields params.layout).chainId = params.chainId := by
        rw [chainId_of_legacy hlegacy, hzero.resolve_left (not_not_intro hlegacy)]
      exact ⟨hown, hown ▸ hparent⟩
  · have hown : (h.fields params.layout).chainId = params.chainId := by
      rw [← UInt32.toNat_inj, fields, Version.Layout.decode_chainId_toNat]
      exact (hchain.resolve_left (by rw [hstrict]; decide)).resolve_left hlegacy
    exact ⟨iff_of_true ⟨hown, hown ▸ hparent⟩ (Or.inl hlegacy), fun h => absurd h hlegacy⟩

/-- A proof without branches for a header, whose parent has this version. -/
def proofFor (header : BlockHeader) (parentVersion : Version) : AuxProof :=
  let coinbase : Transaction :=
    ⟨1, [⟨.null, Commitment.payload true header.hash.reversed 0 0, 0, []⟩], [], 0⟩
  ⟨coinbase, .zero, {}, {}, ⟨parentVersion, .zero, coinbase.txid, 0, 0x207fffff, 1⟩⟩

/-- A header of this version that owns such a proof. -/
def minedBy (version parentVersion : Version) : MergedHeader :=
  ⟨easyHeader version, some (proofFor (easyHeader version) parentVersion)⟩

/-- A flagged header of chain 42 under a parent of chain 0. -/
theorem minedBy_strict_chain :
    (minedBy 0x2a0100 0).proof = some (proofFor (easyHeader 0x2a0100) 0) ∧
      (minedBy 0x2a0100 0).checkWork (.regtest 42) = .ok () ∧
      ((minedBy 0x2a0100 0).fields .standard).chainId = 42 ∧
      (Version.Layout.standard.decode (proofFor (easyHeader 0x2a0100) 0).parent.version).chainId ≠
        42 := by
  have hproof : (minedBy 0x2a0100 0).proof = some (proofFor (easyHeader 0x2a0100) 0) := rfl
  have hok : (minedBy 0x2a0100 0).checkWork (.regtest 42) = .ok () := by decide +kernel
  exact ⟨hproof, hok, (strict_chain_iff rfl hproof hok).1.mpr (Or.inl (by decide))⟩

/-- With the flag at the lowest bit a header of version 1 is accepted for chain 42, although it
carries chain id 0 and its parent carries 42. -/
theorem minedBy_legacy :
    lowFlag.validate = .ok () ∧ lowFlag.strictChainId = true ∧ lowFlag.chainId = 42 ∧
      (minedBy 1 0x2a0000).proof = some (proofFor (easyHeader 1) 0x2a0000) ∧
      (minedBy 1 0x2a0000).checkWork lowFlag = .ok () ∧
      ((minedBy 1 0x2a0000).fields lowFlag.layout).chainId = 0 ∧
      (lowFlag.layout.decode (proofFor (easyHeader 1) 0x2a0000).parent.version).chainId = 42 :=
  ⟨by decide, rfl, rfl, rfl, by decide +kernel, by decide, by decide⟩

end MergedMining.MergedHeader
