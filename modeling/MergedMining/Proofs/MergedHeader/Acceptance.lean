import MergedMining.MergedHeader
import MergedMining.Proofs.Version.Fields
import MergedMining.Proofs.Work

/-!
# The headers that are accepted

A header is accepted for its own work or for that of a parent block.  What the verdict asks for is
spread over the version, the proof and two compact words; here it is one condition on the numbers
they stand for.

## Main definitions

* `MergedHeader.Accepted` — the condition.

## Main results

* `MergedHeader.checkWork_eq_ok_iff` — it is what the verdict asks for.
-/

namespace MergedMining

/-- The double SHA-256 of a header's eighty bytes, as a little-endian number, is at most the number
that a compact word denotes. -/
def BlockHeader.WorksFor (header : BlockHeader) (bits : UInt32) : Prop :=
  Bytes.toNatLE (Hash256.ofMessage header.write).bytes ≤ Target.value bits

namespace MergedHeader

/-- The chain id of a header: the part of its version above the shift. -/
def chainIdNumber (h : MergedHeader) (params : Params) : Nat :=
  h.header.version.toNat / 2 ^ params.layout.shift

/-- The flag of a header: one bit of its version. -/
def flagged (h : MergedHeader) (params : Params) : Bool :=
  h.header.version.toNat.testBit params.layout.flagBit

/-- The work behind a header: without the flag there is no proof and the header works itself; with
the flag there is a proof that holds for the header's hash and chain, and its parent works for the
header's target. -/
inductive Worked (h : MergedHeader) (params : Params) : Prop where
  /-- The header works itself. -/
  | own : h.flagged params = false → h.proof = none → h.header.WorksFor h.header.bits →
      Worked h params
  /-- A parent block works for the header. -/
  | merged {proof : AuxProof} : h.flagged params = true → h.proof = some proof →
      proof.check (.ofMessage h.header.write) (UInt32.ofNat (h.chainIdNumber params)) params =
        .ok () →
      proof.parent.WorksFor h.header.bits → Worked h params

/-- What a header has to fulfil. -/
structure Accepted (h : MergedHeader) (params : Params) : Prop where
  /-- Under strict parameters the header carries the chain's id, unless it is older than merged
  mining. -/
  chain : params.strictChainId = false ∨ h.header.version = 1 ∨
    h.chainIdNumber params = params.chainId.toNat
  /-- The word spells a target. -/
  usable : Target.Usable h.header.bits
  /-- The target is not easier than the limit. -/
  limited : Target.value h.header.bits ≤ Target.value params.powLimit
  /-- There is work behind the header. -/
  worked : h.Worked params

variable (h : MergedHeader) (params : Params)

/-! ### Flag and proof agree -/

variable {h params} in
theorem worked_iff_of_unflagged (hflag : h.flagged params = false) :
    h.Worked params ↔ h.proof = none ∧ h.header.WorksFor h.header.bits := by
  constructor
  · rintro (⟨-, hnone, hwork⟩ | ⟨htrue, -, -, -⟩)
    · exact ⟨hnone, hwork⟩
    · rw [hflag] at htrue; cases htrue
  · rintro ⟨hnone, hwork⟩
    exact .own hflag hnone hwork

variable {h params} in
theorem worked_iff_of_flagged (hflag : h.flagged params = true) :
    h.Worked params ↔ ∃ proof, h.proof = some proof ∧
      proof.check (.ofMessage h.header.write) (UInt32.ofNat (h.chainIdNumber params)) params =
        .ok () ∧ proof.parent.WorksFor h.header.bits := by
  constructor
  · rintro (⟨hfalse, -, -⟩ | ⟨-, hsome, hcheck, hwork⟩)
    · rw [hflag] at hfalse; cases hfalse
    · exact ⟨_, hsome, hcheck, hwork⟩
  · rintro ⟨proof, hsome, hcheck, hwork⟩
    exact .merged hflag hsome hcheck hwork

/-! ### The parts of the verdict -/

/-- The chain's id is asked for under strict parameters only, and not of legacy headers. -/
theorem wrongChain_test_iff :
    (params.strictChainId && !Version.isLegacy h.header.version &&
        (h.fields params.layout).chainId != params.chainId) = true ↔
      ¬ (params.strictChainId = false ∨ h.header.version = 1 ∨
        h.chainIdNumber params = params.chainId.toNat) := by
  have hchain : (h.fields params.layout).chainId = params.chainId ↔
      h.chainIdNumber params = params.chainId.toNat := by
    rw [← UInt32.toNat_inj, fields, Version.Layout.decode_chainId_toNat, chainIdNumber]
  rw [not_or, not_or, Bool.and_eq_true, Bool.and_eq_true, and_assoc, Bool.not_eq_false,
    Bool.not_eq_true', Version.isLegacy, beq_eq_false_iff_ne, bne_iff_ne, Ne, Ne, hchain]

theorem mapError_ofWorkError_eq_ok_iff (verdict : Except WorkError Unit) :
    verdict.mapError Rejection.ofWorkError = .ok () ↔ verdict = .ok () := by
  cases verdict with
  | error error => exact iff_of_false (fun h => by cases h) fun h => by cases h
  | ok => exact iff_of_true rfl rfl

variable {params}

theorem checkOwnWork_eq_ok_iff (hlimit : Target.Usable params.powLimit) :
    h.checkOwnWork params = .ok () ↔
      Target.Usable h.header.bits ∧ Target.value h.header.bits ≤ Target.value params.powLimit ∧
        h.header.WorksFor h.header.bits := by
  rw [checkOwnWork, mapError_ofWorkError_eq_ok_iff, WorkHash.apply_eq_ofMessage,
    Work.check_eq_ok_iff hlimit]
  rfl

/-- A proof is checked for the header's hash and chain before its parent's hash is judged. -/
theorem checkMergedWork_eq_ok_iff (proof : AuxProof) (hlimit : Target.Usable params.powLimit) :
    h.checkMergedWork proof params = .ok () ↔
      proof.check (.ofMessage h.header.write) (UInt32.ofNat (h.chainIdNumber params)) params =
          .ok () ∧
        Target.Usable h.header.bits ∧ Target.value h.header.bits ≤ Target.value params.powLimit ∧
        proof.parent.WorksFor h.header.bits := by
  have hchain : (h.fields params.layout).chainId = UInt32.ofNat (h.chainIdNumber params) := by
    rw [chainIdNumber, ← Version.Layout.decode_chainId_toNat, UInt32.ofNat_toNat, fields]
  rw [checkMergedWork, hchain, hash, BlockHeader.hash]
  cases proof.check (.ofMessage h.header.write) (UInt32.ofNat (h.chainIdNumber params)) params with
  | error reason => exact iff_of_false (fun h => by cases h) fun h => by cases h.1
  | ok =>
    change Except.mapError _ _ = _ ↔ _
    rw [mapError_ofWorkError_eq_ok_iff, WorkHash.apply_eq_ofMessage, Work.check_eq_ok_iff hlimit]
    exact (and_iff_right rfl).symm

/-! ### The verdict -/

/-- **The headers that are accepted** are those that carry the chain's id where it is asked for,
spell a target that is not easier than the limit, and have work behind them: their own without a
proof, or that of a parent block under a proof that holds.  All that is asked of the parameters is
that the limit is a usable target. -/
theorem checkWork_eq_ok_iff (hlimit : ∃ limit, Target.decode params.powLimit = .ok limit) :
    h.checkWork params = .ok () ↔ h.Accepted params := by
  obtain ⟨limit, hlimit⟩ := hlimit
  have hlimit := (Target.decode_eq_ok_iff.mp hlimit).1
  have hflag : (h.fields params.layout).merged = h.flagged params := by
    rw [fields, Version.Layout.decode_merged, flagged]
  rw [checkWork]
  by_cases hchain : params.strictChainId = false ∨ h.header.version = 1 ∨
      h.chainIdNumber params = params.chainId.toNat
  case neg =>
    rw [if_pos ((h.wrongChain_test_iff params).mpr hchain)]
    exact iff_of_false (fun h => by cases h) fun haccepted => hchain haccepted.chain
  rw [if_neg fun htest => (h.wrongChain_test_iff params).mp htest hchain, hflag]
  -- flag and proof have to agree before any work is looked at
  cases hflagged : h.flagged params with
  | false =>
    have hworked := worked_iff_of_unflagged hflagged
    cases hproof : h.proof with
    | some proof =>
      refine iff_of_false (fun h => by cases h) fun haccepted => ?_
      rw [hproof] at hworked
      cases (hworked.mp haccepted.worked).1
    | none =>
      refine (h.checkOwnWork_eq_ok_iff hlimit).trans ⟨?_, fun haccepted => ?_⟩
      · rintro ⟨husable, hle, hwork⟩
        exact ⟨hchain, husable, hle, hworked.mpr ⟨hproof, hwork⟩⟩
      · exact ⟨haccepted.usable, haccepted.limited, (hworked.mp haccepted.worked).2⟩
  | true =>
    have hworked := worked_iff_of_flagged hflagged
    cases hproof : h.proof with
    | none =>
      refine iff_of_false (fun h => by cases h) fun haccepted => ?_
      obtain ⟨proof, hsome, -⟩ := hworked.mp haccepted.worked
      rw [hproof] at hsome
      cases hsome
    | some proof =>
      refine (h.checkMergedWork_eq_ok_iff proof hlimit).trans ⟨?_, fun haccepted => ?_⟩
      · rintro ⟨hcheck, husable, hle, hwork⟩
        exact ⟨hchain, husable, hle, hworked.mpr ⟨proof, hproof, hcheck, hwork⟩⟩
      · obtain ⟨other, hsome, hcheck, hwork⟩ := hworked.mp haccepted.worked
        rw [hproof, Option.some.injEq] at hsome
        subst hsome
        exact ⟨hcheck, haccepted.usable, haccepted.limited, hwork⟩

/-- A header of chain 42 that carries its id and works for the easiest target of a chain for trying
out. -/
theorem accepted_regtest :
    (∃ limit, Target.decode (Params.regtest 42).powLimit = .ok limit) ∧
      Accepted ⟨⟨0x2a0000, .zero, .zero, 0, 0x207fffff, 0⟩, none⟩ (.regtest 42) := by
  have hlimit : ∃ limit, Target.decode (Params.regtest 42).powLimit = .ok limit := ⟨_, rfl⟩
  exact ⟨hlimit, (checkWork_eq_ok_iff _ hlimit).mp (by decide +kernel)⟩

end MergedHeader

end MergedMining
