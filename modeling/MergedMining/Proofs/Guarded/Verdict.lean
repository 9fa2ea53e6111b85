import MergedMining.Logging.WorkEvents
import MergedMining.Proofs.Commitment.Occurrence
import MergedMining.Proofs.Guarded.Hashes

/-!
# Verdicts that stay in their range

Whoever sends a header chooses its script, the lengths of its branches and all its words, and the
parameters need not have been judged either.  Here the whole check of a header is done in guarded
steps: a byte string is searched, indexed and cut only within its length, what is hashed is stored
only within its buffer, and the height of a branch becomes a word only if it is one.  No step is
refused: the check always ends with a verdict, and with the verdict that this library gives.

## Main definitions

* `Guarded.locate`, `Guarded.read` — the search for a commitment, and its trailer.
* `Guarded.checkProof`, `Guarded.checkHeader` — the check of a proof and of a header.
* `Guarded.judge` — verdict and log of a header.

## Main results

* `Guarded.read_eq`, `Guarded.checkProof_eq`, `Guarded.checkHeader_eq` — every step is done.
* `Guarded.judge_in_range` — a header is judged without a fault, whatever it is and under whatever
  parameters.
-/

namespace MergedMining.Guarded

open Commitment (Location marker lastUnmarkedOffset)

/-! ### Byte strings -/

/-- A string is cut at a position within its length, or at its end. -/
def dropFrom (bytes : Bytes) (position : Nat) : Option Bytes :=
  within (position ≤ bytes.length) (bytes.drop position)

/-- A string is cut at a position within its length, or at its end. -/
def takeTo (bytes : Bytes) (position : Nat) : Option Bytes :=
  within (position ≤ bytes.length) (bytes.take position)

/-- A place behind bytes of a string is no further than its end, so that a machine counts it. -/
def placeIn (bytes : Bytes) (position : Nat) : Option Nat :=
  within (position ≤ bytes.length) position

/-- A search looks for at least one byte. -/
def firstIndex (needle bytes : Bytes) : Option (Option Nat) :=
  within (0 < needle.length) (Commitment.firstIndex? needle bytes)

/-- The word that four bytes spell, each of them within the string. -/
def word (bytes : Bytes) (position : Nat) : Option UInt32 := do
  let b₀ ← bytes[position]?
  let b₁ ← bytes[position + 1]?
  let b₂ ← bytes[position + 2]?
  let b₃ ← bytes[position + 3]?
  return Bytes.toUInt32 [b₀, b₁, b₂, b₃]

theorem firstIndex_marker (bytes : Bytes) :
    firstIndex marker bytes = some (Commitment.firstIndex? marker bytes) :=
  within_of (by decide) _

theorem firstIndex_root (root : Hash256) (bytes : Bytes) :
    firstIndex root.bytes bytes = some (Commitment.firstIndex? root.bytes bytes) :=
  within_of (by rw [root.length_bytes]; decide) _

theorem word_eq (bytes : Bytes) (position : Nat) (h : position + 4 ≤ bytes.length) :
    word bytes position = some (Bytes.toUInt32 ((bytes.drop position).take 4)) := by
  have hdrop : (bytes.drop position).take 4 =
      [bytes[position], bytes[position + 1], bytes[position + 2], bytes[position + 3]] := by
    rw [List.drop_eq_getElem_cons (by omega), List.drop_eq_getElem_cons (by omega),
      List.drop_eq_getElem_cons (by omega), List.drop_eq_getElem_cons (by omega)]
    rfl
  rw [word, List.getElem?_eq_getElem (by omega), List.getElem?_eq_getElem (by omega),
    List.getElem?_eq_getElem (by omega), List.getElem?_eq_getElem (by omega), hdrop]
  rfl

/-! ### Commitments -/

/-- Whether the marker occurs again behind the first byte of its first occurrence. -/
def occursAgain (script : Bytes) (marked : Option Nat) : Option Bool :=
  match marked with
  | some position => do
      let rest ← dropFrom script (position + 1)
      let again ← firstIndex marker rest
      return again.isSome
  | none => some false

/-- Finds where `script` commits to `root`. -/
def locate (script : Bytes) (root : Hash256) : Option Location := do
  let marked ← firstIndex marker script
  let again ← occursAgain script marked
  if again then return .ambiguous .multipleMarkers
  else do
    let found ← firstIndex root.bytes script
    match found, marked with
    | none, _ => return .absent
    | some offset, some position =>
        let behind ← placeIn script (position + marker.length)
        return if behind = offset then .at offset else .ambiguous .rootNotAfterMarker
    | some offset, none =>
        return if offset ≤ lastUnmarkedOffset then .at offset else .ambiguous .rootTooLate

/-- Reads the commitment to `root`, with the height as a word. -/
def read (script : Bytes) (root : Hash256) (height : UInt32) :
    Option (Except Rejection Commitment) := do
  let location ← locate script root
  match location with
  | .absent => return .error (.merkleRootMismatch .chainMerkle)
  | .ambiguous kind => return .error (.ambiguousCommitment kind)
  | .at offset =>
      let trailer ← dropFrom script (offset + 32)
      if trailer.length < 8 then return .error .truncatedCommitment
      else do
        let treeSize ← word trailer 0
        let spans ← spansTree height treeSize
        if spans then do
          let nonce ← word trailer 4
          return .ok ⟨root, treeSize, nonce, offset⟩
        else return .error (.treeSizeMismatch height.toNat treeSize)

theorem occursAgain_eq (script : Bytes) :
    occursAgain script (Commitment.firstIndex? marker script) =
      some (Commitment.hasSecondMarker script) := by
  rw [Commitment.hasSecondMarker]
  cases hmarked : Commitment.firstIndex? marker script with
  | none => rfl
  | some position =>
    -- the marker takes up four bytes behind its position
    have hle := (Commitment.firstIndex?_eq_some_iff.mp hmarked).1.add_length_le
    have hlt : position + 1 ≤ script.length := Nat.le_trans (Nat.add_le_add_left (by decide) _) hle
    have hdrop : dropFrom script (position + 1) = some (script.drop (position + 1)) :=
      within_of hlt _
    simp only [occursAgain, hdrop, Option.bind_eq_bind, Option.bind_some, firstIndex_marker,
      Option.pure_def]

theorem locate_eq (script : Bytes) (root : Hash256) :
    locate script root = some (Commitment.locate script root) := by
  rw [locate, Commitment.locate]
  simp only [firstIndex_marker, firstIndex_root, occursAgain_eq, Option.bind_eq_bind,
    Option.bind_some]
  cases Commitment.hasSecondMarker script with
  | true => rfl
  | false =>
    cases Commitment.firstIndex? root.bytes script with
    | none => rfl
    | some offset =>
      cases hmarked : Commitment.firstIndex? marker script with
      | none => rfl
      | some position =>
        have hplace : placeIn script (position + marker.length) =
            some (position + marker.length) :=
          within_of (Commitment.firstIndex?_eq_some_iff.mp hmarked).1.add_length_le _
        simp only [hplace, Option.bind_some, Bool.false_eq_true, if_false, Option.pure_def]

/-- Where a root is found, all its bytes stand in the script. -/
theorem add_le_of_locate_at {script : Bytes} {root : Hash256} {offset : Nat}
    (h : Commitment.locate script root = .at offset) : offset + 32 ≤ script.length := by
  have hfound : Commitment.firstIndex? root.bytes script = some offset := by
    rw [Commitment.locate] at h
    grind
  have hle := (Commitment.firstIndex?_eq_some_iff.mp hfound).1.add_length_le
  rwa [root.length_bytes] at hle

/-- **A script is read in range**, whatever its bytes are. -/
theorem read_eq (script : Bytes) (root : Hash256) (height : UInt32) :
    read script root height = some (Commitment.read script root height.toNat) := by
  rw [read, locate_eq, Commitment.read]
  cases hlocate : Commitment.locate script root with
  | absent => rfl
  | ambiguous kind => rfl
  | «at» offset =>
    have hdrop : dropFrom script (offset + 32) = some (script.drop (offset + 32)) :=
      within_of (add_le_of_locate_at hlocate) _
    simp only [Option.bind_eq_bind, Option.bind_some, hdrop]
    by_cases hlength : (script.drop (offset + 32)).length < 8
    · rw [if_pos hlength, if_pos hlength]
      rfl
    · have hsize := word_eq (script.drop (offset + 32)) 0 (by omega)
      have hnonce := word_eq (script.drop (offset + 32)) 4 (by omega)
      rw [List.drop_zero] at hsize
      rw [if_neg hlength, if_neg hlength, hsize, hnonce]
      simp only [Option.bind_some, spansTree_eq]
      split_ifs <;> rfl

/-! ### Proofs and headers -/

/-- Whether a parent carries the chain's id where that is forbidden. -/
def collides (params : Params) (parent : BlockHeader) (chainId : ChainId) : Option Bool :=
  if params.strictChainId then do
    let fields ← decodeVersion params.layout parent.version
    return fields.chainId == chainId
  else some false

/-- Checks that the parent's header meets its own target. -/
def checkParentWork (proof : AuxProof) (workHash : WorkHash) : Option (Except Rejection Unit) := do
  let decoded ← decodeTarget proof.parent.bits
  match decoded with
  | .error error => return .error (.invalidTarget error)
  | .ok target => do
      let hash ← applyWorkHash workHash proof.parent
      return if hash.meets target then .ok () else .error (.targetNotMet hash proof.parent.bits)

/-- Checks a proof.  The height of the chain branch becomes a word behind the comparison with the
maximum. -/
def checkProof (proof : AuxProof) (hash : Hash256) (chainId : ChainId) (params : Params) :
    Option (Except Rejection Unit) :=
  if !(proof.coinbase.isCoinbase && proof.coinbaseBranch.index == 0) then
    some (.error .notCoinbase)
  else do
    let collision ← collides params proof.parent chainId
    if collision then return .error (.chainIdCollision chainId)
    else if params.maxTreeHeight.toNat < proof.chainBranch.height then
      return .error (.branchTooLong proof.chainBranch.height params.maxTreeHeight)
    else do
      let height ← narrow proof.chainBranch.height
      let chainRoot ← rootOf proof.chainBranch hash
      let coinbaseRoot ← rootOf proof.coinbaseBranch proof.coinbase.txid
      if coinbaseRoot ≠ proof.parent.merkleRoot then
        return .error (.merkleRootMismatch .parentBlock)
      else do
        let found ← read proof.script chainRoot.reversed height
        match found with
        | .error reason => return .error reason
        | .ok commitment =>
            let expected ← slot commitment.nonce chainId height
            if proof.chainBranch.index ≠ expected then
              return .error (.slotMismatch expected proof.chainBranch.index)
            else checkParentWork proof params.workHash

/-- Checks that `hash` meets the target of `bits`, which must not be easier than that of `limit`. -/
def checkWork (hash : Hash256) (bits limit : UInt32) : Option (Except WorkError Unit) := do
  let decoded ← decodeTarget bits
  match decoded with
  | .error error => return .error (.invalidTarget error)
  | .ok target =>
      let easiest ← expand limit
      return if target > easiest then .error (.invalidTarget (.aboveLimit bits limit))
        else if hash.meets target then .ok ()
        else .error (.targetNotMet hash bits)

/-- Checks that a header carries enough work. -/
def checkHeader (h : MergedHeader) (params : Params) : Option (Except Rejection Unit) := do
  let fields ← decodeVersion params.layout h.header.version
  if params.strictChainId && !Version.isLegacy h.header.version
      && fields.chainId != params.chainId then
    return .error (.wrongChainId params.chainId fields.chainId)
  else
    match fields.merged, h.proof with
    | false, some _ => return .error .unexpectedProof
    | false, none => do
        let hash ← applyWorkHash params.workHash h.header
        let work ← checkWork hash h.header.bits params.powLimit
        return work.mapError Rejection.ofWorkError
    | true, none => return .error .missingProof
    | true, some proof => do
        let hash ← blockHash h.header
        let checked ← checkProof proof hash fields.chainId params
        match checked with
        | .error reason => return .error reason
        | .ok () => do
            let parentHash ← applyWorkHash params.workHash proof.parent
            let work ← checkWork parentHash h.header.bits params.powLimit
            return work.mapError Rejection.ofWorkError

theorem collides_eq (params : Params) (parent : BlockHeader) (chainId : ChainId) :
    collides params parent chainId =
      some (params.strictChainId && (params.layout.decode parent.version).chainId == chainId) := by
  rw [collides, decodeVersion_eq]
  cases params.strictChainId with
  | false => rfl
  | true => rfl

theorem checkParentWork_eq (proof : AuxProof) (workHash : WorkHash) :
    checkParentWork proof workHash = some (proof.checkParentWork workHash) := by
  rw [checkParentWork, AuxProof.checkParentWork, decodeTarget_eq]
  cases Target.decode proof.parent.bits with
  | error error => rfl
  | ok target =>
    simp only [applyWorkHash_eq, Option.bind_eq_bind, Option.bind_some]
    rfl

/-- **A proof is checked in range**: a height that passes the comparison with the maximum is a
word, since the maximum is one. -/
theorem checkProof_eq (proof : AuxProof) (hash : Hash256) (chainId : ChainId) (params : Params) :
    checkProof proof hash chainId params = some (proof.check hash chainId params) := by
  rw [checkProof, AuxProof.check]
  by_cases hcoinbase : (!(proof.coinbase.isCoinbase && proof.coinbaseBranch.index == 0)) = true
  · rw [if_pos hcoinbase, if_pos hcoinbase]
  rw [if_neg hcoinbase, if_neg hcoinbase, collides_eq, Option.bind_eq_bind, Option.bind_some]
  by_cases hcollision : (params.strictChainId &&
      (params.layout.decode proof.parent.version).chainId == chainId) = true
  · rw [if_pos hcollision, if_pos hcollision]
    rfl
  rw [if_neg hcollision, if_neg hcollision]
  by_cases hheight : params.maxTreeHeight.toNat < proof.chainBranch.height
  · rw [if_pos hheight, if_pos hheight]
    rfl
  rw [if_neg hheight, if_neg hheight]
  have hword : proof.chainBranch.height < UInt32.size :=
    Nat.lt_of_le_of_lt (Nat.le_of_not_lt hheight) params.maxTreeHeight.toNat_lt
  have hexact : (UInt32.ofNat proof.chainBranch.height).toNat = proof.chainBranch.height :=
    UInt32.toNat_ofNat_of_lt' hword
  rw [narrow, within_of hword]
  simp only [rootOf_eq, Option.bind_eq_bind, Option.bind_some]
  by_cases hroot : proof.coinbaseBranch.rootOf proof.coinbase.txid ≠ proof.parent.merkleRoot
  · rw [if_pos hroot, if_pos hroot]
    rfl
  rw [if_neg hroot, if_neg hroot, read_eq, hexact, AuxProof.checkCommitment,
    AuxProof.committedRoot, Option.bind_some]
  cases Commitment.read proof.script (proof.chainBranch.rootOf hash).reversed
      proof.chainBranch.height with
  | error reason => rfl
  | ok commitment =>
    simp only [slot_eq, hexact, Option.bind_some, checkParentWork_eq]
    by_cases hindex : proof.chainBranch.index =
        MergedMining.slot commitment.nonce chainId proof.chainBranch.height
    · rw [if_neg (not_not_intro hindex), if_pos hindex]
    · rw [if_pos hindex, if_neg hindex]
      rfl

theorem checkWork_eq (hash : Hash256) (bits limit : UInt32) :
    checkWork hash bits limit = some (Work.check hash bits limit) := by
  rw [checkWork, Work.check, decodeTarget_eq]
  cases Target.decode bits with
  | error error => rfl
  | ok target =>
    rw [Option.bind_eq_bind, Option.bind_some, expand_eq]
    rfl

/-- **A header is checked in range.** -/
theorem checkHeader_eq (h : MergedHeader) (params : Params) :
    checkHeader h params = some (h.checkWork params) := by
  rw [checkHeader, MergedHeader.checkWork, decodeVersion_eq, Option.bind_eq_bind,
    Option.bind_some, MergedHeader.fields]
  split_ifs with hstrict
  · rfl
  cases (params.layout.decode h.header.version).merged with
  | false =>
    cases h.proof with
    | some proof => rfl
    | none =>
      simp only [applyWorkHash_eq, checkWork_eq, Option.bind_eq_bind, Option.bind_some]
      rfl
  | true =>
    cases h.proof with
    | none => rfl
    | some proof =>
      simp only [blockHash_eq, applyWorkHash_eq, checkProof_eq, checkWork_eq,
        MergedHeader.checkMergedWork, MergedHeader.fields, MergedHeader.hash, Option.bind_eq_bind,
        Option.bind_some]
      cases proof.check h.header.hash (params.layout.decode h.header.version).chainId params with
      | error reason => rfl
      | ok _ => rfl

/-! ### The log -/

/-- The first and the last three bytes of a hash, as a log shows them. -/
def short (hash : Hash256) : Option String := do
  let front ← takeTo hash.bytes 3
  let back ← dropFrom hash.bytes 29
  return Hex.encode front ++ ".." ++ Hex.encode back

theorem short_eq (hash : Hash256) : short hash = some hash.short := by
  have hlength := hash.length_bytes
  have hfront : takeTo hash.bytes 3 = some (hash.bytes.take 3) := within_of (by omega) _
  have hback : dropFrom hash.bytes 29 = some (hash.bytes.drop 29) := within_of (by omega) _
  rw [short, hfront, hback]
  rfl

/-- Judges a header: the verdict, and the events it leaves in the log. -/
def judge (h : MergedHeader) (params : Params) :
    Option (Except Rejection Unit × List Logging.Event) := do
  let verdict ← checkHeader h params
  match verdict with
  | .error reason => do
      let hash ← blockHash h.header
      let blkid ← short hash
      return (verdict, [⟨.debug, MergedHeader.workTarget, "rejected header proof-of-work",
        [("blkid", .text blkid), ("version", .number (Version.signed h.header.version)),
          ("reason", .text reason.message)]⟩])
  | .ok () => do
      let fields ← decodeVersion params.layout h.header.version
      if fields.merged then do
        let hash ← blockHash h.header
        let blkid ← short hash
        return (verdict, [⟨.trace, MergedHeader.workTarget, "accepted merge-mined header",
          [("blkid", .text blkid)]⟩])
      else return (verdict, [])

/-- **A header is judged without a fault.**  For every header, with any transaction, script,
branches and words, and under all parameters, with any limit and maximum, every step of the guarded
check is done in its range, and it ends with the verdict and the log of the check itself. -/
theorem judge_in_range (h : MergedHeader) (params : Params) :
    judge h params = some (h.checkWork params, h.workEvents params) := by
  have hblkid : (blockHash h.header).bind short = some h.hash.short := by
    rw [blockHash_eq, Option.bind_some, short_eq]
    rfl
  rw [judge, checkHeader_eq, MergedHeader.workEvents, MergedHeader.fields, Option.bind_eq_bind,
    Option.bind_some]
  simp only [Option.bind_eq_bind, ← Option.bind_assoc, hblkid, decodeVersion_eq, Option.bind_some]
  cases h.checkWork params with
  | error reason => rfl
  | ok _ => split_ifs <;> rfl

end MergedMining.Guarded
