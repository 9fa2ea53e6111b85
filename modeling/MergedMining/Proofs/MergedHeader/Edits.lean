import MergedMining.MergedHeader
import MergedMining.Proofs.Version.Packing

/-!
# Edited headers

Edits of a header go through its packed version: some unpack the fields and pack them again, the
flag is set and cleared in place.  What they amount to is said here on a record in which the fields
stand side by side, each with a value of its own, and the proof beside them.  However many edits
follow each other, the header and the record stay the same.  That a failed edit leaves the header as
it was is read off its run: packing comes before anything is stored.

## Main definitions

* `MergedHeader.Record`, `MergedHeader.Record.edit` — the record, and what an edit does to it.
* `MergedHeader.Edit.Misfits` — an edit brings values that do not fit the layout.
* `MergedHeader.Stores` — an edit packs fields and stores them.
* `MergedHeader.session` — one edit after the other.

## Main results

* `MergedHeader.edit_cases` — what an edit leaves alone, if it fails and if it does not.
* `MergedHeader.edit_refines` — one edit does the same to header and record.
* `MergedHeader.edits_refine` — a session of edits does, fails only for values that do not fit, and
  leaves all else alone.
-/

namespace MergedMining.MergedHeader

/-! ### The record -/

/-- The fields of a version side by side, and a proof. -/
structure Record where
  /-- The base version. -/
  base : UInt32
  /-- The chain id. -/
  chainId : ChainId
  /-- Whether a proof is announced. -/
  merged : Bool
  /-- The proof. -/
  proof : Option AuxProof

/-- What a header records under a layout. -/
def record (layout : Version.Layout) (h : MergedHeader) : Record where
  base := (h.fields layout).base
  chainId := (h.fields layout).chainId
  merged := (h.fields layout).merged
  proof := h.proof

namespace Edit

/-- The first value of an edit that does not fit the layout. -/
def fault? (layout : Version.Layout) : Edit → Option VersionError
  | .baseVersion base id =>
      if ¬ layout.FitsBase base then some (.baseVersionOutOfRange base layout.baseMask)
      else if ¬ id ≤ layout.maxChainId then some (.chainIdOutOfRange id layout.maxChainId)
      else none
  | .chainId id =>
      if ¬ id ≤ layout.maxChainId then some (.chainIdOutOfRange id layout.maxChainId) else none
  | .flag _ | .attach _ | .detach => none

/-- An edit brings a base version with a bit outside its mask, or a chain id beyond the largest
one. -/
def Misfits (layout : Version.Layout) : Edit → Prop
  | .baseVersion base id =>
      (∃ i, base.toNat.testBit i = true ∧ layout.baseMask.toNat.testBit i = false) ∨
        layout.maxChainId < id
  | .chainId id => layout.maxChainId < id
  | .flag _ | .attach _ | .detach => False

/-- The proof that an edit takes off. -/
def taken (proof : Option AuxProof) : Edit → Option AuxProof
  | .detach => proof
  | _ => none

end Edit

namespace Record

/-- The record with the fields of an edit in place of its own. -/
def change (r : Record) : Edit → Record
  | .baseVersion base chainId => { r with base, chainId, merged := false }
  | .chainId chainId => { r with chainId }
  | .flag merged => { r with merged }
  | .attach proof => { r with proof := some proof, merged := true }
  | .detach => { r with proof := none }

/-- What an edit does to a record: nothing if a value does not fit the layout. -/
def edit (layout : Version.Layout) (r : Record) (e : Edit) : Answer × Record :=
  match e.fault? layout with
  | some error => (.error error, r)
  | none => (.ok (e.taken r.proof), r.change e)

end Record

/-! ### One edit -/

theorem record_setVersion (layout : Version.Layout) (h : MergedHeader) (version : Version) :
    (h.setVersion version).record layout =
      ⟨(layout.decode version).base, (layout.decode version).chainId,
        (layout.decode version).merged, h.proof⟩ := rfl

theorem record_setFlag (layout : Version.Layout) (h : MergedHeader) (merged : Bool) :
    (h.setFlag layout merged).record layout = { h.record layout with merged } := by
  rw [setFlag, record_setVersion, Version.Layout.decode_withFlag]
  rfl

/-- The base version that a header carries fits, so that only the new chain id can be at fault. -/
theorem fault?_chainId (layout : Version.Layout) (version : Version) (chainId : ChainId) :
    (Edit.baseVersion (layout.decode version).base chainId).fault? layout =
      (Edit.chainId chainId).fault? layout := by
  rw [Edit.fault?, if_neg (not_not_intro (layout.fitsBase_decode version)), Edit.fault?]

/-- The edit packs these fields and stores the version that comes out; if they cannot be packed, it
leaves the header as it is. -/
def Stores (layout : Version.Layout) (h : MergedHeader) (e : Edit) (fields : Version.Fields) :
    Prop :=
  h.edit layout e =
    match layout.encode fields with
    | .error error => (.error error, h)
    | .ok version => (.ok none, h.setVersion version)

/-- The run of a program that stores a version: it stops in front of storing, or behind it. -/
theorem runOn_store (packed : Except VersionError Version) (h : MergedHeader) :
    (do Editor.store packed; return none : Editor (Option AuxProof)).runOn h =
      match packed with
      | .error error => (.error error, h)
      | .ok version => (.ok none, h.setVersion version) := by
  cases packed with
  | error error => rfl
  | ok version => rfl

theorem stores_baseVersion (layout : Version.Layout) (h : MergedHeader) (base : UInt32)
    (chainId : ChainId) :
    h.Stores layout (.baseVersion base chainId) ⟨base, chainId, false⟩ :=
  runOn_store (layout.fresh base chainId) h

theorem stores_chainId (layout : Version.Layout) (h : MergedHeader) (chainId : ChainId) :
    h.Stores layout (.chainId chainId) { layout.decode h.header.version with chainId } :=
  runOn_store (layout.withChainId h.header.version chainId) h

variable {layout : Version.Layout} {h : MergedHeader} {e : Edit} {fields : Version.Fields}

theorem Stores.cases (hstores : h.Stores layout e fields) :
    (∃ error, h.edit layout e = (.error error, h)) ∨
      ∃ taken version proof,
        h.edit layout e = (.ok taken, ⟨{ h.header with version }, proof⟩) := by
  unfold Stores at hstores
  cases hencode : layout.encode fields with
  | error error =>
    rw [hencode] at hstores
    exact .inl ⟨error, hstores⟩
  | ok version =>
    rw [hencode] at hstores
    exact .inr ⟨none, version, h.proof, hstores⟩

/-- An edit that packs fields replaces them in the record, and fails for the first of them that does
not fit. -/
theorem Stores.refines (hstores : h.Stores layout e fields) :
    ((h.edit layout e).1, (h.edit layout e).2.record layout) =
      match (Edit.baseVersion fields.base fields.chainId).fault? layout with
      | some error => (.error error, h.record layout)
      | none => (.ok none, ⟨fields.base, fields.chainId, fields.merged, h.proof⟩) := by
  unfold Stores at hstores
  rw [hstores, Version.Layout.encode_eq, Edit.fault?]
  by_cases hbase : layout.FitsBase fields.base
  case neg => simp [hbase]
  by_cases hid : fields.chainId ≤ layout.maxChainId
  case neg => simp [hbase, hid]
  have hdecode := Version.Layout.decode_pack hbase hid
  simp [hbase, hid, record_setVersion, hdecode]

/-- **What an edit leaves alone**: if it fails, the whole header, and else all but version and
proof. -/
theorem edit_cases (layout : Version.Layout) (h : MergedHeader) (e : Edit) :
    (∃ error, h.edit layout e = (.error error, h)) ∨
      ∃ taken version proof,
        h.edit layout e = (.ok taken, ⟨{ h.header with version }, proof⟩) := by
  cases e with
  | baseVersion base chainId => exact (h.stores_baseVersion layout base chainId).cases
  | chainId chainId => exact (h.stores_chainId layout chainId).cases
  | flag merged => exact .inr ⟨none, _, h.proof, rfl⟩
  | attach proof => exact .inr ⟨none, _, some proof, rfl⟩
  | detach => exact .inr ⟨h.proof, h.header.version, none, rfl⟩

/-- **One edit does the same to header and record**, with the same answer. -/
theorem edit_refines (layout : Version.Layout) (h : MergedHeader) (e : Edit) :
    ((h.edit layout e).1, (h.edit layout e).2.record layout) = (h.record layout).edit layout e := by
  cases e with
  | baseVersion base chainId =>
    exact (h.stores_baseVersion layout base chainId).refines
  | chainId chainId =>
    rw [Record.edit, ← fault?_chainId layout h.header.version]
    exact (h.stores_chainId layout chainId).refines
  | flag merged =>
    exact congrArg (fun r => ((.ok none : Answer), r)) (h.record_setFlag layout merged)
  | attach proof =>
    exact congrArg (fun r => ((.ok none : Answer), r))
      (record_setFlag layout { h with proof := some proof } true)
  | detach => rfl

theorem fault?_eq_none_iff (layout : Version.Layout) (e : Edit) :
    e.fault? layout = none ↔ ¬ e.Misfits layout := by
  cases e with
  | baseVersion base chainId =>
    have hfits : layout.FitsBase base ↔
        ¬ ∃ i, base.toNat.testBit i = true ∧ layout.baseMask.toNat.testBit i = false := by
      simp [Version.Layout.FitsBase]
    rw [Edit.Misfits, not_or, ← hfits, UInt32.not_lt, Edit.fault?]
    by_cases hbase : layout.FitsBase base
    · by_cases hid : chainId ≤ layout.maxChainId
      · simp [hbase, hid]
      · simp [hbase, hid]
    · simp [hbase]
  | chainId chainId =>
    rw [Edit.Misfits, UInt32.not_lt, Edit.fault?]
    by_cases hid : chainId ≤ layout.maxChainId
    · simp [hid]
    · simp [hid]
  | flag merged => simp [Edit.fault?, Edit.Misfits]
  | attach proof => simp [Edit.fault?, Edit.Misfits]
  | detach => simp [Edit.fault?, Edit.Misfits]

/-- An edit fails exactly if it brings a value that does not fit the layout. -/
theorem edit_fails_iff (layout : Version.Layout) (h : MergedHeader) (e : Edit) :
    (∃ error, (h.edit layout e).1 = .error error) ↔ e.Misfits layout := by
  have hanswer := congrArg Prod.fst (h.edit_refines layout e)
  rw [Record.edit] at hanswer
  rw [← Classical.not_not (a := e.Misfits layout), ← fault?_eq_none_iff]
  cases hfault : e.fault? layout with
  | none =>
    rw [hfault] at hanswer
    refine iff_of_false ?_ (by simp)
    rintro ⟨error, herror⟩
    rw [herror] at hanswer
    cases hanswer
  | some error =>
    rw [hfault] at hanswer
    exact iff_of_true ⟨error, hanswer⟩ (by simp)

/-- A failed edit leaves the header as it was. -/
theorem edit_eq_of_fails {error : VersionError} (herror : (h.edit layout e).1 = .error error) :
    (h.edit layout e).2 = h := by
  rcases h.edit_cases layout e with ⟨error', hedit⟩ | ⟨taken, version, proof, hedit⟩
  · rw [hedit]
  · rw [hedit] at herror
    cases herror

/-- An edit changes nothing of the header but its version. -/
theorem header_edit (layout : Version.Layout) (h : MergedHeader) (e : Edit) :
    (h.edit layout e).2.header =
      { h.header with version := (h.edit layout e).2.header.version } := by
  rcases h.edit_cases layout e with ⟨error, hedit⟩ | ⟨taken, version, proof, hedit⟩
  · rw [hedit]
  · rw [hedit]

/-! ### Sessions -/

/-- One edit after the other: the answers, each with what the edit has left behind. -/
def session {σ : Type} (step : σ → Edit → Answer × σ) : σ → List Edit → List (Answer × σ)
  | _, [] => []
  | state, e :: edits => step state e :: session step (step state e).2 edits

/-- A session on a header and one on its record give the same answers, and the headers have the
fields and proofs of the records. -/
theorem session_refines (layout : Version.Layout) (edits : List Edit) :
    ∀ h : MergedHeader,
      (session (edit layout) h edits).map (fun (answer, after) => (answer, after.record layout)) =
        session (Record.edit layout) (h.record layout) edits := by
  induction edits with
  | nil => intro h; rfl
  | cons e edits ih =>
    intro h
    have hstep := h.edit_refines layout e
    rw [session, session, List.map_cons, ih, ← hstep]

theorem header_session (layout : Version.Layout) (edits : List Edit) :
    ∀ h : MergedHeader, ∀ s ∈ session (edit layout) h edits,
      s.2.header = { h.header with version := s.2.header.version } := by
  induction edits with
  | nil => intro h s hs; cases hs
  | cons e edits ih =>
    intro h s hs
    rw [session, List.mem_cons] at hs
    rcases hs with rfl | hs
    · exact h.header_edit layout e
    · have hrest := ih _ s hs
      rw [h.header_edit layout e] at hrest
      exact hrest

/-- **Edits refine a record of independent fields.**  In every session, under every layout and from
every header, each edit answers as it does on the record, and leaves a header whose version unpacks
to the fields of the record and that has its proof.  Of the header nothing but the version changes.
An edit fails exactly if it brings a base version outside its mask or a chain id beyond the largest
one, and then the eighty bytes and the proof stay as they were. -/
theorem edits_refine (layout : Version.Layout) :
    (∀ (h : MergedHeader) (edits : List Edit),
      (session (edit layout) h edits).map (fun (answer, after) => (answer, after.record layout)) =
          session (Record.edit layout) (h.record layout) edits ∧
        ∀ s ∈ session (edit layout) h edits,
          s.2.header = { h.header with version := s.2.header.version }) ∧
    ∀ (h : MergedHeader) (e : Edit),
      ((∃ error, (h.edit layout e).1 = .error error) ↔ e.Misfits layout) ∧
        ((∃ error, (h.edit layout e).1 = .error error) →
          (h.edit layout e).2.header.write = h.header.write ∧
            (h.edit layout e).2.proof = h.proof) := by
  refine ⟨fun h edits => ?_, fun h e => ?_⟩
  · exact ⟨session_refines layout edits h, header_session layout edits h⟩
  · refine ⟨h.edit_fails_iff layout e, ?_⟩
    rintro ⟨error, herror⟩
    rw [edit_eq_of_fails herror]
    exact ⟨rfl, rfl⟩

/-- A flagged header of chain 42 with base version 2. -/
def flaggedHeader : MergedHeader := ⟨⟨0x2a0102, .zero, .zero, 0, 0x207fffff, 0⟩, none⟩

/-- Under the standard layout it loses its flag and nothing else; a chain id of seventeen bits is
then refused. -/
theorem flaggedHeader_session :
    let edits : List Edit := [.flag false, .chainId 0x10000]
    let unflagged := (flaggedHeader.edit .standard (.flag false)).2
    let last := unflagged.edit .standard (.chainId 0x10000)
    last ∈ session (edit .standard) flaggedHeader edits ∧
      last.2.header = { flaggedHeader.header with version := last.2.header.version } ∧
      last.2.header.version = 0x2a0002 ∧
      (∃ error, last.1 = .error error) ∧
      last.2.header.write = unflagged.header.write ∧ last.2.proof = unflagged.proof := by
  intro edits unflagged last
  obtain ⟨hrun, hstep⟩ := edits_refine .standard
  have hmem : last ∈ session (edit .standard) flaggedHeader edits :=
    List.mem_cons_of_mem _ List.mem_cons_self
  have hmisfits : (Edit.chainId 0x10000).Misfits .standard :=
    show Version.Layout.standard.maxChainId < 0x10000 by decide
  have hfails := (hstep unflagged (.chainId 0x10000)).1.mpr hmisfits
  exact ⟨hmem, (hrun flaggedHeader edits).2 last hmem, by decide, hfails,
    (hstep unflagged _).2 hfails⟩

end MergedMining.MergedHeader
