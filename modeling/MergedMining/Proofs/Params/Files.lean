import MergedMining.Params.File
import MergedMining.Proofs.Json.Written
import MergedMining.Proofs.Target.Expansion
import MergedMining.Proofs.Toml.Written
import MergedMining.Proofs.Version.Packing

/-!
# Parameter files

Loading a file is reading its text and then judging what was read.  A text that was written from
parameters is read as these parameters, whether they agree with each other or not; so a file that
was written is loaded as what it was written from, or refused for the fault of its parameters.

## Main results

* `Params.readToml_toToml`, `Params.readJson_toJson` — written parameters are read back.
* `Params.validate_eq_ok_iff` — when parameters agree with each other.
* `Params.load_written` — both directions of loading.
-/

namespace MergedMining

theorem Decoding.layoutOf_ofNat (layout : Version.Layout) :
    layoutOf (UInt8.ofNat layout.flagBit) (UInt8.ofNat layout.shift) = .ok layout := by
  rw [layoutOf, Version.Layout.ofPositions_ofNat]
  rfl

namespace Params

variable (params : Params)

/-! ### TOML -/

/-- The lines of parameters. -/
def tomlLines : List Toml.Line :=
  [⟨"chain_id", .natural params.chainId.toNat⟩,
   ⟨"strict_chain_id", .truth params.strictChainId⟩,
   ⟨"max_merkle_height", .natural params.maxTreeHeight.toNat⟩,
   ⟨"pow_algorithm", .text params.workHash.name⟩,
   ⟨"pow_limit", .text (Hex.word params.powLimit)⟩]

/-- The block of a layout. -/
def tomlBlock : Toml.Block :=
  ⟨"version_layout",
   [⟨"auxpow_flag_bit", .natural params.layout.flagBit⟩,
    ⟨"chain_id_shift", .natural params.layout.shift⟩]⟩

theorem toToml_eq_write :
    params.toToml = String.ofList (Toml.write params.tomlLines [params.tomlBlock]) := by
  refine String.toList_inj.mp ?_
  unfold toToml
  simp [tomlLines, tomlBlock, Toml.write, Toml.Line.chars, Toml.Block.chars, Simple.chars,
    Simple.toList_truth]

theorem fits_workHash (workHash : WorkHash) : (Simple.text workHash.name).Fits := by
  cases workHash with
  | sha256d =>
    have hname : NeedsNoEscape WorkHash.sha256d.name.toList := by decide
    exact hname

theorem fits_tomlLines : ∀ line ∈ params.tomlLines, line.Fits := by
  have hid : params.chainId.toNat < 4294967296 := params.chainId.toNat_lt
  have hheight : params.maxTreeHeight.toNat < 4294967296 := params.maxTreeHeight.toNat_lt
  simp only [tomlLines, List.forall_mem_cons, List.not_mem_nil, false_implies, implies_true,
    and_true]
  exact ⟨⟨(by decide : Toml.IsName "chain_id".toList), Nat.lt_trans hid (by decide)⟩,
    ⟨(by decide : Toml.IsName "strict_chain_id".toList), trivial⟩,
    ⟨(by decide : Toml.IsName "max_merkle_height".toList), Nat.lt_trans hheight (by decide)⟩,
    ⟨(by decide : Toml.IsName "pow_algorithm".toList), fits_workHash _⟩,
    ⟨(by decide : Toml.IsName "pow_limit".toList), Simple.fits_word _⟩⟩

theorem fits_tomlBlock : params.tomlBlock.Fits := by
  have hflag := params.layout.flagBit_lt_32
  have hshift := params.layout.shift_lt
  refine ⟨(by decide : Toml.IsName "version_layout".toList), ?_⟩
  simp only [tomlBlock, List.forall_mem_cons, List.not_mem_nil, false_implies, implies_true,
    and_true]
  exact ⟨⟨(by decide : Toml.IsName "auxpow_flag_bit".toList), Nat.lt_trans hflag (by decide)⟩,
    ⟨(by decide : Toml.IsName "chain_id_shift".toList), Nat.lt_trans hshift (by decide)⟩⟩

/-- The members of a layout. -/
def layoutMembers (layout : Version.Layout) : List Toml.Member :=
  [.entry "auxpow_flag_bit" (.scalar (.integer layout.flagBit)),
   .entry "chain_id_shift" (.scalar (.integer layout.shift))]

/-- The members of parameters. -/
def tomlMembers : List Toml.Member :=
  [.entry "chain_id" (.scalar (.integer params.chainId.toNat)),
   .entry "strict_chain_id" (.scalar (.boolean params.strictChainId)),
   .entry "max_merkle_height" (.scalar (.integer params.maxTreeHeight.toNat)),
   .entry "pow_algorithm" (.scalar (.text params.workHash.name)),
   .entry "pow_limit" (.scalar (.text (Hex.word params.powLimit))),
   .group "version_layout" (.table true (layoutMembers params.layout))]

theorem exists_sections_toToml :
    ∃ sections, Toml.sections? params.toToml = some sections ∧
      Toml.Document.members ⟨sections⟩ = params.tomlMembers := by
  have hne : params.tomlLines ≠ [] := List.cons_ne_nil _ _
  have hsections := Toml.sections?_write hne params.fits_tomlLines
    (List.forall_mem_singleton.mpr params.fits_tomlBlock)
  rw [← toToml_eq_write] at hsections
  exact ⟨_, hsections, Toml.members_write _ _⟩

theorem tomlReader_layout (layout : Version.Layout) :
    Version.Layout.tomlReader (.group (.table true (layoutMembers layout))) = .ok layout := by
  have hflag : layout.flagBit < 2 ^ 8 := Nat.lt_trans layout.flagBit_lt_32 (by decide)
  have hshift : layout.shift < 2 ^ 8 := Nat.lt_trans layout.shift_lt (by decide)
  simp [layoutMembers, Version.Layout.tomlReader, Version.Layout.tomlRecord, Toml.Record.read,
    Toml.Record.readDraft, Toml.readMembers, Toml.readField, Toml.unsigned_natural hflag,
    Toml.unsigned_natural hshift, Toml.Record.finish, Version.Layout.Draft.positions,
    Decoding.layoutOf_ofNat, bind, Except.bind, Except.map, Except.mapError, pure, Except.pure]

theorem tomlReader_workHash (sections : List Toml.Section) (workHash : WorkHash) :
    WorkHash.tomlReader sections (.value (.scalar (.text workHash.name))) = .ok workHash := by
  cases workHash with
  | sha256d => rfl

/-- The draft that has everything. -/
def fullDraft : Draft :=
  ⟨some params.chainId, some params.strictChainId, some params.maxTreeHeight,
    some params.workHash, some params.powLimit, some params.layout⟩

/-- **Written parameters are read back from TOML.** -/
theorem readToml_toToml : readToml params.toToml = .ok params := by
  obtain ⟨sections, hsections, hmembers⟩ := params.exists_sections_toToml
  have hdraft : Toml.readMembers (tomlRecord sections).fields (tomlRecord sections).empty
      params.tomlMembers = .ok params.fullDraft := by
    -- each member is new to the draft, and its reader gives back what was written
    simp [tomlRecord, tomlMembers, Toml.readMembers, Toml.readField, Toml.word_natural,
      Toml.boolean, Toml.bits_word, tomlReader_workHash, tomlReader_layout, bind, Except.bind,
      Except.map, Except.mapError, pure, Except.pure, fullDraft]
  rw [readToml, Toml.Document.ofText?, hsections, Option.map_some]
  simp only [Toml.Record.readDocument, hmembers, hdraft]
  rfl

/-! ### JSON -/

/-- The layout as it is spelled. -/
def layoutChars (layout : Version.Layout) : List Char :=
  Json.objectChars (.simple "auxpow_flag_bit" (.natural layout.flagBit))
    [.simple "chain_id_shift" (.natural layout.shift)]

/-- The layout as it is read. -/
def layoutNode (layout : Version.Layout) : Json.Node :=
  .object [(some "auxpow_flag_bit", .number (Json.numeralOf layout.flagBit)),
    (some "chain_id_shift", .number (Json.numeralOf layout.shift))] .closed

theorem denotes_layout (layout : Version.Layout) :
    Json.Denotes (layoutChars layout) (layoutNode layout) := by
  have hflag := layout.flagBit_lt_32
  have hshift := layout.shift_lt
  refine Json.denotes_object
    (Json.Entry.fits_simple (by decide) (Nat.lt_trans hflag (by decide))) ?_
  exact List.forall_mem_singleton.mpr
    (Json.Entry.fits_simple (by decide) (Nat.lt_trans hshift (by decide)))

/-- The members of parameters behind the chain id. -/
def jsonEntries : List Json.Entry :=
  [.simple "strict_chain_id" (.truth params.strictChainId),
   .simple "max_merkle_height" (.natural params.maxTreeHeight.toNat),
   .simple "pow_algorithm" (.text params.workHash.name),
   .simple "pow_limit" (.text (Hex.word params.powLimit)),
   ⟨"version_layout", layoutChars params.layout, layoutNode params.layout⟩]

theorem toJson_eq :
    params.toJson = String.ofList (Json.objectChars
      (.simple "chain_id" (.natural params.chainId.toNat)) params.jsonEntries) := by
  refine String.toList_inj.mp ?_
  unfold toJson Version.Layout.toJson
  simp [jsonEntries, layoutChars, Json.objectChars, Json.Entry.spelling, Json.Entry.simple,
    Simple.chars, Simple.toList_truth]

theorem fits_jsonEntries : ∀ entry ∈ params.jsonEntries, entry.Fits := by
  have hheight : params.maxTreeHeight.toNat < 4294967296 := params.maxTreeHeight.toNat_lt
  simp only [jsonEntries, List.forall_mem_cons, List.not_mem_nil, false_implies, implies_true,
    and_true]
  exact ⟨Json.Entry.fits_simple (by decide) trivial,
    Json.Entry.fits_simple (by decide) (Nat.lt_trans hheight (by decide)),
    Json.Entry.fits_simple (by decide) (fits_workHash _),
    Json.Entry.fits_simple (by decide) (Simple.fits_word _),
    ⟨(by decide : NeedsNoEscape "version_layout".toList), denotes_layout _⟩⟩

theorem jsonReader_layout (layout : Version.Layout) :
    Version.Layout.jsonReader (layoutNode layout) = .ok layout := by
  have hflag : layout.flagBit < 32 := layout.flagBit_lt_32
  have hshift : layout.shift < 32 := layout.shift_lt
  have hbit : Json.unsigned 8 (.number (Json.numeralOf layout.flagBit)) = .ok layout.flagBit :=
    Json.unsigned_natural (Nat.lt_trans hflag (by decide)) (Nat.lt_trans hflag (by decide))
  have hlow : Json.unsigned 8 (.number (Json.numeralOf layout.shift)) = .ok layout.shift :=
    Json.unsigned_natural (Nat.lt_trans hshift (by decide)) (Nat.lt_trans hshift (by decide))
  simp [layoutNode, Version.Layout.jsonReader, Version.Layout.jsonRecord, Json.Record.read,
    Json.readMembers, hbit, hlow, Json.closed, Version.Layout.Draft.positions,
    Decoding.layoutOf_ofNat, bind, Except.bind, Except.mapError, pure, Except.pure]

theorem jsonReader_workHash (workHash : WorkHash) :
    WorkHash.jsonReader (.string (some workHash.name)) = .ok workHash := by
  cases workHash with
  | sha256d => rfl

/-- **Written parameters are read back from JSON.** -/
theorem readJson_toJson : readJson params.toJson = .ok params := by
  have hid : params.chainId.toNat < 4294967296 := params.chainId.toNat_lt
  have hfits : (Json.Entry.simple "chain_id" (.natural params.chainId.toNat)).Fits :=
    Json.Entry.fits_simple (by decide) (Nat.lt_trans hid (by decide))
  have hroot := (Json.denotes_object hfits params.fits_jsonEntries).ofText
  rw [← toJson_eq] at hroot
  have hdraft : Json.readMembers jsonRecord.fields jsonRecord.empty
      ((.simple "chain_id" (.natural params.chainId.toNat) :: params.jsonEntries).map
        Json.Entry.member) = .ok params.fullDraft := by
    -- as for TOML, except that the layout is an object in its place
    simp [jsonRecord, jsonEntries, Json.Entry.simple, Json.Entry.member, Json.nodeOf,
      Json.readMembers, Json.word_natural, Json.boolean, Json.bits_word, jsonReader_workHash,
      jsonReader_layout, bind, Except.bind, pure, Except.pure, fullDraft]
  simp only [readJson, Json.decode, hroot, Json.Record.read, hdraft]
  rfl

/-! ### Judging -/

variable {params}

/-- **When parameters agree with each other.** -/
theorem validate_eq_ok_iff :
    params.validate = .ok () ↔ params.maxTreeHeight ≤ supportedTreeHeight ∧
      params.chainId ≤ params.layout.maxChainId ∧ Target.Usable params.powLimit := by
  rw [← Version.Layout.exists_fresh_zero_iff]
  unfold validate
  constructor
  · intro h
    split at h
    case isTrue => cases h
    case isFalse hheight =>
      split at h
      case h_1 => cases h
      case h_2 version hversion =>
        split at h
        case h_1 => cases h
        case h_2 target htarget =>
          exact ⟨UInt32.not_lt.mp hheight, ⟨version, hversion⟩,
            (Target.decode_eq_ok_iff.mp htarget).1⟩
  · rintro ⟨hheight, ⟨version, hversion⟩, husable⟩
    rw [if_neg (UInt32.not_lt.mpr hheight), hversion, Target.decode_of_usable husable]

/-! ### Loading -/

/-- Whatever the format, what is loaded agrees with itself. -/
theorem validate_of_validated {error : ParamsError → LoadError} {loaded : Params}
    (h : params.validated.mapError error = .ok loaded) : loaded.validate = .ok () := by
  unfold validated at h
  split at h
  case h_1 => cases h
  case h_2 hvalid =>
    cases h
    exact hvalid

theorem validate_of_ofToml {text : String} {loaded : Params} (h : ofToml text = .ok loaded) :
    loaded.validate = .ok () := by
  unfold ofToml at h
  split at h
  case h_1 => cases h
  case h_2 => exact validate_of_validated h

theorem validate_of_ofJson {text : String} {loaded : Params} (h : ofJson text = .ok loaded) :
    loaded.validate = .ok () := by
  unfold ofJson at h
  split at h
  case h_1 => cases h
  case h_2 => exact validate_of_validated h

/-- **Loading is reading, then judging.**  All parameters can be written, as the type of `toToml`
says.  What was written is loaded as what it was written from, or refused for the fault of these
parameters; and whatever is loaded has trees that are supported, a chain id that its layout can
carry, and a usable easiest target. -/
theorem load_written :
    (∀ params : Params,
      (match params.validate with
        | .ok () => ofToml params.toToml = .ok params ∧ ofJson params.toJson = .ok params
        | .error error => ofToml params.toToml = .error (.invalid error) ∧
            ofJson params.toJson = .error (.invalid error))) ∧
    ∀ (text : String) (loaded : Params), ofToml text = .ok loaded ∨ ofJson text = .ok loaded →
      loaded.maxTreeHeight ≤ 30 ∧ loaded.chainId ≤ loaded.layout.maxChainId ∧
        loaded.layout.flagBit < loaded.layout.shift ∧ loaded.layout.shift < 32 ∧
        Target.isNegative loaded.powLimit = false ∧ 0 < Target.value loaded.powLimit ∧
        Target.value loaded.powLimit < 2 ^ 256 := by
  refine ⟨fun params => ?_, fun text loaded h => ?_⟩
  · simp only [ofToml, readToml_toToml, ofJson, readJson_toJson, validated]
    cases params.validate with
    | ok _ => exact ⟨rfl, rfl⟩
    | error error => exact ⟨rfl, rfl⟩
  · have hvalid := h.elim validate_of_ofToml validate_of_ofJson
    obtain ⟨hheight, hid, husable⟩ := validate_eq_ok_iff.mp hvalid
    exact ⟨hheight, hid, loaded.layout.flagBit_lt, loaded.layout.shift_lt, husable⟩

/-- The rules of a chain for trying out are loaded in either format; with trees that could be too
high they are refused. -/
theorem load_written_regtest :
    ofToml (regtest 42).toToml = .ok (regtest 42) ∧ ofJson (regtest 42).toJson = .ok (regtest 42) ∧
      ofToml (Params.toToml { regtest 42 with maxTreeHeight := 31 }) =
        .error (.invalid (.treeTooHigh 31 30)) ∧
      0 < Target.value 0x207fffff ∧ Target.value 0x207fffff < 2 ^ 256 := by
  obtain ⟨htoml, hjson⟩ : ofToml (regtest 42).toToml = .ok (regtest 42) ∧
      ofJson (regtest 42).toJson = .ok (regtest 42) := load_written.1 (regtest 42)
  obtain ⟨hhigh, -⟩ : ofToml (Params.toToml { regtest 42 with maxTreeHeight := 31 }) =
      .error (.invalid (.treeTooHigh 31 30)) ∧ _ :=
    load_written.1 { regtest 42 with maxTreeHeight := 31 }
  obtain ⟨-, -, -, -, -, hpos, hlt⟩ := load_written.2 _ _ (Or.inl htoml)
  exact ⟨htoml, hjson, hhigh, hpos, hlt⟩

end Params

end MergedMining
