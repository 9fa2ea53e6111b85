import MergedMining.AuxProof

/-!
# Merge-mined headers

A header together with the proof it may own.  The block hash covers the header alone: attaching a
proof leaves it as it is, while the flag that announces the proof is part of the version and so of
the hash.

## Main definitions

* `MergedHeader` — a header and perhaps a proof.
* `MergedHeader.write`, `MergedHeader.read`, `MergedHeader.ofBytes` — the wire format.
* `MergedHeader.Editor` — programs that edit a header in place.
* `MergedHeader.Edit`, `MergedHeader.edit` — the edits, and what one does to a header.
* `MergedHeader.checkWork` — whether a header carries enough work under given rules.
-/

namespace MergedMining

/-- A header and the proof it owns, if any. -/
structure MergedHeader where
  /-- The header. -/
  header : BlockHeader
  /-- The proof. -/
  proof : Option AuxProof := none
  deriving DecidableEq

namespace MergedHeader

/-- The block hash. -/
def hash (h : MergedHeader) : Hash256 := h.header.hash

/-- The fields of the version. -/
def fields (h : MergedHeader) (layout : Version.Layout) : Version.Fields :=
  layout.decode h.header.version

/-! ### Wire format -/

/-- The header, followed by its proof. -/
def write (h : MergedHeader) : Bytes :=
  match h.proof with
  | some proof => h.header.write ++ proof.write
  | none => h.header.write

/-- Reads a header, and a proof behind it exactly if the version announces one. -/
def read (layout : Version.Layout) : Wire.Reader MergedHeader := fun data => do
  let (header, rest) ← BlockHeader.read data
  if (layout.decode header.version).merged then
    let (proof, rest) ← AuxProof.read rest
    return (⟨header, some proof⟩, rest)
  else return (⟨header, none⟩, rest)

/-- Reads a header that has to take all bytes. -/
def ofBytes (layout : Version.Layout) (data : Bytes) : Except Wire.Error MergedHeader :=
  Wire.entire (read layout) data

/-! ### Edits -/

/-- Replaces the version. -/
def setVersion (h : MergedHeader) (version : Version) : MergedHeader :=
  { h with header := { h.header with version } }

/-- Sets or clears the flag in the version. -/
def setFlag (h : MergedHeader) (layout : Version.Layout) (merged : Bool) : MergedHeader :=
  h.setVersion (layout.withFlag h.header.version merged)

/-- Attaches a proof in place of any earlier one, and announces it. -/
def attach (h : MergedHeader) (layout : Version.Layout) (proof : AuxProof) : MergedHeader :=
  { h with proof := some proof }.setFlag layout true

/-- Detaches the proof and leaves the version as it is. -/
def detach (h : MergedHeader) : Option AuxProof × MergedHeader :=
  (h.proof, { h with proof := none })

/-- A program that edits a header in place.  It may stop with an error, and what it has stored by
then stays stored. -/
abbrev Editor := ExceptT VersionError (StateM MergedHeader)

namespace Editor

/-- Stores a version that was packed.  If packing has failed, the program stops in front of that. -/
def store (packed : Except VersionError Version) : Editor Unit := do
  let version ← MonadExcept.ofExcept packed
  modify (·.setVersion version)

/-- Starts the version afresh from a base version and a chain id, without the flag. -/
def startVersion (layout : Version.Layout) (base : UInt32) (chainId : ChainId) : Editor Unit :=
  store (layout.fresh base chainId)

/-- Replaces the chain id in the version. -/
def replaceChainId (layout : Version.Layout) (chainId : ChainId) : Editor Unit := do
  let h ← get
  store (layout.withChainId h.header.version chainId)

/-- Runs a program on a header: what it answers, and the header that it leaves behind. -/
def runOn {α : Type} (program : Editor α) (h : MergedHeader) :
    Except VersionError α × MergedHeader :=
  (program.run.run h).run

/-- The header that a program makes of another one, if it does not stop. -/
def result (program : Editor Unit) (h : MergedHeader) : Except VersionError MergedHeader :=
  let (answer, edited) := program.runOn h
  answer.map fun () => edited

end Editor

/-- A header with its version started afresh. -/
def setBaseVersion (h : MergedHeader) (layout : Version.Layout) (base : UInt32)
    (chainId : ChainId) : Except VersionError MergedHeader :=
  (Editor.startVersion layout base chainId).result h

/-- A header with another chain id in its version. -/
def setChainId (h : MergedHeader) (layout : Version.Layout) (chainId : ChainId) :
    Except VersionError MergedHeader :=
  (Editor.replaceChainId layout chainId).result h

/-- An edit of a header. -/
inductive Edit where
  /-- Starts the version afresh. -/
  | baseVersion (base : UInt32) (chainId : ChainId)
  /-- Replaces the chain id. -/
  | chainId (chainId : ChainId)
  /-- Sets or clears the flag. -/
  | flag (merged : Bool)
  /-- Attaches a proof. -/
  | attach (proof : AuxProof)
  /-- Detaches the proof. -/
  | detach

/-- The program of an edit, which gives the proof that it takes off, if any. -/
def Edit.program (layout : Version.Layout) : Edit → Editor (Option AuxProof)
  | .baseVersion base id => do
      Editor.startVersion layout base id
      return none
  | .chainId id => do
      Editor.replaceChainId layout id
      return none
  | .flag merged => do
      modify (·.setFlag layout merged)
      return none
  | .attach proof => do
      modify (·.attach layout proof)
      return none
  | .detach => modifyGet (·.detach)

/-- What an edit answers: the proof that it has taken off, if any, or why it has failed. -/
abbrev Answer := Except VersionError (Option AuxProof)

/-- What an edit does to a header: its answer, and the header that it leaves behind. -/
def edit (layout : Version.Layout) (h : MergedHeader) (e : Edit) : Answer × MergedHeader :=
  (e.program layout).runOn h

/-! ### Verdict -/

/-- Checks the work of a header itself against its target. -/
def checkOwnWork (h : MergedHeader) (params : Params) : Except Rejection Unit :=
  (Work.check (params.workHash.apply h.header) h.header.bits params.powLimit).mapError
    Rejection.ofWorkError

/-- Checks a proof for a header, and the parent's work against the target of the header. -/
def checkMergedWork (h : MergedHeader) (proof : AuxProof) (params : Params) :
    Except Rejection Unit :=
  match proof.check h.hash (h.fields params.layout).chainId params with
  | .error reason => .error reason
  | .ok () =>
      (Work.check (params.workHash.apply proof.parent) h.header.bits params.powLimit).mapError
        Rejection.ofWorkError

/-- Checks that a header carries enough work.  Without the flag it must meet its own target; with
the flag it must own a proof whose parent block meets both its own target and the header's. -/
def checkWork (h : MergedHeader) (params : Params) : Except Rejection Unit :=
  let fields := h.fields params.layout
  if params.strictChainId && !Version.isLegacy h.header.version
      && fields.chainId != params.chainId then
    .error (.wrongChainId params.chainId fields.chainId)
  else
    match fields.merged, h.proof with
    | false, some _ => .error .unexpectedProof
    | false, none => h.checkOwnWork params
    | true, none => .error .missingProof
    | true, some proof => h.checkMergedWork proof params

end MergedHeader

end MergedMining
