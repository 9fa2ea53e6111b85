import MergedMining.Params.Draft
import MergedMining.Toml.Reader

/-!
# Consensus parameters in TOML

Parameters are the entries of a document; the layout has a section of its own when it is written,
and may be any kind of table, or an array, when it is read.

## Main definitions

* `Params.toToml` — writing.
* `Params.readToml` — reading, without judging the parameters.
-/

namespace MergedMining

/-- How the positions of a layout are read. -/
def Version.Layout.tomlRecord : Toml.Record Draft (UInt8 × UInt8) where
  name := "VersionLayoutRepr"
  empty := {}
  fields :=
    [⟨"auxpow_flag_bit", (·.flagBit.isSome), fun item => do
        let bit ← Toml.unsigned 8 item
        return fun draft => { draft with flagBit := some (UInt8.ofNat bit) }⟩,
     ⟨"chain_id_shift", (·.shift.isSome), fun item => do
        let shift ← Toml.unsigned 8 item
        return fun draft => { draft with shift := some (UInt8.ofNat shift) }⟩]
  complete draft := .ok draft.positions

/-- Reads a layout. -/
def Version.Layout.tomlReader : Toml.Reader Version.Layout := fun item => do
  let (flagBit, shift) ← tomlRecord.read item
  (Decoding.layoutOf flagBit shift).mapError (.mismatch · [])

/-- Reads a work hash, in a document of these sections. -/
def WorkHash.tomlReader (sections : List Toml.Section) : Toml.Reader WorkHash := fun item =>
  (Toml.alternative sections WorkHash.sha256d.name item).map fun () => .sha256d

namespace Params

/-- Parameters in TOML.  A document cannot be written if a value has no form in TOML, or if an entry
would have to stand behind a section.  Neither happens here, whatever the parameters are, and so no
error is part of the type: all values are numbers, truth values and texts, and the one section comes
last. -/
def toToml (params : Params) : String :=
  "chain_id = " ++ toString params.chainId.toNat ++
    "\nstrict_chain_id = " ++ (if params.strictChainId then "true" else "false") ++
    "\nmax_merkle_height = " ++ toString params.maxTreeHeight.toNat ++
    "\npow_algorithm = \"" ++ params.workHash.name ++
    "\"\npow_limit = \"" ++ Hex.word params.powLimit ++
    "\"\n\n[version_layout]\nauxpow_flag_bit = " ++ toString params.layout.flagBit ++
    "\nchain_id_shift = " ++ toString params.layout.shift ++ "\n"

/-- How parameters are read in a document of these sections. -/
def tomlRecord (sections : List Toml.Section) : Toml.Record Draft Params where
  name := "ConsensusParams"
  empty := {}
  fields :=
    [⟨"chain_id", (·.chainId.isSome), fun item => do
        let chainId ← Toml.word item
        return fun draft => { draft with chainId := some chainId }⟩,
     ⟨"strict_chain_id", (·.strictChainId.isSome), fun item => do
        let strict ← Toml.boolean item
        return fun draft => { draft with strictChainId := some strict }⟩,
     ⟨"max_merkle_height", (·.maxTreeHeight.isSome), fun item => do
        let height ← Toml.word item
        return fun draft => { draft with maxTreeHeight := some height }⟩,
     ⟨"pow_algorithm", (·.workHash.isSome), fun item => do
        let workHash ← WorkHash.tomlReader sections item
        return fun draft => { draft with workHash := some workHash }⟩,
     ⟨"pow_limit", (·.powLimit.isSome), fun item => do
        let bits ← Toml.bits item
        return fun draft => { draft with powLimit := some bits }⟩,
     ⟨"version_layout", (·.layout.isSome), fun item => do
        let layout ← Version.Layout.tomlReader item
        return fun draft => { draft with layout := some layout }⟩]
  complete := Draft.complete

/-- Reads parameters from a TOML text. -/
def readToml (text : String) : Except Toml.Error Params :=
  match Toml.Document.ofText? text with
  | none => .error .malformed
  | some document => (tomlRecord document.sections).readDocument document

end Params

end MergedMining
