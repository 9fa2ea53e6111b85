import MergedMining.Json.Reader
import MergedMining.Params.Draft

/-!
# Consensus parameters in JSON

Parameters are a record; all its fields but the chain id have default values.

## Main definitions

* `Params.toJson` — writing.
* `Params.readJson` — reading, without judging the parameters.
-/

namespace MergedMining

namespace Version.Layout

/-- A layout in JSON. -/
def toJson (layout : Layout) : String :=
  "\x7b\"auxpow_flag_bit\":" ++ toString layout.flagBit ++ ",\"chain_id_shift\":" ++
    toString layout.shift ++ "\x7d"

/-- How the positions of a layout are read. -/
def jsonRecord : Json.Record Draft (UInt8 × UInt8) where
  name := "VersionLayoutRepr"
  empty := {}
  fields :=
    [⟨"auxpow_flag_bit", (·.flagBit.isSome), fun node => do
        let bit ← Json.unsigned 8 node
        return fun draft => { draft with flagBit := some (UInt8.ofNat bit) }⟩,
     ⟨"chain_id_shift", (·.shift.isSome), fun node => do
        let shift ← Json.unsigned 8 node
        return fun draft => { draft with shift := some (UInt8.ofNat shift) }⟩]
  complete draft := .ok draft.positions

/-- Reads a layout. -/
def jsonReader : Json.Reader Layout := fun node => do
  let (flagBit, shift) ← jsonRecord.read node
  (Decoding.layoutOf flagBit shift).mapError .mismatch

end Version.Layout

/-- Reads a work hash. -/
def WorkHash.jsonReader : Json.Reader WorkHash := fun node =>
  (Json.alternative WorkHash.sha256d.name node).map fun () => .sha256d

namespace Params

/-- Parameters in JSON. -/
def toJson (params : Params) : String :=
  "\x7b\"chain_id\":" ++ toString params.chainId.toNat ++
    ",\"strict_chain_id\":" ++ (if params.strictChainId then "true" else "false") ++
    ",\"max_merkle_height\":" ++ toString params.maxTreeHeight.toNat ++
    ",\"pow_algorithm\":\"" ++ params.workHash.name ++
    "\",\"pow_limit\":\"" ++ Hex.word params.powLimit ++
    "\",\"version_layout\":" ++ params.layout.toJson ++ "\x7d"

/-- How parameters are read. -/
def jsonRecord : Json.Record Draft Params where
  name := "ConsensusParams"
  empty := {}
  fields :=
    [⟨"chain_id", (·.chainId.isSome), fun node => do
        let chainId ← Json.word node
        return fun draft => { draft with chainId := some chainId }⟩,
     ⟨"strict_chain_id", (·.strictChainId.isSome), fun node => do
        let strict ← Json.boolean node
        return fun draft => { draft with strictChainId := some strict }⟩,
     ⟨"max_merkle_height", (·.maxTreeHeight.isSome), fun node => do
        let height ← Json.word node
        return fun draft => { draft with maxTreeHeight := some height }⟩,
     ⟨"pow_algorithm", (·.workHash.isSome), fun node => do
        let workHash ← WorkHash.jsonReader node
        return fun draft => { draft with workHash := some workHash }⟩,
     ⟨"pow_limit", (·.powLimit.isSome), fun node => do
        let bits ← Json.bits node
        return fun draft => { draft with powLimit := some bits }⟩,
     ⟨"version_layout", (·.layout.isSome), fun node => do
        let layout ← Version.Layout.jsonReader node
        return fun draft => { draft with layout := some layout }⟩]
  complete := Draft.complete

/-- Reads parameters from a JSON text. -/
def readJson (text : String) : Except Json.Error Params := Json.decode jsonRecord.read text

end Params

end MergedMining
