import MergedMining.Params.Basic

/-!
# Parameters in the making

Parameter files give fields in any order and may leave most of them out.  What has been read so far
is a draft; the text formats share how a draft is completed.

## Main definitions

* `Params.Draft`, `Version.Layout.Draft` — what has been read.
* `Params.Draft.complete` — the parameters of a draft.
-/

namespace MergedMining

/-- The name of a work hash. -/
def WorkHash.name : WorkHash → String
  | .sha256d => "sha256d"

namespace Version.Layout

/-- What has been read of a layout. -/
structure Draft where
  /-- The flag's bit. -/
  flagBit : Option UInt8 := none
  /-- The chain id's lowest bit. -/
  shift : Option UInt8 := none

/-- The positions of a draft; those that are missing are the standard ones. -/
def Draft.positions (draft : Draft) : UInt8 × UInt8 :=
  (draft.flagBit.getD 8, draft.shift.getD 16)

end Version.Layout

namespace Params

/-- What has been read of parameters. -/
structure Draft where
  /-- The chain id. -/
  chainId : Option ChainId := none
  /-- Whether the chain id is binding. -/
  strictChainId : Option Bool := none
  /-- How high trees may be. -/
  maxTreeHeight : Option UInt32 := none
  /-- What work is measured by. -/
  workHash : Option WorkHash := none
  /-- The easiest target. -/
  powLimit : Option UInt32 := none
  /-- Where the fields of a version stand. -/
  layout : Option Version.Layout := none

/-- The parameters of a draft, with default values for what is missing; the chain id has none. -/
def Draft.complete (draft : Draft) : Except String Params :=
  match draft.chainId with
  | none => .error "chain_id"
  | some chainId =>
      let base := standard chainId
      .ok { base with
        strictChainId := draft.strictChainId.getD base.strictChainId
        maxTreeHeight := draft.maxTreeHeight.getD base.maxTreeHeight
        workHash := draft.workHash.getD base.workHash
        powLimit := draft.powLimit.getD base.powLimit
        layout := draft.layout.getD base.layout }

end Params

end MergedMining
