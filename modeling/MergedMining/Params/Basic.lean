import MergedMining.BlockHeader

/-!
# Consensus parameters

The rules a chain's headers are judged by.

## Main definitions

* `Params` — the rules.
* `Params.standard`, `Params.regtest` — presets for a chain.
* `Params.validate` — whether the rules agree with each other.
-/

namespace MergedMining

/-- The rules a chain's headers are judged by. -/
structure Params where
  /-- The id of the chain. -/
  chainId : ChainId
  /-- Whether headers must carry the chain's id, and parent blocks another one. -/
  strictChainId : Bool := true
  /-- How many levels a merge-mining tree may have. -/
  maxTreeHeight : UInt32 := 30
  /-- What work is measured by. -/
  workHash : WorkHash := .sha256d
  /-- The easiest target a header may claim, as a compact word. -/
  powLimit : UInt32 := 0x1d00ffff
  /-- Where the fields of a version stand. -/
  layout : Version.Layout := .standard
  deriving DecidableEq

/-- Why rules do not agree with each other. -/
inductive ParamsError where
  /-- The chain's own headers could not carry its id. -/
  | version (error : VersionError)
  /-- Trees could be higher than is supported. -/
  | treeTooHigh (height max : UInt32)
  /-- The easiest target is no usable target. -/
  | powLimit (error : TargetError)
  deriving DecidableEq, Repr

/-- The wording of an error and of what caused it. -/
def ParamsError.messages : ParamsError → List String
  | .version error => ["invalid version layout: " ++ error.message, error.message]
  | .treeTooHigh height max =>
      ["max merkle height " ++ toString height.toNat ++ " exceeds supported maximum " ++
        toString max.toNat]
  | .powLimit error => ["invalid pow limit: " ++ error.message, error.message]

/-- The wording of an error. -/
def ParamsError.message (error : ParamsError) : String := error.messages.headD ""

namespace Params

/-- How high a tree may be at most, whatever the parameters say. -/
def supportedTreeHeight : UInt32 := 30

/-- The rules of a chain with the usual choices. -/
def standard (chainId : ChainId) : Params := { chainId }

/-- The rules of a chain for trying out, where about every other hash meets the easiest target. -/
def regtest (chainId : ChainId) : Params := { chainId, powLimit := 0x207fffff }

/-- Checks that the rules agree with each other: a supported tree height, a chain id that versions
can carry, and a usable easiest target. -/
def validate (params : Params) : Except ParamsError Unit :=
  if supportedTreeHeight < params.maxTreeHeight then
    .error (.treeTooHigh params.maxTreeHeight supportedTreeHeight)
  else
    match params.layout.fresh 0 params.chainId with
    | .error error => .error (.version error)
    | .ok _ =>
        match Target.decode params.powLimit with
        | .error error => .error (.powLimit error)
        | .ok _ => .ok ()

/-- The parameters themselves, if they agree with each other. -/
def validated (params : Params) : Except ParamsError Params :=
  match params.validate with
  | .error error => .error error
  | .ok () => .ok params

end Params

end MergedMining
