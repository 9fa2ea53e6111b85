import MergedMining.Hex
import MergedMining.Slot

/-!
# Header versions

The 32-bit version of a merge-mined header packs three fields: a base version, the chain's id and a
flag that announces an attached proof.  A layout says where they stand.

## Main definitions

* `Version.Layout` — the positions of flag and chain id.
* `Version.Fields` — the three fields.
* `Version.Layout.decode`, `Version.Layout.encode` — unpacking and packing.
* `Version.Layout.withChainId`, `Version.Layout.withFlag`, `Version.Layout.fresh` — edits.
-/

namespace MergedMining

/-- A version as it stands in a header: thirty-two bits. -/
abbrev Version := UInt32

/-- Why a layout or a set of fields is refused. -/
inductive VersionError where
  /-- Flag and chain id overlap, or do not fit into thirty-two bits. -/
  | invalidLayout (flagBit shift : UInt8)
  /-- The base version uses bits that belong to another field. -/
  | baseVersionOutOfRange (base mask : UInt32)
  /-- The chain id needs more bits than stand above the shift. -/
  | chainIdOutOfRange (chainId : ChainId) (max : UInt32)
  deriving DecidableEq, Repr

/-- The wording of an error. -/
def VersionError.message : VersionError → String
  | .invalidLayout flagBit shift =>
      "invalid version layout (flag bit " ++ toString flagBit.toNat ++ ", chain id shift " ++
        toString shift.toNat ++ ")"
  | .baseVersionOutOfRange base mask =>
      "base version " ++ Hex.shortWord base ++ " doesn't fit mask " ++ Hex.shortWord mask
  | .chainIdOutOfRange chainId max =>
      "chain id " ++ toString chainId.toNat ++ " exceeds maximum " ++ toString max.toNat

namespace Version

/-- The signed number a version stands for. -/
def signed (version : Version) : Int :=
  if version.toNat < 0x80000000 then version.toNat else version.toNat - 0x100000000

/-- The version a signed number stands for, modulo `2 ^ 32`. -/
def ofSigned (n : Int) : Version := UInt32.ofNat (n % 0x100000000).toNat

/-- Whether a header with this version predates merged mining. -/
def isLegacy (version : Version) : Bool := version == 1

/-- The fields of a version. -/
structure Fields where
  /-- What is left of the version without flag and chain id. -/
  base : UInt32
  /-- The chain's id. -/
  chainId : ChainId
  /-- Whether a proof is announced. -/
  merged : Bool
  deriving DecidableEq, Repr

/-- Where the fields stand.  The chain id takes all bits from the shift on, the flag takes one bit
below it, and the other bits below it are the base version. -/
structure Layout where
  /-- The flag's bit. -/
  flagBit : Nat
  /-- The chain id's lowest bit. -/
  shift : Nat
  /-- The flag stands below the chain id. -/
  flagBit_lt : flagBit < shift
  /-- The chain id has at least one bit. -/
  shift_lt : shift < 32
  deriving DecidableEq, Repr

namespace Layout

/-- The flag at bit 8 and the chain id from bit 16 on. -/
def standard : Layout := ⟨8, 16, by decide, by decide⟩

instance : Inhabited Layout := ⟨standard⟩

/-- The layout with these positions. -/
def ofPositions (flagBit shift : UInt8) : Except VersionError Layout :=
  if h : flagBit.toNat < shift.toNat ∧ shift.toNat < 32 then
    .ok ⟨flagBit.toNat, shift.toNat, h.1, h.2⟩
  else .error (.invalidLayout flagBit shift)

variable (layout : Layout)

/-- The flag's bit set alone. -/
def flagMask : UInt32 := 1 <<< UInt32.ofNat layout.flagBit

/-- The bits that belong to the base version. -/
def baseMask : UInt32 := (1 <<< UInt32.ofNat layout.shift) - 1 &&& ~~~layout.flagMask

/-- The largest chain id that fits. -/
def maxChainId : UInt32 := 0xffffffff >>> UInt32.ofNat layout.shift

/-- The fields of a version. -/
def decode (version : Version) : Fields where
  base := version &&& layout.baseMask
  chainId := version >>> UInt32.ofNat layout.shift
  merged := version &&& layout.flagMask != 0

/-- The version with these fields; a base version that does not fit is found before a chain id
that does not fit. -/
def encode (fields : Fields) : Except VersionError Version :=
  if fields.base &&& ~~~layout.baseMask != 0 then
    .error (.baseVersionOutOfRange fields.base layout.baseMask)
  else if layout.maxChainId < fields.chainId then
    .error (.chainIdOutOfRange fields.chainId layout.maxChainId)
  else
    let unflagged := fields.base ||| fields.chainId <<< UInt32.ofNat layout.shift
    .ok (if fields.merged then unflagged ||| layout.flagMask else unflagged)

/-- The version with another chain id. -/
def withChainId (version : Version) (chainId : ChainId) : Except VersionError Version :=
  layout.encode { layout.decode version with chainId }

/-- The version with the flag set or cleared. -/
def withFlag (version : Version) (merged : Bool) : Version :=
  if merged then version ||| layout.flagMask else version &&& ~~~layout.flagMask

/-- A version with this base version and chain id, and no flag. -/
def fresh (base : UInt32) (chainId : ChainId) : Except VersionError Version :=
  layout.encode ⟨base, chainId, false⟩

end Layout

end Version

end MergedMining
