import MergedMining.Rejection

/-!
# Commitments in coinbase scripts

A parent block commits to the root of a merge-mining tree in the script of its coinbase: the root,
the number of the tree's leaves and the nonce of its slots, each in a fixed width, in front of them
perhaps a marker.  All other bytes of the script are free, so that the root is accepted only where
it can be read in one way: right behind the only marker, or, where there is no marker, near the
start.

## Main definitions

* `Commitment.marker` — the marker.
* `Commitment.locate` — where a script commits to a root.
* `Commitment.read` — the commitment to a root.
* `Commitment.payload` — the bytes of a commitment.
-/

namespace MergedMining

/-- A commitment as read from a script. -/
structure Commitment where
  /-- The root, in the order in which the script spells it. -/
  root : Hash256
  /-- The number of leaves. -/
  treeSize : UInt32
  /-- The nonce of the slots. -/
  nonce : UInt32
  /-- Where in the script the root starts. -/
  offset : Nat
  deriving DecidableEq

namespace Commitment

/-- The four bytes that may stand in front of a root. -/
def marker : Bytes := [0xfa, 0xbe, 0x6d, 0x6d]

/-- The last position at which a root without a marker may start. -/
def lastUnmarkedOffset : Nat := 20

/-- The first position at which `needle` occurs. -/
def firstIndex? (needle : Bytes) : Bytes → Option Nat
  | [] => if needle.isEmpty then some 0 else none
  | b :: bs =>
      if needle.isPrefixOf (b :: bs) then some 0 else (firstIndex? needle bs).map (· + 1)

/-- Where a script commits to a root. -/
inductive Location where
  /-- Nowhere: the root does not occur. -/
  | absent
  /-- Here, and nowhere else. -/
  | at (offset : Nat)
  /-- The script can be read in several ways. -/
  | ambiguous (kind : Ambiguity)
  deriving DecidableEq, Repr

/-- Whether the marker occurs again behind its first occurrence. -/
def hasSecondMarker (script : Bytes) : Bool :=
  match firstIndex? marker script with
  | some position => (firstIndex? marker (script.drop (position + 1))).isSome
  | none => false

/-- Finds where `script` commits to `root`. -/
def locate (script : Bytes) (root : Hash256) : Location :=
  if hasSecondMarker script then .ambiguous .multipleMarkers
  else
    match firstIndex? root.bytes script, firstIndex? marker script with
    | none, _ => .absent
    | some offset, some position =>
        if position + marker.length = offset then .at offset else .ambiguous .rootNotAfterMarker
    | some offset, none =>
        if offset ≤ lastUnmarkedOffset then .at offset else .ambiguous .rootTooLate

/-- Reads the commitment to `root`, which is to be the root of a tree of `height` levels. -/
def read (script : Bytes) (root : Hash256) (height : Nat) : Except Rejection Commitment :=
  match locate script root with
  | .absent => .error (.merkleRootMismatch .chainMerkle)
  | .ambiguous kind => .error (.ambiguousCommitment kind)
  | .at offset =>
      let trailer := script.drop (offset + 32)
      if trailer.length < 8 then .error .truncatedCommitment
      else
        let treeSize := Bytes.toUInt32 (trailer.take 4)
        if height < 64 && treeSize.toNat == 2 ^ height then
          .ok ⟨root, treeSize, Bytes.toUInt32 ((trailer.drop 4).take 4), offset⟩
        else .error (.treeSizeMismatch height treeSize)

/-- The bytes that commit to `root` as the root of a tree of `height` levels. -/
def payload (marked : Bool) (root : Hash256) (height : Nat) (nonce : UInt32) : Bytes :=
  (if marked then marker else []) ++ root.bytes ++ Bytes.ofNatLE 4 (2 ^ height) ++
    Bytes.ofUInt32 nonce

end Commitment

end MergedMining
