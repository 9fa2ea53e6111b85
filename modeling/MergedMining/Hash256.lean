import MergedMining.Hex
import MergedMining.Sha256

/-!
# 256-bit hashes

Hashes are kept in the byte order in which the hash function puts them out, and are compared with
targets as little-endian numbers.  For people they are written back to front.

## Main definitions

* `Hash256` — thirty-two bytes.
* `Hash256.ofMessage`, `Hash256.join` — double SHA-256 of a message, and of two hashes side by side.
* `Hash256.toNat` — the number a hash is compared by.
* `Hash256.display`, `Hash256.short` — how a hash is written.
-/

namespace MergedMining

/-- Thirty-two bytes, in the order in which a hash function puts them out. -/
structure Hash256 where
  /-- The bytes. -/
  bytes : Bytes
  /-- There are thirty-two of them. -/
  length_bytes : bytes.length = 32
  deriving DecidableEq

namespace Hash256

@[ext] theorem ext {x y : Hash256} (h : x.bytes = y.bytes) : x = y := by
  cases x; cases y; cases h; rfl

/-- The hash of these bytes, if there are thirty-two. -/
def ofBytes? (bs : Bytes) : Option Hash256 :=
  if h : bs.length = 32 then some ⟨bs, h⟩ else none

/-- The hash of the low 256 bits of a number, least significant byte first. -/
def ofNat (n : Nat) : Hash256 := ⟨Bytes.ofNatLE 32 n, Bytes.length_ofNatLE ..⟩

/-- The little-endian number by which a hash is compared with a target. -/
def toNat (x : Hash256) : Nat := Bytes.toNatLE x.bytes

/-- Thirty-two zero bytes. -/
def zero : Hash256 := ofNat 0

instance : Inhabited Hash256 := ⟨zero⟩

/-- The bytes back to front. -/
def reversed (x : Hash256) : Hash256 := ⟨x.bytes.reverse, by simp [x.length_bytes]⟩

@[simp] theorem reversed_reversed (x : Hash256) : x.reversed.reversed = x := by
  ext1; simp [reversed]

/-- Double SHA-256 of a message. -/
def ofMessage (message : Bytes) : Hash256 :=
  ⟨Sha256.digest (Sha256.digest message), Sha256.length_digest _⟩

/-- The hash of an inner tree node: double SHA-256 of its two children side by side. -/
def join (left right : Hash256) : Hash256 := ofMessage (left.bytes ++ right.bytes)

/-- Orders hashes by their first differing byte. -/
def order (x y : Hash256) : Ordering := compareLex x.bytes y.bytes
where
  /-- Lexicographic order of byte strings. -/
  compareLex : Bytes → Bytes → Ordering
    | [], [] => .eq
    | [], _ :: _ => .lt
    | _ :: _, [] => .gt
    | a :: as, b :: bs => (compare a b).then (compareLex as bs)

/-! ### Writing -/

/-- All bytes in storage order. -/
def hex (x : Hash256) : String := Hex.encode x.bytes

/-- All bytes back to front, as block explorers write them. -/
def display (x : Hash256) : String := x.reversed.hex

/-- The first and the last three bytes in storage order. -/
def short (x : Hash256) : String :=
  Hex.encode (x.bytes.take 3) ++ ".." ++ Hex.encode (x.bytes.drop 29)

end Hash256

end MergedMining
