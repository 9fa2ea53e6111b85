import MergedMining.BlockHeader

/-!
# Mining

Searching for a nonce with which a header meets a target, or misses it.

## Main definitions

* `BlockHeader.mine` — the header with the least nonce that serves.
* `Hash256.tampered` — the next hash, for spoiling one.
-/

namespace MergedMining

namespace BlockHeader

/-- The header with another nonce. -/
def withNonce (header : BlockHeader) (nonce : UInt32) : BlockHeader := { header with nonce }

/-- The first of the next `remaining` nonces, from `nonce` on, that passes a test. -/
def searchNonce (test : UInt32 → Bool) : (remaining nonce : Nat) → Option UInt32
  | 0, _ => none
  | remaining + 1, nonce =>
      if test (UInt32.ofNat nonce) then some (UInt32.ofNat nonce)
      else searchNonce test remaining (nonce + 1)

/-- Whether the header meets the target of `bits`, which is expanded without being judged. -/
def meetsBits (header : BlockHeader) (bits : UInt32) (workHash : WorkHash) : Bool :=
  (workHash.apply header).meets (Target.ofCompact bits)

/-- The header with the least nonce for which it meets the target of `bits`, or misses it if `meet`
is false.  Nothing is found if no nonce serves. -/
def mine (header : BlockHeader) (meet : Bool) (bits : UInt32) (workHash : WorkHash) :
    Option BlockHeader :=
  (searchNonce (fun nonce => (header.withNonce nonce).meetsBits bits workHash == meet)
    UInt32.size 0).map header.withNonce

end BlockHeader

/-- One more, as a little-endian number: the carry runs on through full bytes and is lost after
the last. -/
def Bytes.increment : Bytes → Bytes
  | [] => []
  | b :: bs => if b = 0xff then 0 :: increment bs else (b + 1) :: bs

@[simp] theorem Bytes.length_increment (bs : Bytes) : (increment bs).length = bs.length := by
  induction bs with
  | nil => rfl
  | cons b bs ih => by_cases h : b = 0xff <;> simp [increment, h, ih]

/-- The next hash, as a little-endian number modulo `2 ^ 256`. -/
def Hash256.tampered (x : Hash256) : Hash256 :=
  ⟨x.bytes.increment, by simp [x.length_bytes]⟩

/-- The header with the next hash in place of its Merkle root. -/
def BlockHeader.tamperMerkleRoot (header : BlockHeader) : BlockHeader :=
  { header with merkleRoot := header.merkleRoot.tampered }

end MergedMining
