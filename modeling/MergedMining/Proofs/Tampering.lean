import Mathlib.Logic.Function.Basic
import MergedMining.Mining

/-!
# Tampering as addition

The carry through full bytes is what addition of one does to a number that is written with its least
significant byte first.  Only where every byte is full the carry is lost, and the number starts over
at zero.  So the hashes are counted round in a circle: none stays as it is, and none is reached from
two others.

## Main results

* `Bytes.toNatLE_increment` — the carry adds one, modulo what the bytes can hold.
* `Hash256.tampered_bijective`, `Hash256.tampered_ne` — tampering permutes the hashes, and moves all
  of them.
* `Hash256.tampering_counts` — all of this, and what it makes of the Merkle root of a header.
-/

namespace MergedMining

/-- **The carry adds one**, by induction on the bytes that it may run through. -/
theorem Bytes.toNatLE_increment (bs : Bytes) :
    toNatLE bs.increment = (toNatLE bs + 1) % 256 ^ bs.length := by
  induction bs with
  | nil => rfl
  | cons b bs ih =>
    rw [List.length_cons, Nat.pow_succ', increment]
    by_cases hfull : b = 0xff
    · -- the byte starts over, and the others are one more
      have hvalue : toNatLE (b :: bs) + 1 = 256 * (toNatLE bs + 1) := by
        rw [hfull]
        show 255 + 256 * toNatLE bs + 1 = _
        omega
      rw [if_pos hfull, hvalue, Nat.mul_mod_mul_left, ← ih]
      exact Nat.zero_add _
    · have hne : b.toNat ≠ 255 := fun h => hfull (UInt8.toNat_inj.mp h)
      have hb : b.toNat < 256 := b.toNat_lt
      have hbs := toNatLE_lt bs
      have hnext : (b + 1).toNat = b.toNat + 1 := by
        rw [UInt8.toNat_add, UInt8.toNat_one]
        omega
      rw [if_neg hfull, toNatLE, toNatLE, hnext, Nat.mod_eq_of_lt (by omega)]
      omega

namespace Hash256

theorem toNat_lt (x : Hash256) : x.toNat < 2 ^ 256 := by
  have hlt := Bytes.toNatLE_lt x.bytes
  rw [x.length_bytes] at hlt
  exact hlt

theorem toNat_injective : Function.Injective toNat := by
  intro x y h
  have hx := Bytes.ofNatLE_toNatLE x.bytes
  have hy := Bytes.ofNatLE_toNatLE y.bytes
  rw [x.length_bytes] at hx
  rw [y.length_bytes] at hy
  ext1
  rw [← hx, ← hy]
  exact congrArg (Bytes.ofNatLE 32) h

theorem toNat_ofNat (n : Nat) : (ofNat n).toNat = n % 2 ^ 256 := Bytes.toNatLE_ofNatLE 32 n

theorem toNat_tampered (x : Hash256) : x.tampered.toNat = (x.toNat + 1) % 2 ^ 256 := by
  have hnext := Bytes.toNatLE_increment x.bytes
  rw [x.length_bytes] at hnext
  exact hnext

/-- No hash is reached from two others, and each is reached from the number before its own. -/
theorem tampered_bijective : Function.Bijective tampered := by
  constructor
  · intro x y h
    have hnat := congrArg toNat h
    rw [toNat_tampered, toNat_tampered] at hnat
    have hx := x.toNat_lt
    have hy := y.toNat_lt
    apply toNat_injective
    omega
  · intro y
    have hy := y.toNat_lt
    refine ⟨ofNat (y.toNat + (2 ^ 256 - 1)), toNat_injective ?_⟩
    rw [toNat_tampered, toNat_ofNat]
    omega

theorem tampered_ne (x : Hash256) : x.tampered ≠ x := by
  intro h
  have hnat := congrArg toNat h
  rw [toNat_tampered] at hnat
  have hx := x.toNat_lt
  omega

/-- **Tampering counts round in a circle**: it adds one modulo `2 ^ 256`.  So it permutes the hashes
and leaves none of them as it is, and a header whose Merkle root is tampered with has another root,
and nothing else changed. -/
theorem tampering_counts :
    (∀ x : Hash256, x.tampered.toNat = (x.toNat + 1) % 2 ^ 256) ∧
      Function.Bijective tampered ∧ (∀ x : Hash256, x.tampered ≠ x) ∧
      ∀ header : BlockHeader, ∃ root, root ≠ header.merkleRoot ∧
        root.toNat = (header.merkleRoot.toNat + 1) % 2 ^ 256 ∧
        header.tamperMerkleRoot = { header with merkleRoot := root } := by
  refine ⟨toNat_tampered, tampered_bijective, tampered_ne, fun header => ?_⟩
  exact ⟨header.merkleRoot.tampered, tampered_ne _, toNat_tampered _, rfl⟩

-- thirty-two full bytes: the carry is lost behind the last one
example : (ofNat (2 ^ 256 - 1)).tampered = zero := by decide +kernel

end Hash256

end MergedMining
