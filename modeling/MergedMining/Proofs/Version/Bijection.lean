import Mathlib.Data.Set.Function
import MergedMining.Proofs.Version.Packing

/-!
# Versions are their fields

The three fields share out the thirty-two bits of a version: under every layout each bit belongs to
exactly one of them.  So unpacking loses nothing, whatever the version and whatever its sign, and
what it reaches are exactly the fields that can be packed.  Which ones those are can be said without
masks: the base version keeps off the bits of the others, and the chain id has no more bits than
stand above the shift.

## Main definitions

* `Version.Layout.Intrudes` — a base version has a bit that belongs to another field.

## Main results

* `Version.Layout.pack_decode` — packing undoes unpacking.
* `Version.Layout.decode_bijOn` — unpacking is one to one.
* `Version.Layout.packing_bijective` — so it is for signed versions, and fields that cannot be
  packed are refused for the bits that do not fit.
-/

namespace MergedMining.Version

/-! ### Signed versions -/

theorem toNat_toUInt32 (v : Int32) : v.toUInt32.toNat = v.toBitVec.toNat := by
  rw [← UInt32.toNat_toBitVec, Int32.toBitVec_toUInt32]

theorem ofSigned_toInt (v : Int32) : ofSigned v.toInt = v.toUInt32 := by
  apply UInt32.toNat_inj.mp
  have hlt : v.toBitVec.toNat < 4294967296 := v.toBitVec.isLt
  rw [ofSigned, UInt32.toNat_ofNat', toNat_toUInt32, ← Int32.toInt_toBitVec,
    BitVec.toInt_eq_toNat_cond]
  split
  all_goals omega

theorem signed_toUInt32 (v : Int32) : signed v.toUInt32 = v.toInt := by
  rw [signed, toNat_toUInt32, ← Int32.toInt_toBitVec, BitVec.toInt_eq_toNat_cond]
  split
  all_goals split
  all_goals omega

theorem ofSigned_bijective : Function.Bijective fun v : Int32 => ofSigned v.toInt := by
  simp only [ofSigned_toInt]
  refine ⟨fun v w h => ?_, fun version => ⟨version.toInt32, version.toUInt32_toInt32⟩⟩
  have hsigned := congrArg signed h
  simp only [signed_toUInt32] at hsigned
  exact Int32.toInt_inj.mp hsigned

namespace Layout

variable (layout : Layout)

/-! ### Unpacking loses nothing -/

theorem decode_chainId_le (version : Version) :
    (layout.decode version).chainId ≤ layout.maxChainId := by
  rw [le_maxChainId_iff, decode_chainId_toNat, Nat.div_lt_iff_lt_mul (Nat.two_pow_pos _),
    ← layout.two_pow_split]
  exact version.toNat_lt

/-- **Packing undoes unpacking**: every bit of the version is found in one of the fields. -/
theorem pack_decode (version : Version) : layout.pack (layout.decode version) = version := by
  refine ext_testBit fun i => ?_
  have hflag := layout.flagBit_lt
  rw [testBit_pack (layout.decode_chainId_le version), testBit_decode_base, testBit_decode_chainId,
    decode_merged]
  -- a bit stands above the shift, at the flag, or elsewhere below the shift
  by_cases hshift : layout.shift ≤ i
  · have hne : i ≠ layout.flagBit := by omega
    rw [Nat.add_sub_cancel' hshift]
    simp [hshift, hne]
  · by_cases hi : i = layout.flagBit
    · simp [hi, hflag]
    · simp [hi, Nat.lt_of_not_le hshift, hshift]

theorem encode_decode (version : Version) : layout.encode (layout.decode version) = .ok version :=
  encode_eq_ok_iff.mpr
    ⟨layout.fitsBase_decode version, layout.decode_chainId_le version, layout.pack_decode version⟩

/-- Unpacking is one to one, and reaches the fields that can be packed. -/
theorem decode_bijOn :
    Set.BijOn layout.decode Set.univ {fields | ∃ version, layout.encode fields = .ok version} := by
  refine ⟨fun version _ => ⟨version, layout.encode_decode version⟩, fun v _ w _ h => ?_, ?_⟩
  · have hv := layout.encode_decode v
    rw [h, encode_decode, Except.ok.injEq] at hv
    exact hv.symm
  · rintro fields ⟨version, hencode⟩
    exact ⟨version, Set.mem_univ _, decode_of_encode hencode⟩

/-! ### Fields that cannot be packed -/

/-- Some bit of a base version is the flag's, or belongs to the chain id. -/
def Intrudes (base : UInt32) : Prop :=
  ∃ i, base.toNat.testBit i = true ∧ (layout.shift ≤ i ∨ i = layout.flagBit)

theorem intrudes_iff {base : UInt32} : layout.Intrudes base ↔ ¬ layout.FitsBase base := by
  unfold Intrudes FitsBase
  push Not
  refine exists_congr fun i => and_congr_right fun _ => ?_
  rw [testBit_baseMask, Ne, decide_eq_true_eq]
  omega

/-- The three answers of packing; a base version that intrudes is found before a chain id that is
too large. -/
theorem encode_cases (fields : Fields) :
    (layout.Intrudes fields.base ∧ layout.encode fields =
        .error (.baseVersionOutOfRange fields.base layout.baseMask)) ∨
      (¬ layout.Intrudes fields.base ∧ 2 ^ (32 - layout.shift) ≤ fields.chainId.toNat ∧
        layout.encode fields = .error (.chainIdOutOfRange fields.chainId layout.maxChainId)) ∨
      (¬ layout.Intrudes fields.base ∧ fields.chainId.toNat < 2 ^ (32 - layout.shift) ∧
        layout.encode fields = .ok (layout.pack fields)) := by
  rw [encode_eq]
  by_cases hbase : layout.FitsBase fields.base
  case neg => exact .inl ⟨layout.intrudes_iff.mpr hbase, if_pos hbase⟩
  have hfits : ¬ layout.Intrudes fields.base := fun h => layout.intrudes_iff.mp h hbase
  rw [if_neg (not_not_intro hbase)]
  by_cases hid : fields.chainId ≤ layout.maxChainId
  · rw [if_neg (not_not_intro hid)]
    exact .inr (.inr ⟨hfits, layout.le_maxChainId_iff.mp hid, rfl⟩)
  · rw [if_pos hid]
    have hlarge := mt layout.le_maxChainId_iff.mpr hid
    exact .inr (.inl ⟨hfits, Nat.le_of_not_lt hlarge, rfl⟩)

/-- **Versions are their fields.**  Packing takes back the fields of every version, negative ones
included.  Of all fields, those whose base version has a bit at or above the shift, or the flag's,
are refused for it; of the others, those whose chain id has more bits than stand above the shift are
refused for that; and all that are left are packed into a version that they are unpacked from.  So
unpacking is one to one from the signed numbers of 32 bits onto the fields that can be packed. -/
theorem packing_bijective :
    (∀ v : Int32, (layout.encode (layout.decode (ofSigned v.toInt))).map signed = .ok v.toInt) ∧
    (∀ fields : Fields,
      (layout.encode fields = .error (.baseVersionOutOfRange fields.base layout.baseMask) ↔
        layout.Intrudes fields.base) ∧
      (layout.encode fields = .error (.chainIdOutOfRange fields.chainId layout.maxChainId) ↔
        ¬ layout.Intrudes fields.base ∧ 2 ^ (32 - layout.shift) ≤ fields.chainId.toNat) ∧
      ((∃ version, layout.encode fields = .ok version ∧ layout.decode version = fields) ↔
        ¬ layout.Intrudes fields.base ∧ fields.chainId.toNat < 2 ^ (32 - layout.shift))) ∧
    Set.BijOn (fun v : Int32 => layout.decode (ofSigned v.toInt)) Set.univ
      {fields | ∃ version, layout.encode fields = .ok version} := by
  refine ⟨fun v => ?_, fun fields => ?_,
    layout.decode_bijOn.comp (Set.bijOn_univ.mpr ofSigned_bijective)⟩
  · rw [encode_decode, ofSigned_toInt, Except.map, signed_toUInt32]
  · -- of the three answers, each is given under its own condition
    rcases layout.encode_cases fields with ⟨hbase, heq⟩ | ⟨hbase, hid, heq⟩ | ⟨hbase, hid, heq⟩
    · simp [heq, hbase]
    · simp [heq, hbase, hid]
    · have hdecode := decode_of_encode heq
      simp [heq, hbase, hid, hdecode]

/-- With the chain id in the highest bit alone and the flag right below it, `-1` has all bits of all
fields. -/
example : decode ⟨30, 31, by decide, by decide⟩ (ofSigned (-1)) = ⟨0x3fffffff, 1, true⟩ := by
  decide

end Layout

end MergedMining.Version
