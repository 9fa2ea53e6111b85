import MergedMining.Proofs.Version.Fields

/-!
# Packed versions

Masks and shifts act on the bits of a version one by one.  Here every bit of a version is traced to
the field it belongs to, so that packing and unpacking undo each other, and a change of one field
leaves the bits of the others alone.

## Main definitions

* `Version.Layout.FitsBase` — a base version leaves the bits of the other fields alone.
* `Version.Layout.pack` — the word in which fields stand where the layout puts them.

## Main results

* `Version.Layout.testBit_baseMask`, `Version.Layout.maxChainId_toNat` — what mask and maximum say.
* `Version.Layout.decode_pack` — fields that fit are read back.
* `Version.Layout.decode_chainId_of_fresh` — a fresh version carries its chain id.
* `Version.Layout.decode_withFlag` — the flag is changed alone.
-/

namespace MergedMining.Version.Layout

attribute [ext] Fields

/-! ### Bits -/

theorem testBit_toNat_not (w : UInt32) (i : Nat) :
    (~~~w).toNat.testBit i = (decide (i < 32) && !w.toNat.testBit i) := by
  rw [← UInt32.toNat_toBitVec, ← UInt32.toNat_toBitVec, UInt32.toBitVec_not, BitVec.testBit_toNat,
    BitVec.testBit_toNat, BitVec.getLsbD_not]

theorem lt_of_testBit_toNat {w : UInt32} {i : Nat} (h : w.toNat.testBit i = true) : i < 32 := by
  refine Nat.lt_of_not_le fun hle => ?_
  have hlt : w.toNat < 2 ^ i :=
    Nat.lt_of_lt_of_le w.toNat_lt (Nat.pow_le_pow_right (by decide) hle)
  rw [Nat.testBit_lt_two_pow hlt] at h
  cases h

theorem ext_testBit {v w : UInt32} (h : ∀ i, v.toNat.testBit i = w.toNat.testBit i) : v = w :=
  UInt32.toNat_inj.mp (Nat.eq_of_testBit_eq h)

variable (layout : Layout)

@[simp] theorem testBit_flagMask (i : Nat) :
    layout.flagMask.toNat.testBit i = decide (i = layout.flagBit) := by
  rw [flagMask_toNat, Nat.testBit_two_pow]
  simp [eq_comm]

theorem one_le_shifted : (1 : UInt32) ≤ 1 <<< UInt32.ofNat layout.shift := by
  rw [UInt32.le_iff_toNat_le, toNat_one_shiftLeft layout.shift_lt]
  exact Nat.two_pow_pos _

/-- The bits of the base version are those below the shift, except for the flag. -/
@[simp] theorem testBit_baseMask (i : Nat) :
    layout.baseMask.toNat.testBit i = decide (i < layout.shift ∧ i ≠ layout.flagBit) := by
  have hone := toNat_one_shiftLeft layout.shift_lt
  rw [baseMask, UInt32.toNat_and, UInt32.toNat_sub_of_le _ _ layout.one_le_shifted, hone,
    UInt32.toNat_one, Nat.testBit_and, Nat.testBit_two_pow_sub_one, testBit_toNat_not,
    testBit_flagMask]
  by_cases hi : i < layout.shift
  · have h32 : i < 32 := Nat.lt_trans hi layout.shift_lt
    simp [hi, h32]
  · simp [hi]

theorem testBit_decode_base (version : Version) (i : Nat) :
    (layout.decode version).base.toNat.testBit i =
      (version.toNat.testBit i && decide (i < layout.shift ∧ i ≠ layout.flagBit)) := by
  rw [decode, UInt32.toNat_and, Nat.testBit_and, testBit_baseMask]

theorem testBit_decode_chainId (version : Version) (i : Nat) :
    (layout.decode version).chainId.toNat.testBit i = version.toNat.testBit (layout.shift + i) := by
  rw [decode_chainId_toNat, Nat.testBit_div_two_pow, Nat.add_comm]

/-- The bits of a word are those from the shift on and those below it. -/
theorem two_pow_split : 2 ^ 32 = 2 ^ (32 - layout.shift) * 2 ^ layout.shift := by
  rw [← Nat.pow_add, Nat.sub_add_cancel (Nat.le_of_lt layout.shift_lt)]

theorem maxChainId_toNat : layout.maxChainId.toNat = 2 ^ (32 - layout.shift) - 1 := by
  have hfull : (0xffffffff : UInt32).toNat = 2 ^ 32 - 1 := rfl
  have hsplit := layout.two_pow_split
  have hpos : 0 < 2 ^ layout.shift := Nat.two_pow_pos _
  rw [maxChainId, UInt32.toNat_shiftRight, toNat_ofNat_mod layout.shift_lt,
    Nat.shiftRight_eq_div_pow, hfull]
  refine Nat.div_eq_of_lt_le ?_ ?_
  · rw [hsplit, Nat.sub_mul, Nat.one_mul]
    omega
  · rw [Nat.sub_add_cancel (Nat.two_pow_pos _), ← hsplit]
    decide

theorem le_maxChainId_iff {chainId : ChainId} :
    chainId ≤ layout.maxChainId ↔ chainId.toNat < 2 ^ (32 - layout.shift) := by
  have hpos : 0 < 2 ^ (32 - layout.shift) := Nat.two_pow_pos _
  rw [UInt32.le_iff_toNat_le, maxChainId_toNat]
  omega

/-! ### Packing -/

/-- Every bit of a base version belongs to it. -/
def FitsBase (base : UInt32) : Prop :=
  ∀ i, base.toNat.testBit i = true → layout.baseMask.toNat.testBit i = true

theorem base_test_iff (base : UInt32) :
    (base &&& ~~~layout.baseMask != 0) = true ↔ ¬ layout.FitsBase base := by
  rw [bne_iff_ne, not_iff_not]
  constructor
  · intro hzero i hi
    have hbit : (base &&& ~~~layout.baseMask).toNat.testBit i = false := by
      rw [hzero, UInt32.toNat_zero, Nat.zero_testBit]
    rw [UInt32.toNat_and, Nat.testBit_and, testBit_toNat_not, hi,
      decide_eq_true (lt_of_testBit_toNat hi)] at hbit
    simpa using hbit
  · intro hfits
    refine ext_testBit fun i => ?_
    rw [UInt32.toNat_and, Nat.testBit_and, testBit_toNat_not, UInt32.toNat_zero, Nat.zero_testBit]
    cases hi : base.toNat.testBit i with
    | false => rfl
    | true => rw [hfits i hi]; simp

instance (base : UInt32) : Decidable (layout.FitsBase base) :=
  decidable_of_iff (¬ (base &&& ~~~layout.baseMask != 0) = true)
    ((not_congr (layout.base_test_iff base)).trans Classical.not_not)

/-- The word in which the fields stand where the layout puts them. -/
def pack (fields : Fields) : Version :=
  let unflagged := fields.base ||| fields.chainId <<< UInt32.ofNat layout.shift
  if fields.merged then unflagged ||| layout.flagMask else unflagged

variable {layout}

theorem testBit_pack {fields : Fields} (hid : fields.chainId ≤ layout.maxChainId) (i : Nat) :
    (layout.pack fields).toNat.testBit i =
      (fields.base.toNat.testBit i ||
        (decide (layout.shift ≤ i) && fields.chainId.toNat.testBit (i - layout.shift)) ||
        (fields.merged && decide (i = layout.flagBit))) := by
  -- the chain id is not cut off above the word
  have hshifted : (fields.chainId <<< UInt32.ofNat layout.shift).toNat =
      fields.chainId.toNat <<< layout.shift := by
    have hlt : fields.chainId.toNat <<< layout.shift < 2 ^ 32 := by
      rw [Nat.shiftLeft_eq]
      calc fields.chainId.toNat * 2 ^ layout.shift
          < 2 ^ (32 - layout.shift) * 2 ^ layout.shift :=
            Nat.mul_lt_mul_of_pos_right (layout.le_maxChainId_iff.mp hid) (Nat.two_pow_pos _)
        _ = 2 ^ 32 := layout.two_pow_split.symm
    rw [UInt32.toNat_shiftLeft, toNat_ofNat_mod layout.shift_lt, Nat.mod_eq_of_lt hlt]
  unfold pack
  cases fields.merged with
  | false => simp [hshifted, Nat.testBit_shiftLeft]
  | true => simp [hshifted, Nat.testBit_shiftLeft]

/-- **Unpacking undoes packing** for fields that fit. -/
theorem decode_pack {fields : Fields} (hbase : layout.FitsBase fields.base)
    (hid : fields.chainId ≤ layout.maxChainId) : layout.decode (layout.pack fields) = fields := by
  have hflag := layout.flagBit_lt
  have hbits : ∀ i, fields.base.toNat.testBit i = true → i < layout.shift ∧ i ≠ layout.flagBit := by
    intro i hi
    simpa using hbase i hi
  have hbase' : (layout.decode (layout.pack fields)).base = fields.base := by
    refine ext_testBit fun i => ?_
    rw [testBit_decode_base, testBit_pack hid]
    by_cases hi : i < layout.shift ∧ i ≠ layout.flagBit
    · simp [hi.1, hi.2]
    · rw [decide_eq_false hi, Bool.and_false, Bool.eq_false_of_not_eq_true (mt (hbits i) hi)]
  have hid' : (layout.decode (layout.pack fields)).chainId = fields.chainId := by
    refine ext_testBit fun i => ?_
    have hnone : fields.base.toNat.testBit (layout.shift + i) = false :=
      Bool.eq_false_of_not_eq_true fun h => by have := (hbits _ h).1; omega
    rw [testBit_decode_chainId, testBit_pack hid, hnone,
      decide_eq_false (show layout.shift + i ≠ layout.flagBit by omega)]
    simp
  have hflag' : (layout.decode (layout.pack fields)).merged = fields.merged := by
    have hnone : fields.base.toNat.testBit layout.flagBit = false :=
      Bool.eq_false_of_not_eq_true fun h => (hbits _ h).2 rfl
    rw [decode_merged, testBit_pack hid, hnone]
    simp [hflag]
  exact Fields.ext hbase' hid' hflag'

theorem encode_eq (layout : Layout) (fields : Fields) :
    layout.encode fields =
      if ¬ layout.FitsBase fields.base then
        .error (.baseVersionOutOfRange fields.base layout.baseMask)
      else if ¬ fields.chainId ≤ layout.maxChainId then
        .error (.chainIdOutOfRange fields.chainId layout.maxChainId)
      else .ok (layout.pack fields) := by
  simp only [encode, layout.base_test_iff, UInt32.not_le]
  rfl

/-- Fields that fit are packed, and no others. -/
theorem encode_eq_ok_iff {fields : Fields} {version : Version} :
    layout.encode fields = .ok version ↔
      layout.FitsBase fields.base ∧ fields.chainId ≤ layout.maxChainId ∧
        layout.pack fields = version := by
  rw [encode_eq]
  by_cases hbase : layout.FitsBase fields.base
  case neg => simp [hbase]
  by_cases hid : fields.chainId ≤ layout.maxChainId
  case neg => simp [hbase, hid]
  simp [hbase, hid]

/-- **What has been packed is unpacked again.** -/
theorem decode_of_encode {fields : Fields} {version : Version}
    (h : layout.encode fields = .ok version) : layout.decode version = fields := by
  obtain ⟨hbase, hid, rfl⟩ := encode_eq_ok_iff.mp h
  exact decode_pack hbase hid

/-- **A fresh version carries its chain id.** -/
theorem decode_chainId_of_fresh {base : UInt32} {chainId : ChainId} {version : Version}
    (h : layout.fresh base chainId = .ok version) : (layout.decode version).chainId = chainId := by
  rw [decode_of_encode h]

/-- Without a base version, only the chain id can be too large. -/
theorem exists_fresh_zero_iff {chainId : ChainId} :
    (∃ version, layout.fresh 0 chainId = .ok version) ↔ chainId ≤ layout.maxChainId := by
  have hbase : layout.FitsBase 0 := by
    intro i hi
    rw [UInt32.toNat_zero, Nat.zero_testBit] at hi
    cases hi
  rw [fresh, encode_eq, if_neg (not_not_intro hbase)]
  by_cases hid : chainId ≤ layout.maxChainId
  · rw [if_neg (not_not_intro hid)]
    exact iff_of_true ⟨_, rfl⟩ hid
  · rw [if_pos hid]
    exact iff_of_false (by rintro ⟨version, ⟨⟩⟩) hid

theorem fitsBase_decode (layout : Layout) (version : Version) :
    layout.FitsBase (layout.decode version).base := by
  intro i hi
  rw [testBit_decode_base, Bool.and_eq_true] at hi
  rw [testBit_baseMask]
  exact hi.2

theorem testBit_withFlag (layout : Layout) (version : Version) (merged : Bool) (i : Nat) :
    (layout.withFlag version merged).toNat.testBit i =
      if i = layout.flagBit then merged else version.toNat.testBit i := by
  unfold withFlag
  cases merged with
  | true =>
    by_cases hi : i = layout.flagBit
    · simp [hi]
    · simp [hi]
  | false =>
    have hand : (version &&& ~~~layout.flagMask).toNat.testBit i =
        (version.toNat.testBit i && (decide (i < 32) && !decide (i = layout.flagBit))) := by
      rw [UInt32.toNat_and, Nat.testBit_and, testBit_toNat_not, testBit_flagMask]
    change (version &&& ~~~layout.flagMask).toNat.testBit i = _
    rw [hand]
    by_cases hi : i = layout.flagBit
    · simp [hi]
    · cases hv : version.toNat.testBit i with
      | false => simp [hi]
      | true => simp [hi, lt_of_testBit_toNat hv]

/-- **The flag is changed alone**: base version and chain id stay as they are. -/
theorem decode_withFlag (layout : Layout) (version : Version) (merged : Bool) :
    layout.decode (layout.withFlag version merged) = { layout.decode version with merged } := by
  have hflag := layout.flagBit_lt
  have hbase : (layout.decode (layout.withFlag version merged)).base =
      (layout.decode version).base := by
    refine ext_testBit fun i => ?_
    rw [testBit_decode_base, testBit_decode_base, testBit_withFlag]
    by_cases hi : i = layout.flagBit
    · simp [hi]
    · rw [if_neg hi]
  have hid : (layout.decode (layout.withFlag version merged)).chainId =
      (layout.decode version).chainId := by
    refine ext_testBit fun i => ?_
    rw [testBit_decode_chainId, testBit_decode_chainId, testBit_withFlag,
      if_neg (show layout.shift + i ≠ layout.flagBit by omega)]
  have hmerged : (layout.decode (layout.withFlag version merged)).merged = merged := by
    rw [decode_merged, testBit_withFlag, if_pos rfl]
  exact Fields.ext hbase hid hmerged

end MergedMining.Version.Layout
