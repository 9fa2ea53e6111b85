import MergedMining.Borsh
import MergedMining.Proofs.Version.Fields

/-!
# One encoding for each value

The fields of a value stand in a fixed order and take a fixed number of bytes, or as many as a count
in front of them says.  So a reader can be said in one line: it gives a value exactly if the input
starts with the encoding of that value, and leaves what follows.  Each field is described that way
for itself, and a record by its fields one after the other.

## Main results

* `Borsh.params_eq_ok_iff`, `Borsh.layout_eq_ok_iff`, `Borsh.branch_eq_ok_iff` — what the readers
  take off the front of an input.
* `Borsh.exists_params_iff`, `Borsh.exists_layout_iff`, `Borsh.exists_branch_iff` — the inputs that
  encode anything, byte by byte.
* `Borsh.encodings_unique` — whole inputs are read exactly if they are encodings.
-/

namespace MergedMining.Borsh

variable {α β : Type} {data rest : Bytes}

/-! ### Steps of a reader -/

/-- A first step and what comes behind it succeed together. -/
theorem bind_eq_ok_iff {step : Except Error α} {next : α → Except Error β} {y : β} :
    step >>= next = .ok y ↔ ∃ x, step = .ok x ∧ next x = .ok y := by
  cases step with
  | error e => exact iff_of_false nofun (by rintro ⟨x, h, -⟩; cases h)
  | ok x =>
    constructor
    · intro h
      exact ⟨x, rfl, h⟩
    · rintro ⟨x', h, hnext⟩
      cases h
      exact hnext

theorem pure_eq_ok_iff {x y : α} : (pure x : Except Error α) = .ok y ↔ x = y := by
  show Except.ok x = Except.ok y ↔ x = y
  rw [Except.ok.injEq]

/-- A whole input is read if nothing is left over. -/
theorem entire_eq_ok_iff {reader : Reader α} {x : α} :
    entire reader data = .ok x ↔ reader data = .ok (x, []) := by
  simp only [entire, bind_eq_ok_iff, Prod.exists, List.isEmpty_iff]
  constructor
  · rintro ⟨y, rest, hread, hrest⟩
    by_cases hempty : rest = []
    · rw [if_pos hempty, pure_eq_ok_iff] at hrest
      rw [hread, hrest, hempty]
    · rw [if_neg hempty] at hrest
      cases hrest
  · intro h
    exact ⟨x, [], h, if_pos rfl⟩

/-! ### Fields -/

theorem byte_eq_ok_iff {b : UInt8} : byte data = .ok (b, rest) ↔ data = b :: rest := by
  cases data with
  | nil => simp [byte]
  | cons a data => simp [byte]

/-- A word is read from four bytes, which are then its own. -/
theorem word_eq_ok_iff {w : UInt32} :
    word data = .ok (w, rest) ↔ data = Bytes.ofUInt32 w ++ rest := by
  constructor
  · intro h
    unfold word at h
    split at h
    case h_1 b₀ b₁ b₂ b₃ rest' =>
      cases h
      have hspelled : Bytes.ofUInt32 (Bytes.toUInt32 [b₀, b₁, b₂, b₃]) = [b₀, b₁, b₂, b₃] :=
        Bytes.ofUInt32_toUInt32 rfl
      rw [hspelled]
      rfl
    case h_2 => cases h
  · rintro rfl
    obtain ⟨b₀, b₁, b₂, b₃, hw⟩ : ∃ b₀ b₁ b₂ b₃, Bytes.ofUInt32 w = [b₀, b₁, b₂, b₃] :=
      ⟨_, _, _, _, rfl⟩
    have hread := Bytes.toUInt32_ofUInt32 w
    rw [hw] at hread ⊢
    show Except.ok (Bytes.toUInt32 [b₀, b₁, b₂, b₃], rest) = _
    rw [hread]

/-- Truth values are written as zero and one, and no other byte stands for one. -/
theorem boolean_eq_ok_iff {b : Bool} :
    boolean data = .ok (b, rest) ↔ data = (if b then 1 else 0) :: rest := by
  simp only [boolean, bind_eq_ok_iff, Prod.exists, byte_eq_ok_iff]
  constructor
  · rintro ⟨a, rest', rfl, h⟩
    split at h
    case isTrue hzero =>
      cases h
      rw [hzero]
      rfl
    case isFalse =>
      split at h
      case isTrue hone =>
        cases h
        rw [hone]
        rfl
      case isFalse => cases h
  · rintro rfl
    refine ⟨_, rest, rfl, ?_⟩
    cases b with
    | false => rfl
    | true => rfl

theorem hash_eq_ok_iff {x : Hash256} : hash data = .ok (x, rest) ↔ data = x.bytes ++ rest := by
  unfold hash
  constructor
  · intro h
    split at h
    case isTrue hlen =>
      cases h
      exact (List.take_append_drop 32 data).symm
    case isFalse => cases h
  · rintro rfl
    have htake : (x.bytes ++ rest).take 32 = x.bytes := List.take_left' x.length_bytes
    have hdrop : (x.bytes ++ rest).drop 32 = rest := List.drop_left' x.length_bytes
    simp only [htake, hdrop, x.length_bytes, dite_true]

/-- Hashes one behind the other, by induction on how many there are to be. -/
theorem hashes_eq_ok_iff {count : Nat} {xs : List Hash256} :
    hashes count data = .ok (xs, rest) ↔
      xs.length = count ∧ data = xs.flatMap Hash256.bytes ++ rest := by
  induction count generalizing data rest xs with
  | zero =>
    show Except.ok ([], data) = .ok (xs, rest) ↔ _
    rw [Except.ok.injEq, Prod.mk.injEq, List.length_eq_zero_iff]
    constructor
    · rintro ⟨rfl, rfl⟩
      exact ⟨rfl, rfl⟩
    · rintro ⟨rfl, rfl⟩
      exact ⟨rfl, rfl⟩
  | succ count ih =>
    simp only [hashes, bind_eq_ok_iff, Prod.exists, pure_eq_ok_iff, hash_eq_ok_iff, ih,
      Prod.mk.injEq]
    constructor
    · rintro ⟨x, middle, rfl, ys, left, ⟨hlen, rfl⟩, rfl, rfl⟩
      rw [List.length_cons, hlen, List.flatMap_cons, List.append_assoc]
      exact ⟨rfl, rfl⟩
    · rintro ⟨hlen, rfl⟩
      cases xs with
      | nil => cases hlen
      | cons x ys =>
        rw [List.flatMap_cons, List.append_assoc]
        exact ⟨x, _, rfl, ys, rest, ⟨Nat.succ.inj hlen, rfl⟩, rfl, rfl⟩

/-! ### Records -/

theorem workHash_eq_ok_iff {x : WorkHash} :
    workHash data = .ok (x, rest) ↔ data = x.toBorsh ++ rest := by
  simp only [workHash, bind_eq_ok_iff, Prod.exists, byte_eq_ok_iff]
  cases x with
  | sha256d =>
    constructor
    · rintro ⟨tag, rest', rfl, h⟩
      split at h
      case isTrue hzero =>
        cases h
        rw [hzero]
        rfl
      case isFalse => cases h
    · rintro rfl
      exact ⟨0, rest, rfl, rfl⟩

/-- A layout is read from its two positions, which have to be admissible. -/
theorem layout_eq_ok_iff {layout : Version.Layout} :
    Borsh.layout data = .ok (layout, rest) ↔ data = layout.toBorsh ++ rest := by
  simp only [Borsh.layout, bind_eq_ok_iff, Prod.exists, byte_eq_ok_iff]
  constructor
  · rintro ⟨flagBit, _, rfl, shift, rest', rfl, h⟩
    unfold Version.Layout.ofPositions at h
    by_cases hfit : flagBit.toNat < shift.toNat ∧ shift.toNat < 32
    · simp only [dif_pos hfit] at h
      cases h
      simp [Version.Layout.toBorsh]
    · simp only [dif_neg hfit] at h
      cases h
  · rintro rfl
    refine ⟨_, _, rfl, _, rest, rfl, ?_⟩
    simp only [Version.Layout.ofPositions_ofNat]
    rfl

theorem toBorsh_of_length {b : Merkle.Branch} {count : UInt32}
    (h : b.hashes.length = count.toNat) :
    b.toBorsh = Bytes.ofUInt32 count ++
      (b.hashes.flatMap Hash256.bytes ++ Bytes.ofUInt32 b.index) := by
  rw [Merkle.Branch.toBorsh, h, List.append_assoc]
  rfl

theorem exists_count {n : Nat} (h : n < 2 ^ 32) : ∃ count : UInt32, n = count.toNat :=
  ⟨UInt32.ofNat n, (UInt32.toNat_ofNat_of_lt' h).symm⟩

/-- The count in front of the hashes is a word, so that no branch with more of them is read. -/
theorem branch_eq_ok_iff {b : Merkle.Branch} :
    branch data = .ok (b, rest) ↔ b.hashes.length < 2 ^ 32 ∧ data = b.toBorsh ++ rest := by
  simp only [branch, bind_eq_ok_iff, Prod.exists, pure_eq_ok_iff, word_eq_ok_iff, hashes_eq_ok_iff,
    Prod.mk.injEq]
  constructor
  · rintro ⟨count, _, rfl, hashes, _, ⟨hlen, rfl⟩, index, _, rfl, rfl, rfl⟩
    refine ⟨hlen ▸ count.toNat_lt, ?_⟩
    rw [toBorsh_of_length hlen, List.append_assoc, List.append_assoc]
  · rintro ⟨hlen, rfl⟩
    obtain ⟨count, hcount⟩ := exists_count hlen
    refine ⟨count, _, ?_, b.hashes, _, ⟨hcount, rfl⟩, b.index, rest, rfl, rfl, rfl⟩
    rw [toBorsh_of_length hcount, List.append_assoc, List.append_assoc]

/-- **Parameters are read from their encoding**, one field behind the other. -/
theorem params_eq_ok_iff {params : Params} :
    Borsh.params data = .ok (params, rest) ↔ data = params.toBorsh ++ rest := by
  simp only [Borsh.params, bind_eq_ok_iff, Prod.exists, pure_eq_ok_iff, word_eq_ok_iff,
    boolean_eq_ok_iff, workHash_eq_ok_iff, layout_eq_ok_iff, Prod.mk.injEq]
  constructor
  · rintro ⟨chainId, _, rfl, strict, _, rfl, height, _, rfl, work, _, rfl, limit, _, rfl, layout, _,
      rfl, rfl, rfl⟩
    simp [Params.toBorsh]
  · rintro rfl
    refine ⟨_, _, ?_, _, _, rfl, _, _, rfl, _, _, rfl, _, _, rfl, _, _, rfl, rfl, rfl⟩
    simp [Params.toBorsh]

/-! ### Inputs that encode anything -/

/-- The positions of a layout are two bytes in increasing order, and the second one is a bit of a
version. -/
theorem exists_layout_toBorsh_iff :
    (∃ layout : Version.Layout, data = layout.toBorsh) ↔
      ∃ flagBit shift : UInt8, data = [flagBit, shift] ∧ flagBit < shift ∧ shift < 32 := by
  simp only [UInt8.lt_iff_toNat_lt]
  constructor
  · rintro ⟨⟨flagBit, shift, hflag, hshift⟩, rfl⟩
    have hshiftNat : (UInt8.ofNat shift).toNat = shift :=
      UInt8.toNat_ofNat_of_lt' (Nat.lt_trans hshift (by decide))
    have hflagNat : (UInt8.ofNat flagBit).toNat = flagBit :=
      UInt8.toNat_ofNat_of_lt' (Nat.lt_trans (Nat.lt_trans hflag hshift) (by decide))
    refine ⟨UInt8.ofNat flagBit, UInt8.ofNat shift, rfl, ?_⟩
    rw [hflagNat, hshiftNat]
    exact ⟨hflag, hshift⟩
  · rintro ⟨flagBit, shift, rfl, hflag, hshift⟩
    refine ⟨⟨flagBit.toNat, shift.toNat, hflag, hshift⟩, ?_⟩
    simp [Version.Layout.toBorsh]

theorem exists_layout_iff :
    (∃ layout, entire Borsh.layout data = .ok layout) ↔
      ∃ flagBit shift : UInt8, data = [flagBit, shift] ∧ flagBit < shift ∧ shift < 32 := by
  simp only [entire_eq_ok_iff, layout_eq_ok_iff, List.append_nil]
  exact exists_layout_toBorsh_iff

/-- Parameters are sixteen bytes: the fifth is zero or one, the tenth is zero, and the last two are
a layout. -/
theorem exists_params_iff :
    (∃ params, entire Borsh.params data = .ok params) ↔
      ∃ (chainId maxTreeHeight powLimit : UInt32) (strict flagBit shift : UInt8),
        data = Bytes.ofUInt32 chainId ++ [strict] ++ Bytes.ofUInt32 maxTreeHeight ++ [0] ++
          Bytes.ofUInt32 powLimit ++ [flagBit, shift] ∧
        (strict = 0 ∨ strict = 1) ∧ flagBit < shift ∧ shift < 32 := by
  simp only [entire_eq_ok_iff, params_eq_ok_iff, List.append_nil]
  constructor
  · rintro ⟨params, rfl⟩
    obtain ⟨flagBit, shift, hlayout, hfit⟩ := exists_layout_toBorsh_iff.mp ⟨params.layout, rfl⟩
    refine ⟨params.chainId, params.maxTreeHeight, params.powLimit,
      if params.strictChainId then 1 else 0, flagBit, shift, ?_, ?_, hfit⟩
    · rw [Params.toBorsh, hlayout]
      rfl
    · cases params.strictChainId with
      | false => exact .inl rfl
      | true => exact .inr rfl
  · rintro ⟨chainId, maxTreeHeight, powLimit, strict, flagBit, shift, rfl, hstrict, hfit⟩
    obtain ⟨layout, hlayout⟩ := exists_layout_toBorsh_iff.mpr ⟨flagBit, shift, rfl, hfit⟩
    refine ⟨⟨chainId, strict = 1, maxTreeHeight, .sha256d, powLimit, layout⟩, ?_⟩
    rw [Params.toBorsh, ← hlayout]
    rcases hstrict with rfl | rfl
    · rfl
    · rfl

theorem length_flatMap_bytes (xs : List Hash256) :
    (xs.flatMap Hash256.bytes).length = 32 * xs.length := by
  induction xs with
  | nil => rfl
  | cons x xs ih =>
    rw [List.flatMap_cons, List.length_append, x.length_bytes, ih, List.length_cons]
    omega

/-- Bytes in a multiple of thirty-two are hashes one behind the other. -/
theorem exists_hashes_of_length {count : Nat} {data : Bytes} (h : data.length = 32 * count) :
    ∃ xs : List Hash256, xs.length = count ∧ xs.flatMap Hash256.bytes = data := by
  induction count generalizing data with
  | zero => exact ⟨[], rfl, (List.eq_nil_of_length_eq_zero h).symm⟩
  | succ count ih =>
    have hfirst : (data.take 32).length = 32 := by
      rw [List.length_take]
      omega
    have hrest : (data.drop 32).length = 32 * count := by
      rw [List.length_drop]
      omega
    obtain ⟨xs, hlen, hxs⟩ := ih hrest
    refine ⟨⟨data.take 32, hfirst⟩ :: xs, by rw [List.length_cons, hlen], ?_⟩
    rw [List.flatMap_cons, hxs]
    exact List.take_append_drop 32 data

/-- A branch is a count, thirty-two bytes for each of as many hashes, and four bytes more. -/
theorem exists_branch_iff :
    (∃ b, entire branch data = .ok b) ↔
      ∃ (count : UInt32) (body : Bytes), data = Bytes.ofUInt32 count ++ body ∧
        body.length = 32 * count.toNat + 4 := by
  simp only [entire_eq_ok_iff, branch_eq_ok_iff, List.append_nil]
  constructor
  · rintro ⟨b, hlen, rfl⟩
    obtain ⟨count, hcount⟩ := exists_count hlen
    refine ⟨count, _, toBorsh_of_length hcount, ?_⟩
    rw [List.length_append, length_flatMap_bytes, Bytes.length_ofUInt32, hcount]
  · rintro ⟨count, body, rfl, hlen⟩
    have hhashes : (body.take (32 * count.toNat)).length = 32 * count.toNat := by
      rw [List.length_take]
      omega
    have hindex : (body.drop (32 * count.toNat)).length = 4 := by
      rw [List.length_drop]
      omega
    obtain ⟨xs, hcount, hxs⟩ := exists_hashes_of_length hhashes
    refine ⟨⟨xs, Bytes.toUInt32 (body.drop (32 * count.toNat))⟩, hcount ▸ count.toNat_lt, ?_⟩
    rw [toBorsh_of_length hcount, hxs, Bytes.ofUInt32_toUInt32 hindex, List.take_append_drop]

/-- **Each value has one encoding, and nothing else is read.**  A whole input is read as parameters,
as a layout or as a branch exactly if it is the encoding of that value; of branches, those whose
hashes can be counted in a word.  Hence bytes behind the encoding, a truth value above one, another
tag and positions that are not admissible are never read: the last three lines say which bytes are
read at all. -/
theorem encodings_unique :
    (∀ data params, entire Borsh.params data = .ok params ↔ data = params.toBorsh) ∧
      (∀ data layout, entire Borsh.layout data = .ok layout ↔ data = layout.toBorsh) ∧
      (∀ data b, entire branch data = .ok b ↔ b.hashes.length < 2 ^ 32 ∧ data = b.toBorsh) ∧
      (∀ data, (∃ params, entire Borsh.params data = .ok params) ↔
        ∃ (chainId maxTreeHeight powLimit : UInt32) (strict flagBit shift : UInt8),
          data = Bytes.ofUInt32 chainId ++ [strict] ++ Bytes.ofUInt32 maxTreeHeight ++ [0] ++
            Bytes.ofUInt32 powLimit ++ [flagBit, shift] ∧
          (strict = 0 ∨ strict = 1) ∧ flagBit < shift ∧ shift < 32) ∧
      (∀ data, (∃ layout, entire Borsh.layout data = .ok layout) ↔
        ∃ flagBit shift : UInt8, data = [flagBit, shift] ∧ flagBit < shift ∧ shift < 32) ∧
      (∀ data, (∃ b, entire branch data = .ok b) ↔
        ∃ (count : UInt32) (body : Bytes), data = Bytes.ofUInt32 count ++ body ∧
          body.length = 32 * count.toNat + 4) := by
  refine ⟨fun data params => ?_, fun data layout => ?_, fun data b => ?_,
    fun data => exists_params_iff, fun data => exists_layout_iff, fun data => exists_branch_iff⟩
  · rw [entire_eq_ok_iff, params_eq_ok_iff, List.append_nil]
  · rw [entire_eq_ok_iff, layout_eq_ok_iff, List.append_nil]
  · rw [entire_eq_ok_iff, branch_eq_ok_iff, List.append_nil]

end MergedMining.Borsh
