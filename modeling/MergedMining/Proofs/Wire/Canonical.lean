import MergedMining.Proofs.Wire.Framing

/-!
# Readers take spellings only

A reader that accepts one spelling of each value leaves nobody a choice of bytes: what it takes off
the front is what would be written for the value it gives.  This is shown here for the fields, for
counts, byte strings and lists; formats are taken apart at the seams between their readers.

## Main definitions

* `Wire.Canonical` — a reader takes off the front what would be written for its value.

## Main results

* `Wire.andThen_eq_ok_iff` — readers one behind the other, taken apart.
* `Wire.VarInt.canonical_read` — a number in a longer spelling than it needs is not read.
* `Wire.canonical_readBytes`, `Wire.Canonical.readList` — byte strings and lists behind their count.
-/

namespace MergedMining.Wire

variable {α β : Type}

/-- Whatever the reader takes off the front is the spelling of the value it gives, and that value is
fit to be written. -/
def Canonical (reader : Reader α) (write : α → Bytes) (fit : α → Prop) : Prop :=
  ∀ ⦃data x rest⦄, reader data = .ok (x, rest) → fit x ∧ data = write x ++ rest

/-! ### Readers one behind the other -/

/-- Two readers one behind the other succeed where the first one does, and the second one on what is
left. -/
theorem andThen_eq_ok_iff {first : Reader α} {next : α → Reader β} {data rest : Bytes} {y : β} :
    andThen first next data = .ok (y, rest) ↔
      ∃ x middle, first data = .ok (x, middle) ∧ next x middle = .ok (y, rest) := by
  unfold andThen
  cases hfirst : first data with
  | error e =>
    refine iff_of_false (fun h => by cases h) ?_
    rintro ⟨x, middle, h, -⟩
    cases h
  | ok taken =>
    obtain ⟨x, middle⟩ := taken
    constructor
    · intro h
      exact ⟨x, middle, rfl, h⟩
    · rintro ⟨x', middle', h, hnext⟩
      cases h
      exact hnext

theorem value_eq_ok_iff {x y : α} {data rest : Bytes} :
    value x data = .ok (y, rest) ↔ x = y ∧ data = rest := by
  unfold value
  rw [Except.ok.injEq, Prod.mk.injEq]

/-! ### Fields -/

theorem canonical_take (count : Nat) : Canonical (take count) id (·.length = count) := by
  intro data bs rest h
  unfold take at h
  by_cases hlen : (data.take count).length = count
  · rw [if_pos hlen] at h
    cases h
    exact ⟨hlen, (List.take_append_drop count data).symm⟩
  · rw [if_neg hlen] at h
    cases h

theorem eq_of_byte_eq_ok {data rest : Bytes} {b : UInt8} (h : byte data = .ok (b, rest)) :
    data = b :: rest := by
  cases data with
  | nil => cases h
  | cons a data => cases h; rfl

theorem eq_of_uint32_eq_ok {data rest : Bytes} {w : UInt32} (h : uint32 data = .ok (w, rest)) :
    data = Bytes.ofUInt32 w ++ rest := by
  rw [uint32_eq, andThen_eq_ok_iff] at h
  obtain ⟨bs, middle, htake, hvalue⟩ := h
  obtain ⟨hlen, rfl⟩ := canonical_take 4 htake
  obtain ⟨rfl, rfl⟩ := value_eq_ok_iff.mp hvalue
  rw [Bytes.ofUInt32_toUInt32 hlen]
  rfl

theorem eq_of_uint64_eq_ok {data rest : Bytes} {w : UInt64} (h : uint64 data = .ok (w, rest)) :
    data = Bytes.ofUInt64 w ++ rest := by
  rw [uint64_eq, andThen_eq_ok_iff] at h
  obtain ⟨bs, middle, htake, hvalue⟩ := h
  obtain ⟨hlen, rfl⟩ := canonical_take 8 htake
  obtain ⟨rfl, rfl⟩ := value_eq_ok_iff.mp hvalue
  rw [Bytes.ofUInt64_toUInt64 hlen]
  rfl

theorem eq_of_hash_eq_ok {data rest : Bytes} {x : Hash256} (h : hash data = .ok (x, rest)) :
    data = x.bytes ++ rest := by
  unfold hash at h
  by_cases hlen : (data.take 32).length = 32
  · rw [dif_pos hlen] at h
    cases h
    exact (List.take_append_drop 32 data).symm
  · rw [dif_neg hlen] at h
    cases h

/-! ### Counts -/

namespace VarInt

/-- A long form is read only if its number fits no shorter one. -/
theorem of_readLong_eq_ok {width least n : Nat} {data rest : Bytes}
    (h : readLong width least data = .ok (n, rest)) :
    least ≤ n ∧ n < 256 ^ width ∧ data = Bytes.ofNatLE width n ++ rest := by
  change andThen (take width) (fun bytes rest =>
    if Bytes.toNatLE bytes < least then .error .nonMinimal
    else .ok (Bytes.toNatLE bytes, rest)) data = _ at h
  obtain ⟨bs, middle, htake, hvalue⟩ := andThen_eq_ok_iff.mp h
  obtain ⟨rfl, rfl⟩ := canonical_take width htake
  by_cases hleast : Bytes.toNatLE bs < least
  · rw [if_pos hleast] at hvalue
    cases hvalue
  · rw [if_neg hleast] at hvalue
    cases hvalue
    refine ⟨Nat.le_of_not_lt hleast, Bytes.toNatLE_lt bs, ?_⟩
    rw [Bytes.ofNatLE_toNatLE]
    rfl

/-- **A number is read in its shortest spelling only.**  Each of the three long forms starts with
its own tag, and its number is too large for the form before. -/
theorem canonical_read : Canonical read write (· < 2 ^ 64) := by
  intro data n rest h
  cases data with
  | nil => cases h
  | cons tag data =>
    rw [read_cons] at h
    have htag := tag.toNat_lt
    by_cases htwo : tag = 0xfd
    · rw [if_pos htwo] at h
      obtain ⟨hleast, hfit, rfl⟩ := of_readLong_eq_ok h
      refine ⟨by omega, ?_⟩
      rw [write, if_neg (by omega), if_pos (by omega), htwo]
      rfl
    by_cases hfour : tag = 0xfe
    · rw [if_neg htwo, if_pos hfour] at h
      obtain ⟨hleast, hfit, rfl⟩ := of_readLong_eq_ok h
      refine ⟨by omega, ?_⟩
      rw [write, if_neg (by omega), if_neg (by omega), if_pos (by omega), hfour]
      rfl
    by_cases height : tag = 0xff
    · rw [if_neg htwo, if_neg hfour, if_pos height] at h
      obtain ⟨hleast, hfit, rfl⟩ := of_readLong_eq_ok h
      refine ⟨by omega, ?_⟩
      rw [write, if_neg (by omega), if_neg (by omega), if_neg (by omega), height]
      rfl
    · rw [if_neg htwo, if_neg hfour, if_neg height] at h
      cases h
      -- a byte that is none of the tags is a number below all of them
      have hne : ∀ t : UInt8, tag ≠ t → tag.toNat ≠ t.toNat := fun t h ht =>
        h (UInt8.toNat_inj.mp ht)
      have hfd := hne 0xfd htwo
      have hfe := hne 0xfe hfour
      have hff := hne 0xff height
      simp only [UInt8.reduceToNat] at hfd hfe hff
      refine ⟨by omega, ?_⟩
      rw [write, if_pos (by omega), UInt8.ofNat_toNat]
      rfl

end VarInt

/-! ### Byte strings and lists -/

theorem canonical_readBytes : Canonical readBytes writeBytes (·.length < 2 ^ 64) := by
  intro data bs rest h
  rw [readBytes_eq, andThen_eq_ok_iff] at h
  obtain ⟨length, middle, hcount, htake⟩ := h
  obtain ⟨hfit, rfl⟩ := VarInt.canonical_read hcount
  obtain ⟨rfl, rfl⟩ := canonical_take length htake
  refine ⟨hfit, ?_⟩
  rw [writeBytes, List.append_assoc]
  rfl

variable {item : Reader α} {write : α → Bytes} {fit : α → Prop}

/-- Values one after the other, by induction on how many there are. -/
theorem Canonical.many (hitem : Canonical item write fit) {count : Nat} :
    Canonical (many item count) (·.flatMap write)
      fun xs => xs.length = count ∧ ∀ x ∈ xs, fit x := by
  induction count with
  | zero =>
    intro data xs rest h
    cases h
    exact ⟨⟨rfl, fun x hx => absurd hx List.not_mem_nil⟩, rfl⟩
  | succ count ih =>
    intro data xs rest h
    rw [many_succ, andThen_eq_ok_iff] at h
    obtain ⟨x, middle, hx, h⟩ := h
    obtain ⟨xs', middle', hxs, hvalue⟩ := andThen_eq_ok_iff.mp h
    obtain ⟨rfl, rfl⟩ := value_eq_ok_iff.mp hvalue
    obtain ⟨hfit, rfl⟩ := hitem hx
    obtain ⟨⟨hlen, hfits⟩, rfl⟩ := ih hxs
    refine ⟨⟨by rw [List.length_cons, hlen], List.forall_mem_cons.mpr ⟨hfit, hfits⟩⟩, ?_⟩
    change write x ++ (xs'.flatMap write ++ middle') = (x :: xs').flatMap write ++ middle'
    rw [List.flatMap_cons, List.append_assoc]

/-- **A list is read behind the shortest spelling of its count only.** -/
theorem Canonical.readList (hitem : Canonical item write fit) :
    Canonical (readList item) (writeList write)
      fun xs => xs.length < 2 ^ 64 ∧ ∀ x ∈ xs, fit x := by
  intro data xs rest h
  rw [readList_eq, andThen_eq_ok_iff] at h
  obtain ⟨count, middle, hcount, hmany⟩ := h
  obtain ⟨hfit, rfl⟩ := VarInt.canonical_read hcount
  obtain ⟨⟨rfl, hfits⟩, rfl⟩ := hitem.many hmany
  refine ⟨⟨hfit, hfits⟩, ?_⟩
  rw [writeList, List.append_assoc]

end MergedMining.Wire
