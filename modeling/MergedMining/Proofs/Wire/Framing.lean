import MergedMining.Proofs.Wire.Counted

/-!
# Spellings that frame themselves

Values follow each other on the wire without anything between them, and without the length of the
whole in front.  So each spelling has to say by itself where it ends: a reader takes it off the
front whatever follows, and where it is cut short, whatever is left of it, the reader runs into the
end of the input.  Spellings with this property can be put one behind the other, into lists behind
their count, and into streams.

## Main definitions

* `Wire.Spells` — a byte string spells a value for a reader, and frames itself.
* `Wire.andThen`, `Wire.value` — readers one behind the other.
* `Wire.untilEnd` — values one after another until the input is used up.

## Main results

* `Wire.Spells.andThen` — two spellings one behind the other.
* `Wire.Spells.many`, `Wire.Spells.list` — spellings of lists.
* `Wire.Spells.entire_take`, `Wire.Spells.entire_append` — a spelling that is cut short, or followed
  by more, is not a whole input.
* `Wire.untilEnd_flatMap` — a stream of spellings reads as the list of their values.
-/

namespace MergedMining.Wire

/-- For this reader the bytes spell a value, and show where the spelling ends. -/
structure Spells {α : Type} (reader : Reader α) (bs : Bytes) (x : α) : Prop where
  /-- The spelling is taken off the front, and what follows is left as it is. -/
  reads (rest : Bytes) : reader (bs ++ rest) = .ok (x, rest)
  /-- No shorter beginning of the spelling reads as anything. -/
  cut_short {front back : Bytes} : bs = front ++ back → back ≠ [] →
    reader front = .error .endOfInput

/-! ### Readers one behind the other -/

variable {α β : Type}

/-- Reads a value, and what it asks for behind it. -/
def andThen (first : Reader α) (next : α → Reader β) : Reader β := fun data => do
  let (x, rest) ← first data
  next x rest

/-- Takes nothing. -/
def value (x : α) : Reader α := fun data => .ok (x, data)

namespace Spells

variable {first : Reader α} {next : α → Reader β} {bs cs : Bytes} {x : α} {y : β}

theorem value (x : α) : Spells (value x) [] x where
  reads _ := rfl
  cut_short hsplit hback := absurd (List.append_eq_nil_iff.mp hsplit.symm).2 hback

/-- **Two spellings one behind the other** frame themselves: a cut falls into the first one, or
leaves it whole and falls into the second. -/
theorem andThen (hx : Spells first bs x) (hy : Spells (next x) cs y) :
    Spells (andThen first next) (bs ++ cs) y where
  reads rest := by
    rw [List.append_assoc, Wire.andThen, hx.reads]
    exact hy.reads rest
  cut_short {front back} hsplit hback := by
    rcases List.append_eq_append_iff.mp hsplit with ⟨more, rfl, hcs⟩ | ⟨more, rfl, rfl⟩
    · rw [Wire.andThen, hx.reads]
      exact hy.cut_short hcs hback
    · cases more with
      | nil =>
        rw [List.append_nil] at hx
        rw [Wire.andThen, ← List.append_nil front, hx.reads]
        exact hy.cut_short (List.nil_append cs).symm hback
      | cons b more =>
        rw [Wire.andThen, hx.cut_short rfl (List.cons_ne_nil b more)]
        rfl

/-- A value made of the one that is read. -/
theorem map (f : α → β) (hx : Spells first bs x) :
    Spells (Wire.andThen first fun x => Wire.value (f x)) bs (f x) := by
  have hmapped : Spells (Wire.andThen first fun x => Wire.value (f x)) (bs ++ []) (f x) :=
    hx.andThen (Spells.value (f x))
  rwa [List.append_nil] at hmapped

end Spells

/-! ### Fields -/

theorem spells_take {count : Nat} {bs : Bytes} (hlen : bs.length = count) :
    Spells (take count) bs bs where
  reads rest := take_append hlen rest
  cut_short {front back} hsplit hback := by
    have hshort : (front.take count).length ≠ count := by
      have hpos := List.length_pos_iff.mpr hback
      rw [hsplit, List.length_append] at hlen
      rw [List.length_take]
      omega
    exact if_neg hshort

theorem spells_byte (b : UInt8) : Spells byte [b] b where
  reads _ := rfl
  cut_short {front back} hsplit hback := by
    cases front with
    | nil => rfl
    | cons a front =>
      rw [List.cons_append, List.cons.injEq] at hsplit
      exact absurd (List.append_eq_nil_iff.mp hsplit.2.symm).2 hback

theorem uint32_eq : uint32 = andThen (take 4) fun bytes => value (Bytes.toUInt32 bytes) := rfl

theorem uint64_eq : uint64 = andThen (take 8) fun bytes => value (Bytes.toUInt64 bytes) := rfl

theorem spells_uint32 (w : UInt32) : Spells uint32 (Bytes.ofUInt32 w) w := by
  have hspells := (spells_take (Bytes.length_ofUInt32 w)).map Bytes.toUInt32
  rwa [Bytes.toUInt32_ofUInt32, ← uint32_eq] at hspells

theorem spells_uint64 (w : UInt64) : Spells uint64 (Bytes.ofUInt64 w) w := by
  have hspells := (spells_take (Bytes.length_ofUInt64 w)).map Bytes.toUInt64
  rwa [Bytes.toUInt64_ofUInt64, ← uint64_eq] at hspells

theorem spells_hash (x : Hash256) : Spells hash x.bytes x where
  reads rest := by
    have htake : (x.bytes ++ rest).take 32 = x.bytes := List.take_left' x.length_bytes
    have hdrop : (x.bytes ++ rest).drop 32 = rest := List.drop_left' x.length_bytes
    simp only [hash, htake, hdrop, x.length_bytes, dite_true]
  cut_short {front back} hsplit hback := by
    have hshort : (front.take 32).length ≠ 32 := by
      have hpos := List.length_pos_iff.mpr hback
      have hlen := x.length_bytes
      rw [hsplit, List.length_append] at hlen
      rw [List.length_take]
      omega
    exact dif_neg hshort

/-! ### Counts -/

namespace VarInt

theorem length_write (n : Nat) : (write n).length = size n := by
  rw [write, size]
  repeat' split
  all_goals simp

theorem size_pos (n : Nat) : 0 < size n := by
  rw [size]
  repeat' split
  all_goals decide

/-- A long form that is cut behind its tag ends inside the number. -/
theorem readLong_cut_short {width least n : Nat} {front back : Bytes}
    (hsplit : Bytes.ofNatLE width n = front ++ back) (hback : back ≠ []) :
    readLong width least front = .error .endOfInput := by
  rw [readLong, (spells_take (Bytes.length_ofNatLE width n)).cut_short hsplit hback]
  rfl

theorem spells_write {n : Nat} (hn : n < 2 ^ 64) : Spells read (write n) n where
  reads rest := read_write_append hn rest
  cut_short {front back} hsplit hback := by
    cases front with
    | nil => rfl
    | cons tag front =>
      rw [write] at hsplit
      rw [read_cons]
      -- the tag tells which of the four forms is cut
      split at hsplit
      case isTrue =>
        rw [List.cons_append, List.cons.injEq] at hsplit
        exact absurd (List.append_eq_nil_iff.mp hsplit.2.symm).2 hback
      case isFalse =>
        split at hsplit
        case isTrue =>
          obtain ⟨rfl, hbody⟩ := List.cons.inj hsplit
          exact readLong_cut_short hbody hback
        case isFalse =>
          split at hsplit
          case isTrue =>
            obtain ⟨rfl, hbody⟩ := List.cons.inj hsplit
            exact readLong_cut_short hbody hback
          case isFalse =>
            obtain ⟨rfl, hbody⟩ := List.cons.inj hsplit
            exact readLong_cut_short hbody hback

end VarInt

theorem readBytes_eq : readBytes = andThen VarInt.read take := rfl

theorem spells_writeBytes {bs : Bytes} (hlen : bs.length < 2 ^ 64) :
    Spells readBytes (writeBytes bs) bs := by
  rw [readBytes_eq, writeBytes]
  exact (VarInt.spells_write hlen).andThen (spells_take rfl)

/-! ### Lists -/

variable {item : Reader β} {write : α → Bytes} {result : α → β} {xs : List α}

theorem many_succ (count : Nat) :
    many item (count + 1) = andThen item fun x => andThen (many item count) fun xs =>
      value (x :: xs) := rfl

/-- Spellings one behind the other spell the list of their values. -/
theorem Spells.many (h : ∀ x ∈ xs, Spells item (write x) (result x)) :
    Spells (many item xs.length) (xs.flatMap write) (xs.map result) := by
  induction xs with
  | nil => exact .value []
  | cons x xs ih =>
    obtain ⟨hx, hxs⟩ := List.forall_mem_cons.mp h
    rw [List.length_cons, many_succ, List.flatMap_cons, List.map_cons]
    exact hx.andThen ((ih hxs).map (result x :: ·))

theorem readList_eq : readList item = andThen VarInt.read (Wire.many item) := rfl

/-- **A list behind its count** frames itself if its items do. -/
theorem Spells.list (hlen : xs.length < 2 ^ 64)
    (h : ∀ x ∈ xs, Spells item (write x) (result x)) :
    Spells (readList item) (writeList write xs) (xs.map result) := by
  rw [readList_eq, writeList]
  exact (VarInt.spells_write hlen).andThen (Spells.many h)

/-- A list whose items are read back as they were. -/
theorem Spells.list_self {item : Reader α} (hlen : xs.length < 2 ^ 64)
    (h : ∀ x ∈ xs, Spells item (write x) x) : Spells (readList item) (writeList write xs) xs := by
  have hspells : Spells (readList item) (writeList write xs) (xs.map id) := .list hlen h
  rwa [List.map_id] at hspells

/-! ### Whole inputs -/

section Whole

variable {reader : Reader α} {bs : Bytes} {x : α}

theorem Spells.entire_self (h : Spells reader bs x) : entire reader bs = .ok x := by
  have hread := h.reads []
  rw [List.append_nil] at hread
  rw [entire, hread]
  rfl

/-- A spelling that is cut short anywhere ends too early. -/
theorem Spells.entire_take (h : Spells reader bs x) {count : Nat} (hcount : count < bs.length) :
    entire reader (bs.take count) = .error .endOfInput := by
  have hback : bs.drop count ≠ [] := by
    rw [Ne, List.drop_eq_nil_iff]
    omega
  rw [entire, h.cut_short (List.take_append_drop count bs).symm hback]
  rfl

/-- What follows a spelling is left over. -/
theorem Spells.entire_append (h : Spells reader bs x) {tail : Bytes} (htail : tail ≠ []) :
    entire reader (bs ++ tail) = .error .trailingBytes := by
  have hleft : ¬ tail.isEmpty = true := by rwa [List.isEmpty_iff]
  rw [entire, h.reads]
  exact if_neg hleft

end Whole

/-! ### Streams -/

/-- Values one after another until the input is used up.  A reader that takes nothing off the front
would never come to its end. -/
def untilEnd (item : Reader α) (data : Bytes) : Except Error (List α) :=
  if data.isEmpty then .ok []
  else
    match item data with
    | .error e => .error e
    | .ok (x, rest) =>
        if rest.length < data.length then (untilEnd item rest).map (x :: ·)
        else .error .trailingBytes
termination_by data.length

/-- **A stream of spellings** reads as the list of their values. -/
theorem untilEnd_flatMap {item : Reader α} {xs : List α}
    (h : ∀ x ∈ xs, Spells item (write x) x ∧ write x ≠ []) :
    untilEnd item (xs.flatMap write) = .ok xs := by
  induction xs with
  | nil => rw [List.flatMap_nil, untilEnd]; rfl
  | cons x xs ih =>
    obtain ⟨⟨hx, hne⟩, hxs⟩ := List.forall_mem_cons.mp h
    have hpos := List.length_pos_iff.mpr hne
    have hshorter : (xs.flatMap write).length < (write x ++ xs.flatMap write).length := by
      rw [List.length_append]
      omega
    have hnonempty : ¬ (write x ++ xs.flatMap write).isEmpty = true := by
      simp [hne]
    rw [List.flatMap_cons, untilEnd, if_neg hnonempty, hx.reads]
    simp only [if_pos hshorter, ih hxs]
    rfl

end MergedMining.Wire
