import MergedMining.Merkle.Wire
import MergedMining.Proofs.Wire.Canonical

/-!
# Branches on the wire

A branch is written as its hashes behind their count, and the position behind them.  The count comes
from whoever has sent the branch and can be any number of 64 bits, far more than there are bytes.
It says how many hashes are wanted, but the bytes say how many are read: the loop that takes them
ends with the input, however long it was to go on.  To speak about how far it comes, the loop is
written once more so that it keeps what it has taken when it fails.

## Main definitions

* `Wire.taken` — the values that have been read one after the other when that comes to an end.
* `Wire.blocks` — a byte string cut into blocks of the width of a hash.
* `Merkle.Branch.readTaken` — a branch as it is read, with the hashes that have been taken so far.

## Main results

* `Merkle.Branch.spells_write`, `Merkle.Branch.canonical_read` — a branch frames itself, and has one
  spelling.
* `Wire.many_eq_taken`, `Wire.many_length_taken` — the loop does what it did before, and what it has
  taken is what the loop completes.
* `Wire.taken_hash` — hashes are read for as long as there are bytes for them.
* `Merkle.Branch.read_counted` — what is read behind any count.
-/

namespace MergedMining

open Wire (Canonical Spells andThen value andThen_eq_ok_iff value_eq_ok_iff)

/-! ### One spelling -/

namespace Merkle.Branch

theorem read_eq : read = andThen (Wire.readList Wire.hash) fun hashes =>
    andThen Wire.uint32 fun index => value ⟨hashes, index⟩ := rfl

theorem spells_write {b : Branch} (hlen : b.hashes.length < 2 ^ 64) : Spells read b.write b := by
  rw [read_eq, write]
  exact (Wire.Spells.list_self hlen fun x _ => Wire.spells_hash x).andThen
    ((Wire.spells_uint32 _).map _)

theorem canonical_read : Canonical read write (·.hashes.length < 2 ^ 64) := by
  intro data b rest h
  rw [read_eq, andThen_eq_ok_iff] at h
  obtain ⟨hashes, data₁, hhashes, h⟩ := h
  obtain ⟨index, data₂, hindex, h⟩ := andThen_eq_ok_iff.mp h
  obtain ⟨rfl, rfl⟩ := value_eq_ok_iff.mp h
  have hitem : Canonical Wire.hash Hash256.bytes fun _ => True := fun _ _ _ h =>
    ⟨trivial, Wire.eq_of_hash_eq_ok h⟩
  obtain ⟨⟨hlen, -⟩, rfl⟩ := hitem.readList hhashes
  refine ⟨hlen, ?_⟩
  rw [Wire.eq_of_uint32_eq_ok hindex, write, List.append_assoc]

end Merkle.Branch

/-! ### How far a loop comes -/

namespace Wire

/-- The values that have been read when the reading of `count` of them ends, and how it ends: with
what is left of the input, or with an error. -/
def taken {α : Type} (item : Reader α) : (count : Nat) → Bytes → List α × Except Error Bytes
  | 0, data => ([], .ok data)
  | count + 1, data =>
      match item data with
      | .error e => ([], .error e)
      | .ok (x, rest) => (x :: (taken item count rest).1, (taken item count rest).2)

/-- **The loop does what it did before**, except that it no longer forgets what it has taken when it
fails. -/
theorem many_eq_taken {α : Type} (item : Reader α) (count : Nat) :
    ∀ data, many item count data =
      (taken item count data).2.map fun left => ((taken item count data).1, left) := by
  induction count with
  | zero => intro data; rfl
  | succ count ih =>
    intro data
    rw [many_succ, andThen, taken]
    cases item data with
    | error e => rfl
    | ok first =>
      obtain ⟨x, rest⟩ := first
      change andThen (many item count) (fun xs => value (x :: xs)) rest = _
      rw [andThen, ih]
      cases (taken item count rest).2 with
      | error e => rfl
      | ok left => rfl

/-- What has been taken is what the loop completes: it can be read by itself, and unless this was
all that was wanted, the next value is the one that fails. -/
theorem many_length_taken {α : Type} (item : Reader α) (count : Nat) :
    ∀ data, ∃ left,
      many item (taken item count data).1.length data = .ok ((taken item count data).1, left) ∧
        ((taken item count data).1.length = count ∨
          ∃ e, item left = .error e ∧ (taken item count data).2 = .error e) := by
  induction count with
  | zero => intro data; exact ⟨data, rfl, .inl rfl⟩
  | succ count ih =>
    intro data
    rw [taken]
    cases hitem : item data with
    | error e => exact ⟨data, rfl, .inr ⟨e, hitem, rfl⟩⟩
    | ok first =>
      obtain ⟨x, rest⟩ := first
      obtain ⟨left, hmany, hend⟩ := ih rest
      refine ⟨left, ?_, hend.imp_left (congrArg (· + 1))⟩
      rw [List.length_cons, many_succ, andThen, hitem]
      change andThen (many item _) (fun xs => value (x :: xs)) rest = _
      rw [andThen, hmany]
      rfl

/-- The first `count` blocks of thirty-two bytes. -/
def blocks (count : Nat) (data : Bytes) : List Bytes :=
  (List.range count).map fun i => (data.drop (32 * i)).take 32

theorem blocks_succ (count : Nat) (data : Bytes) :
    blocks (count + 1) data = data.take 32 :: blocks count (data.drop 32) := by
  unfold blocks
  rw [List.range_succ_eq_map, List.map_cons, List.map_map]
  refine congrArg _ (List.map_congr_left fun i _ => ?_)
  rw [Function.comp_apply, List.drop_drop, Nat.mul_succ, Nat.add_comm]

theorem length_blocks (count : Nat) (data : Bytes) : (blocks count data).length = count := by
  rw [blocks, List.length_map, List.length_range]

theorem hash_of_le {data : Bytes} (h : 32 ≤ data.length) :
    ∃ x, hash data = .ok (x, data.drop 32) ∧ x.bytes = data.take 32 := by
  have hlen : (data.take 32).length = 32 := List.length_take_of_le h
  exact ⟨⟨data.take 32, hlen⟩, dif_pos hlen, rfl⟩

theorem hash_of_lt {data : Bytes} (h : data.length < 32) : hash data = .error .endOfInput := by
  refine dif_neg fun hlen => ?_
  rw [List.length_take] at hlen
  omega

theorem uint32_of_le {data : Bytes} (h : 4 ≤ data.length) :
    uint32 data = .ok (Bytes.toUInt32 (data.take 4), data.drop 4) := by
  have hlen : (data.take 4).length = 4 := List.length_take_of_le h
  rw [uint32_eq, andThen, take, if_pos hlen]
  rfl

theorem uint32_of_lt {data : Bytes} (h : data.length < 4) : uint32 data = .error .endOfInput := by
  have hlen : (data.take 4).length ≠ 4 := by
    rw [List.length_take]
    omega
  rw [uint32_eq, andThen, take, if_neg hlen]
  rfl

/-- **Hashes are read for as long as there are bytes for them**, whatever the count: if there are
enough they are all read, and otherwise the input ends. -/
theorem taken_hash (count : Nat) : ∀ data : Bytes,
    (taken hash count data).1.map Hash256.bytes = blocks (min count (data.length / 32)) data ∧
      (taken hash count data).2 =
        if 32 * count ≤ data.length then .ok (data.drop (32 * count)) else .error .endOfInput := by
  induction count with
  | zero =>
    intro data
    rw [Nat.zero_min]
    exact ⟨rfl, rfl⟩
  | succ count ih =>
    intro data
    rw [taken]
    by_cases hone : 32 ≤ data.length
    · obtain ⟨x, hread, hx⟩ := hash_of_le hone
      obtain ⟨hvalues, hend⟩ := ih (data.drop 32)
      rw [List.length_drop] at hvalues hend
      -- one block fewer is left, and one hash fewer to read
      have hcount : min (count + 1) (data.length / 32) =
          min count ((data.length - 32) / 32) + 1 := by omega
      rw [hread, hcount, blocks_succ]
      refine ⟨by rw [List.map_cons, hx, hvalues], ?_⟩
      have henough : 32 * count ≤ data.length - 32 ↔ 32 * (count + 1) ≤ data.length := by omega
      rw [hend, List.drop_drop, Nat.add_comm 32, ← Nat.mul_succ]
      simp only [henough]
    · have hnone : min (count + 1) (data.length / 32) = 0 := by omega
      rw [hash_of_lt (Nat.lt_of_not_le hone), hnone, if_neg (by omega)]
      exact ⟨rfl, rfl⟩

theorem length_taken_hash (count : Nat) (data : Bytes) :
    (taken hash count data).1.length = min count (data.length / 32) := by
  rw [← List.length_map, (taken_hash count data).1, length_blocks]

theorem hash_eq_error {data : Bytes} {e : Error} (h : hash data = .error e) : e = .endOfInput := by
  rcases Nat.lt_or_ge data.length 32 with hlt | hle
  · rw [hash_of_lt hlt] at h
    exact (Except.error.inj h).symm
  · obtain ⟨x, hok, -⟩ := hash_of_le hle
    rw [hok] at h
    cases h

end Wire

/-! ### Any count -/

namespace Merkle.Branch

/-- Reads a branch, and keeps the hashes that have been taken when that ends. -/
def readTaken (data : Bytes) : List Hash256 × Except Wire.Error (Branch × Bytes) :=
  match Wire.VarInt.read data with
  | .error e => ([], .error e)
  | .ok (count, rest) =>
      let hashes := (Wire.taken Wire.hash count rest).1
      (hashes, (Wire.taken Wire.hash count rest).2.bind
        (andThen Wire.uint32 fun index => value ⟨hashes, index⟩))

theorem snd_readTaken (data : Bytes) : (readTaken data).2 = read data := by
  rw [read_eq, andThen, Wire.readList_eq, andThen, readTaken]
  cases Wire.VarInt.read data with
  | error e => rfl
  | ok counted =>
    obtain ⟨count, rest⟩ := counted
    change (Wire.taken Wire.hash count rest).2.bind _ = (Wire.many Wire.hash count rest).bind _
    rw [Wire.many_eq_taken]
    cases (Wire.taken Wire.hash count rest).2 with
    | error e => rfl
    | ok left => rfl

/-- Behind a count everything depends on the number of bytes. -/
theorem read_write_append {count : Nat} (hcount : count < 2 ^ 64) (rest : Bytes) :
    read (Wire.VarInt.write count ++ rest) =
      if 32 * count + 4 ≤ rest.length then
        .ok (⟨(Wire.taken Wire.hash count rest).1,
          Bytes.toUInt32 ((rest.drop (32 * count)).take 4)⟩, rest.drop (32 * count + 4))
      else .error .endOfInput := by
  obtain ⟨-, hend⟩ := Wire.taken_hash count rest
  rw [← snd_readTaken, readTaken, Wire.VarInt.read_write_append hcount]
  change (Wire.taken Wire.hash count rest).2.bind (andThen Wire.uint32 _) = _
  rw [hend]
  by_cases hhashes : 32 * count ≤ rest.length
  case neg =>
    rw [if_neg hhashes, if_neg (by omega)]
    rfl
  rw [if_pos hhashes, Except.bind]
  have hleft : (rest.drop (32 * count)).length = rest.length - 32 * count := List.length_drop
  by_cases hindex : 32 * count + 4 ≤ rest.length
  · rw [if_pos hindex, andThen, Wire.uint32_of_le (by omega), ← List.drop_drop]
    rfl
  · rw [if_neg hindex, andThen, Wire.uint32_of_lt (by omega)]
    rfl

/-- A branch that is read behind a count. -/
theorem of_read_eq_ok {count : Nat} (hcount : count < 2 ^ 64) {rest left : Bytes} {b : Branch}
    (h : read (Wire.VarInt.write count ++ rest) = .ok (b, left)) :
    32 * count + 4 ≤ rest.length ∧ b.hashes.map Hash256.bytes = Wire.blocks count rest ∧
      b.index.toNat = Bytes.toNatLE ((rest.drop (32 * count)).take 4) ∧
      left = rest.drop (32 * count + 4) := by
  rw [read_write_append hcount] at h
  by_cases henough : 32 * count + 4 ≤ rest.length
  case neg =>
    rw [if_neg henough] at h
    cases h
  rw [if_pos henough] at h
  cases h
  obtain ⟨hvalues, -⟩ := Wire.taken_hash count rest
  have hall : min count (rest.length / 32) = count := by omega
  rw [hall] at hvalues
  have hlen : ((rest.drop (32 * count)).take 4).length = 4 := by
    rw [List.length_take, List.length_drop]
    omega
  exact ⟨henough, hvalues, Bytes.toNat_toUInt32 hlen, rfl⟩

/-- The hashes that are taken behind a count, and why there are no more of them. -/
theorem readTaken_write_append {count : Nat} (hcount : count < 2 ^ 64) (rest : Bytes) :
    let hashes := (readTaken (Wire.VarInt.write count ++ rest)).1
    hashes.length = min count (rest.length / 32) ∧
      ∃ left, Wire.many Wire.hash hashes.length rest = .ok (hashes, left) ∧
        (hashes.length = count ∨ Wire.hash left = .error .endOfInput) := by
  have hhashes : (readTaken (Wire.VarInt.write count ++ rest)).1 =
      (Wire.taken Wire.hash count rest).1 := by
    rw [readTaken, Wire.VarInt.read_write_append hcount]
  obtain ⟨left, hmany, hend⟩ := Wire.many_length_taken Wire.hash count rest
  rw [hhashes]
  refine ⟨Wire.length_taken_hash count rest, left, hmany, hend.imp_right ?_⟩
  rintro ⟨e, hnext, -⟩
  rwa [Wire.hash_eq_error hnext] at hnext

/-- **The bytes decide how much is read, and not the count.**  Behind the spelling of any count of
64 bits a branch is read exactly if there are thirty-two bytes for each of as many hashes, and four
for the position; then these are what it is made of, in their order, and all that is taken.
Otherwise the input ends too early.  Either way no more hashes are read than there are bytes for,
and if they are fewer than the count says, the input ends in the next one. -/
theorem read_counted {count : Nat} (hcount : count < 2 ^ 64) (rest : Bytes) :
    let data := Wire.VarInt.write count ++ rest
    let hashes := (readTaken data).1
    ((∃ b left, read data = .ok (b, left)) ↔ 32 * count + 4 ≤ rest.length) ∧
    (∀ b left, read data = .ok (b, left) →
      b.hashes.length = count ∧ b.hashes.map Hash256.bytes = Wire.blocks count rest ∧
        b.index.toNat = Bytes.toNatLE ((rest.drop (32 * count)).take 4) ∧
        left = rest.drop (32 * count + 4)) ∧
    (rest.length < 32 * count + 4 → read data = .error .endOfInput) ∧
    (readTaken data).2 = read data ∧
    hashes.length = min count (rest.length / 32) ∧
    ∃ left, Wire.many Wire.hash hashes.length rest = .ok (hashes, left) ∧
      (hashes.length = count ∨ Wire.hash left = .error .endOfInput) := by
  intro data hashes
  have hread := read_write_append hcount rest
  refine ⟨⟨?_, fun henough => ?_⟩, ?_, fun hshort => ?_, snd_readTaken data,
    readTaken_write_append hcount rest⟩
  · rintro ⟨b, left, hok⟩
    exact (of_read_eq_ok hcount hok).1
  · exact ⟨_, _, hread.trans (if_pos henough)⟩
  · intro b left hok
    obtain ⟨-, hvalues, hrest⟩ := of_read_eq_ok hcount hok
    refine ⟨?_, hvalues, hrest⟩
    rw [← List.length_map, hvalues, Wire.length_blocks]
  · exact hread.trans (if_neg (Nat.not_le_of_lt hshort))

/-- Behind the count one, thirty-seven bytes are a branch and a byte more.  Behind the largest count
there is, forty bytes are one hash, and then the input ends. -/
theorem largestCount_unread :
    ((1 < 2 ^ 64 ∧ 32 * 1 + 4 ≤ (List.replicate 37 (7 : UInt8)).length) ∧
      ∃ b, read (Wire.VarInt.write 1 ++ List.replicate 37 7) = .ok (b, [7]) ∧
        b.hashes.length = 1 ∧ b.index.toNat = 0x07070707) ∧
    (2 ^ 64 - 1 < 2 ^ 64 ∧ (List.replicate 40 (7 : UInt8)).length < 32 * (2 ^ 64 - 1) + 4) ∧
      read (Wire.VarInt.write (2 ^ 64 - 1) ++ List.replicate 40 7) = .error .endOfInput ∧
      (readTaken (Wire.VarInt.write (2 ^ 64 - 1) ++ List.replicate 40 7)).1.length = 1 := by
  have hone : 1 < 2 ^ 64 := by decide
  have hmost : 2 ^ 64 - 1 < 2 ^ 64 := by decide
  have hlong : 32 * 1 + 4 ≤ (List.replicate 37 (7 : UInt8)).length := by decide
  have hshort : (List.replicate 40 (7 : UInt8)).length < 32 * (2 ^ 64 - 1) + 4 := by decide
  obtain ⟨henough, hparts, -⟩ := read_counted hone (List.replicate 37 7)
  obtain ⟨-, -, hends, -, htaken, -⟩ := read_counted hmost (List.replicate 40 7)
  obtain ⟨b, left, hread⟩ := henough.mpr hlong
  obtain ⟨hlength, -, hindex, rfl⟩ := hparts b left hread
  exact ⟨⟨⟨hone, hlong⟩, b, hread, hlength, hindex⟩, ⟨hmost, hshort⟩, hends hshort, htaken⟩

end Merkle.Branch

end MergedMining
