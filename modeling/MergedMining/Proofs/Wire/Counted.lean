import MergedMining.Wire.VarInt

/-!
# Counts and lengths are read back

Whatever follows the spelling of a count or of a byte string behind its length, reading takes the
spelling off the front and leaves the rest as it is.  A spelling can therefore not be confused with
the beginning of another one.

## Main results

* `Wire.VarInt.read_write_append` — a number below `2 ^ 64` is read back.
* `Wire.readBytes_writeBytes_append` — and so is a byte string behind its length.
* `Wire.writeBytes_append_inj` — two texts that start with byte strings behind their lengths are
  the same only if the byte strings are.
-/

namespace MergedMining.Wire

theorem take_append {count : Nat} {bs : Bytes} (hlen : bs.length = count) (rest : Bytes) :
    take count (bs ++ rest) = .ok (bs, rest) := by
  rw [take, List.take_left' hlen, List.drop_left' hlen]
  exact if_pos hlen

namespace VarInt

/-- A number that fits into `width` bytes and has no shorter spelling is read back from them. -/
theorem readLong_ofNatLE_append {width least n : Nat} (hleast : least ≤ n)
    (hfit : n < 256 ^ width) (rest : Bytes) :
    readLong width least (Bytes.ofNatLE width n ++ rest) = .ok (n, rest) := by
  have hvalue : Bytes.toNatLE (Bytes.ofNatLE width n) = n := by
    rw [Bytes.toNatLE_ofNatLE, Nat.mod_eq_of_lt hfit]
  rw [readLong, take_append (Bytes.length_ofNatLE width n)]
  change (if Bytes.toNatLE (Bytes.ofNatLE width n) < least then _ else _) = _
  rw [hvalue, if_neg (Nat.not_lt_of_le hleast)]
  rfl

theorem read_cons (tag : UInt8) (rest : Bytes) :
    read (tag :: rest) =
      if tag = 0xfd then readLong 2 0xfd rest
      else if tag = 0xfe then readLong 4 0x10000 rest
      else if tag = 0xff then readLong 8 0x100000000 rest
      else .ok (tag.toNat, rest) := rfl

/-- **A number is read back from its spelling**, each of the four forms by its own tag. -/
theorem read_write_append {n : Nat} (hn : n < 2 ^ 64) (rest : Bytes) :
    read (write n ++ rest) = .ok (n, rest) := by
  rw [write]
  split
  case isTrue hone =>
    have hvalue : (UInt8.ofNat n).toNat = n :=
      UInt8.toNat_ofNat_of_lt' (Nat.lt_trans hone (by decide))
    -- a number of one byte is none of the tags
    have htag : ∀ tag : UInt8, 0xfd ≤ tag.toNat → UInt8.ofNat n ≠ tag := by
      rintro tag hle rfl
      omega
    rw [List.singleton_append, read_cons, if_neg (htag 0xfd (by decide)),
      if_neg (htag 0xfe (by decide)), if_neg (htag 0xff (by decide)), hvalue]
  case isFalse hone =>
    split
    case isTrue htwo =>
      rw [List.cons_append, read_cons, if_pos rfl]
      exact readLong_ofNatLE_append (Nat.le_of_not_lt hone) (by omega) rest
    case isFalse htwo =>
      split
      case isTrue hfour =>
        rw [List.cons_append, read_cons, if_neg (by decide), if_pos rfl]
        exact readLong_ofNatLE_append (Nat.le_of_not_lt htwo) (by omega) rest
      case isFalse hfour =>
        rw [List.cons_append, read_cons, if_neg (by decide), if_neg (by decide), if_pos rfl]
        exact readLong_ofNatLE_append (Nat.le_of_not_lt hfour) (by omega) rest

end VarInt

/-- **A byte string is read back from behind its length.** -/
theorem readBytes_writeBytes_append {bs : Bytes} (hlen : bs.length < 2 ^ 64) (rest : Bytes) :
    readBytes (writeBytes bs ++ rest) = .ok (bs, rest) := by
  rw [readBytes, writeBytes, List.append_assoc, VarInt.read_write_append hlen]
  exact take_append rfl rest

/-- Two texts that start with byte strings behind their lengths are the same only if the byte
strings are, and what follows them. -/
theorem writeBytes_append_inj {bs cs rest rest' : Bytes} (hbs : bs.length < 2 ^ 64)
    (hcs : cs.length < 2 ^ 64) (h : writeBytes bs ++ rest = writeBytes cs ++ rest') :
    bs = cs ∧ rest = rest' := by
  have hread := readBytes_writeBytes_append hbs rest
  rw [h, readBytes_writeBytes_append hcs rest'] at hread
  cases hread
  exact ⟨rfl, rfl⟩

end MergedMining.Wire
