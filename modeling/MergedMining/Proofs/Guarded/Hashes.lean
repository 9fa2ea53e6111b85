import MergedMining.BlockHeader
import MergedMining.Merkle.Branch
import MergedMining.Proofs.Guarded.Words

/-!
# Hashes that stay in their buffers

What is hashed is first put together in a buffer of fixed length: a header field by field, a node of
a tree from its two children.  Here this is done in guarded steps: no part is stored beyond the end
of its buffer, and a part of the buffer is only filled with exactly as many bytes as it has.  All
parts fit, so that every hash has a value, and it is the known one.

## Main definitions

* `Guarded.overwrite`, `Guarded.fill` — storing bytes in a part of a buffer, and one field after the
  other.
* `Guarded.blockHash`, `Guarded.join`, `Guarded.rootOf` — hashes from their buffers.

## Main results

* `Guarded.fill_eq` — fields that a buffer has room for stand in it side by side.
* `Guarded.blockHash_eq`, `Guarded.join_eq`, `Guarded.rootOf_eq` — every step is done in its range.
-/

namespace MergedMining.Guarded

/-! ### Buffers -/

/-- The part of a buffer from `start` up to `stop` is filled with exactly as many bytes. -/
def overwrite (buffer : Bytes) (start stop : Nat) (bytes : Bytes) : Option Bytes :=
  within (start ≤ stop ∧ stop ≤ buffer.length ∧ bytes.length = stop - start)
    (buffer.take start ++ (bytes ++ buffer.drop stop))

/-- Fields are stored one behind the other, from `position` on. -/
def fill (buffer : Bytes) (position : Nat) : List Bytes → Option Bytes
  | [] => some buffer
  | field :: fields => do
      let stored ← overwrite buffer position (position + field.length) field
      fill stored (position + field.length) fields

theorem overwrite_eq (front middle back : Bytes) {bytes : Bytes}
    (h : bytes.length = middle.length) :
    overwrite (front ++ (middle ++ back)) front.length (front.length + middle.length) bytes =
      some (front ++ (bytes ++ back)) := by
  have hrange : front.length ≤ front.length + middle.length ∧
      front.length + middle.length ≤ (front ++ (middle ++ back)).length ∧
      bytes.length = front.length + middle.length - front.length := by
    simp only [List.length_append]
    omega
  rw [overwrite, within_of hrange, List.take_left, ← List.append_assoc front middle back,
    ← List.length_append, List.drop_left]

/-- **Fields that fit stand side by side**, with what is left of the buffer behind them. -/
theorem fill_eq (fields : List Bytes) : ∀ (front room : Bytes),
    fields.flatten.length ≤ room.length →
    fill (front ++ room) front.length fields =
      some (front ++ (fields.flatten ++ room.drop fields.flatten.length)) := by
  induction fields with
  | nil =>
    intro front room _
    rfl
  | cons field fields ih =>
    intro front room hfits
    rw [List.flatten_cons, List.length_append] at hfits
    have htaken : (room.take field.length).length = field.length := by
      rw [List.length_take]
      omega
    have hstored : overwrite (front ++ room) front.length (front.length + field.length) field =
        some ((front ++ field) ++ room.drop field.length) := by
      have hstep := overwrite_eq front _ (room.drop field.length) htaken.symm
      rw [List.take_append_drop, htaken] at hstep
      rw [hstep, List.append_assoc]
    have hrest : fields.flatten.length ≤ (room.drop field.length).length := by
      rw [List.length_drop]
      omega
    rw [fill, hstored, Option.bind_eq_bind, Option.bind_some, ← List.length_append, ih _ _ hrest,
      List.flatten_cons, List.length_append, List.drop_drop, List.append_assoc, List.append_assoc]

/-! ### Headers -/

/-- The bytes of a header, field by field. -/
def fieldsOf (header : BlockHeader) : List Bytes :=
  [Bytes.ofUInt32 header.version, header.prev.bytes, header.merkleRoot.bytes,
    Bytes.ofUInt32 header.time, Bytes.ofUInt32 header.bits, Bytes.ofUInt32 header.nonce]

/-- The hash of a header, from a buffer of eighty bytes. -/
def blockHash (header : BlockHeader) : Option Hash256 := do
  let buffer ← fill (List.replicate 80 0) 0 (fieldsOf header)
  return .ofMessage buffer

/-- The hash of a header that its work is measured by. -/
def applyWorkHash : WorkHash → BlockHeader → Option Hash256
  | .sha256d, header => blockHash header

theorem flatten_fieldsOf (header : BlockHeader) : (fieldsOf header).flatten = header.write := by
  simp [fieldsOf, BlockHeader.write]

/-- **Headers are hashed in range**: their fields fill the eighty bytes. -/
theorem blockHash_eq (header : BlockHeader) : blockHash header = some header.hash := by
  have hlength : (fieldsOf header).flatten.length = (List.replicate 80 (0 : UInt8)).length := by
    rw [flatten_fieldsOf, BlockHeader.length_write, List.length_replicate]
  have hfilled : fill (List.replicate 80 0) 0 (fieldsOf header) = some header.write := by
    have hfill := fill_eq (fieldsOf header) [] _ (Nat.le_of_eq hlength)
    rwa [hlength, List.drop_length, List.append_nil, flatten_fieldsOf] at hfill
  rw [blockHash, hfilled]
  rfl

theorem applyWorkHash_eq (workHash : WorkHash) (header : BlockHeader) :
    applyWorkHash workHash header = some (workHash.apply header) := by
  cases workHash with
  | sha256d => exact blockHash_eq header

/-! ### Trees -/

/-- The hash of an inner tree node, from a buffer with a half for each child. -/
def join (left right : Hash256) : Option Hash256 := do
  let half ← overwrite (List.replicate 64 0) 0 32 left.bytes
  let buffer ← overwrite half 32 half.length right.bytes
  return .ofMessage buffer

/-- Joins a node with its sibling: the lowest bit of its position tells its side. -/
def step (index : UInt32) (node sibling : Hash256) : Option Hash256 :=
  if index &&& 1 = 1 then join sibling node else join node sibling

/-- Climbs from a node, joining one sibling per level. -/
def climb (index : UInt32) (node : Hash256) : List Hash256 → Option Hash256
  | [] => some node
  | sibling :: rest => do
      let parent ← step index node sibling
      let above ← shiftRight index 1
      climb above parent rest

/-- The root to which a branch leads a leaf. -/
def rootOf (branch : Merkle.Branch) (leaf : Hash256) : Option Hash256 :=
  climb branch.index leaf branch.hashes

/-- **Children are joined in range**: each fills its half of the buffer. -/
theorem join_eq (left right : Hash256) : join left right = some (Hash256.join left right) := by
  have hleft : overwrite (List.replicate 64 0) 0 32 left.bytes =
      some (left.bytes ++ List.replicate 32 0) :=
    overwrite_eq [] (List.replicate 32 0) (List.replicate 32 0) left.length_bytes
  have hlength : (left.bytes ++ List.replicate 32 0).length = 64 := by
    rw [List.length_append, left.length_bytes, List.length_replicate]
  have hright : overwrite (left.bytes ++ List.replicate 32 0) 32 64 right.bytes =
      some (left.bytes ++ right.bytes) := by
    have hstep := overwrite_eq left.bytes (List.replicate 32 0) [] right.length_bytes
    rw [List.append_nil, List.append_nil, left.length_bytes] at hstep
    exact hstep
  rw [join, hleft, Option.bind_eq_bind, Option.bind_some, hlength, hright]
  rfl

theorem step_eq (index : UInt32) (node sibling : Hash256) :
    step index node sibling = some (Merkle.step index.toNat node sibling) := by
  have hside : index &&& 1 = 1 ↔ index.toNat % 2 = 1 := by
    rw [← UInt32.toNat_inj, UInt32.toNat_and, UInt32.toNat_one, Nat.and_one_is_mod]
  rw [step, Merkle.step, join_eq, join_eq]
  by_cases hright : index.toNat % 2 = 1
  · rw [if_pos (hside.mpr hright), if_pos hright]
  · rw [if_neg (mt hside.mp hright), if_neg hright]

theorem climb_eq (siblings : List Hash256) : ∀ (index : UInt32) (node : Hash256),
    climb index node siblings = some (Merkle.climb index.toNat node siblings) := by
  induction siblings with
  | nil =>
    intro index node
    rfl
  | cons sibling rest ih =>
    intro index node
    have hshift : shiftRight index 1 = some (index >>> 1) := within_of (by decide) _
    have habove : (index >>> 1).toNat = index.toNat / 2 := by
      rw [UInt32.toNat_shiftRight, UInt32.toNat_one]
      rfl
    rw [climb, step_eq, hshift, Option.bind_eq_bind, Option.bind_some, Option.bind_eq_bind,
      Option.bind_some, ih, habove, Merkle.climb_cons]

/-- **Branches are climbed in range**, whatever their position is and however long they are. -/
theorem rootOf_eq (branch : Merkle.Branch) (leaf : Hash256) :
    rootOf branch leaf = some (branch.rootOf leaf) := climb_eq _ _ _

end MergedMining.Guarded
