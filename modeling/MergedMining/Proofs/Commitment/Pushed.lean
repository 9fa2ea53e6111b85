import MergedMining.Proofs.Commitment.Uniqueness
import MergedMining.Script

/-!
# Commitments that a script pushes

A coinbase script that pushes a commitment and nothing else consists of the push opcode, perhaps the
marker, and the commitment.  Such a script is read as committing to what was pushed, save for rare
values: the search for the marker is also met by a root or a nonce that spells the marker, and the
search for the root is met too early by a root that goes on with the bytes in front of it.  A root of
the second kind repeats these bytes all along, so that there are three of them.

## Main definitions

* `Commitment.pushed` — the commitment that such a script carries.
* `Commitment.Confused` — the values for which the script is not read.

## Main results

* `Bytes.eq_cycle_of_prefix` — a byte string that goes on with what stands in front of it repeats it.
* `Commitment.unmarked_body_iff` — a commitment holds the marker in its root or as its nonce.
* `Commitment.written_pushed`, `Commitment.not_confused_of_written` — what was pushed is read exactly
  if its values are not confused with other parts of the script.
-/

namespace MergedMining

namespace Bytes

/-! ### Repeated bytes -/

/-- The first `n` bytes of `pattern` written again and again. -/
def cycle (pattern : Bytes) (n : Nat) : Bytes := (List.replicate n pattern).flatten.take n

theorem prefix_flatten_replicate {w pattern : Bytes} (h : w <+: pattern ++ w) (n : Nat) :
    w <+: (List.replicate n pattern).flatten ++ w := by
  induction n with
  | zero => exact List.prefix_rfl
  | succ n ih =>
    rw [List.replicate_succ, List.flatten_cons, List.append_assoc]
    exact h.trans ((List.prefix_append_right_inj pattern).mpr ih)

/-- **A byte string that starts in the pattern in front of it repeats the pattern.** -/
theorem eq_cycle_of_prefix {w pattern : Bytes} (hpattern : pattern ≠ [])
    (h : w <+: pattern ++ w) : w = cycle pattern w.length := by
  have hprefix := prefix_flatten_replicate h w.length
  have hlen : w.length ≤ (List.replicate w.length pattern).flatten.length := by
    rw [List.length_flatten, List.map_replicate, List.sum_replicate_nat]
    exact Nat.le_mul_of_pos_right _ (List.length_pos_iff.mpr hpattern)
  unfold cycle
  rw [List.prefix_iff_eq_take, List.take_append_of_le_length hlen] at hprefix
  exact hprefix

/-! ### Occurrences in parts -/

variable {needle front back xs ys : Bytes} {b : UInt8} {i : Nat}

theorem occursAt_iff_prefix_drop {script : Bytes} (hi : i ≤ script.length) :
    needle.OccursAt script i ↔ needle <+: script.drop i := by
  rw [← occursAt_zero_iff, occursAt_drop_iff hi, Nat.add_zero]

theorem occursAt_append_right (needle front back : Bytes) (i : Nat) :
    needle.OccursAt (front ++ back) (front.length + i) ↔ needle.OccursAt back i := by
  have hlen : front.length ≤ (front ++ back).length := by
    rw [List.length_append]
    exact Nat.le_add_right _ _
  rw [← occursAt_drop_iff hlen, List.drop_left]

theorem OccursAt.append_left (h : needle.OccursAt front i) (back : Bytes) :
    needle.OccursAt (front ++ back) i := by
  obtain ⟨before, behind, rfl, hbefore⟩ := h
  exact ⟨before, behind ++ back, by simp only [List.append_assoc], hbefore⟩

/-- A prefix does not reach over a byte that it does not hold. -/
theorem prefix_of_prefix_append_cons (hb : b ∉ needle) (h : needle <+: xs ++ b :: ys) :
    needle <+: xs := by
  have hleft : xs ++ [b] <+: xs ++ b :: ys := ⟨ys, by rw [List.append_assoc, List.singleton_append]⟩
  rcases List.prefix_or_prefix_of_prefix h hleft with hshort | hlong
  · rcases List.prefix_concat_iff.mp hshort with heq | hprefix
    · exact absurd (heq ▸ List.mem_append_right xs List.mem_cons_self) hb
    · exact hprefix
  · exact absurd (hlong.subset (List.mem_append_right xs List.mem_cons_self)) hb

/-- An occurrence lies in front of a byte that it does not hold, or behind it. -/
theorem OccursAt.of_append_cons (hb : b ∉ needle) (h : needle.OccursAt (xs ++ b :: ys) i) :
    needle.OccursAt xs i ∨ ∃ k, needle.OccursAt ys k := by
  rcases Nat.lt_or_ge xs.length i with hlt | hle
  · obtain ⟨k, rfl⟩ := Nat.exists_eq_add_of_lt hlt
    rw [Nat.add_assoc, occursAt_append_right, occursAt_cons_succ] at h
    exact Or.inr ⟨k, h⟩
  · have hlen : i ≤ (xs ++ b :: ys).length := by
      rw [List.length_append]
      omega
    rw [occursAt_iff_prefix_drop hlen, List.drop_append_of_le_length hle] at h
    exact Or.inl ((occursAt_iff_prefix_drop hle).mpr (prefix_of_prefix_append_cons hb h))

/-- The same with several bytes in between: induction on them, as only the first of them has
anything in front of it. -/
theorem OccursAt.of_separated {separator : Bytes} (hneedle : needle ≠ []) :
    ∀ (xs : Bytes) {i : Nat}, (∀ b ∈ separator, b ∉ needle) → separator ≠ [] →
      needle.OccursAt (xs ++ (separator ++ ys)) i →
      needle.OccursAt xs i ∨ ∃ k, needle.OccursAt ys k := by
  induction separator with
  | nil =>
    intro xs i _ hne _
    exact absurd rfl hne
  | cons b separator ih =>
    intro xs i hsep _ h
    rcases OccursAt.of_append_cons (hsep b List.mem_cons_self) h with hleft | ⟨k, hright⟩
    · exact Or.inl hleft
    · refine Or.inr ?_
      by_cases hnil : separator = []
      · subst hnil
        exact ⟨k, hright⟩
      · have hrest : ∀ b ∈ separator, b ∉ needle := fun b hb => hsep b (List.mem_cons_of_mem _ hb)
        rcases ih [] hrest hnil hright with hempty | hys
        · have hlen := hempty.add_length_le
          have hpos := List.length_pos_iff.mpr hneedle
          rw [List.length_nil] at hlen
          omega
        · exact hys

end Bytes

namespace Commitment

variable {root : Hash256} {height : Nat} {nonce : UInt32} {marked : Bool}

/-! ### Markers in a commitment -/

theorem ofUInt32_eq_marker_iff : Bytes.ofUInt32 nonce = marker ↔ nonce = 0x6d6dbefa := by
  constructor
  · intro h
    exact Bytes.ofUInt32_inj (h.trans (by decide))
  · rintro rfl
    decide

theorem size_not_in_marker : ∀ height < 32, ∀ b ∈ Bytes.ofNatLE 4 (2 ^ height), b ∉ marker := by
  decide +kernel

/-- **A commitment holds the marker in its root or as its nonce**: the bytes of the size in between
do not belong to any marker. -/
theorem unmarked_body_iff {c : Commitment} (hsize : c.treeSize.toNat = 2 ^ height) :
    Unmarked c.body ↔ Unmarked c.root.bytes ∧ c.nonce ≠ 0x6d6dbefa := by
  have hsep : ∀ b ∈ Bytes.ofUInt32 c.treeSize, b ∉ marker := by
    unfold Bytes.ofUInt32
    rw [hsize]
    exact size_not_in_marker height (height_lt_of_toNat_eq hsize)
  have hbody : c.body = c.root.bytes ++ (Bytes.ofUInt32 c.treeSize ++ Bytes.ofUInt32 c.nonce) := by
    rw [body, List.append_assoc]
  constructor
  · intro hnone
    constructor
    · intro i hi
      exact hnone i (hbody ▸ hi.append_left _)
    · intro hnonce
      refine hnone (32 + 4) ⟨c.root.bytes ++ Bytes.ofUInt32 c.treeSize, [], ?_, ?_⟩
      · rw [← ofUInt32_eq_marker_iff.mpr hnonce, List.append_nil, body]
      · rw [List.length_append, c.root.length_bytes, Bytes.length_ofUInt32]
  · rintro ⟨hroot, hnonce⟩ i hi
    rw [hbody] at hi
    have hne : Bytes.ofUInt32 c.treeSize ≠ [] := List.cons_ne_nil _ _
    rcases Bytes.OccursAt.of_separated (by decide) _ hsep hne hi with hleft | ⟨k, hright⟩
    · exact hroot i hleft
    · -- the nonce has room for one marker, at its start
      have hlen := hright.add_length_le
      rw [Bytes.length_ofUInt32, marker, List.length_cons] at hlen
      have hzero : k = 0 := by simp at hlen; omega
      subst hzero
      have heq := ((Bytes.occursAt_zero_iff _ _).mp hright).eq_of_length (by simp [marker])
      exact hnonce (ofUInt32_eq_marker_iff.mp heq.symm)

theorem unmarked_cons_iff {b : UInt8} (hb : b ≠ 0xfa) (script : Bytes) :
    Unmarked (b :: script) ↔ Unmarked script := by
  constructor
  · intro hnone i hi
    exact hnone (i + 1) ((Bytes.occursAt_cons_succ marker b script i).mpr hi)
  · intro hnone i hi
    cases i with
    | zero =>
      rw [Bytes.occursAt_zero_iff, marker, List.cons_prefix_cons] at hi
      exact hb hi.1.symm
    | succ i => exact hnone i ((Bytes.occursAt_cons_succ marker b script i).mp hi)

/-- Behind a marker there is no other one that begins in it. -/
theorem markedOnceAt_marker_iff (script : Bytes) :
    MarkedOnceAt (marker ++ script) 0 ↔ Unmarked script := by
  have hzero : marker.OccursAt (marker ++ script) 0 :=
    (Bytes.occursAt_zero_iff _ _).mpr (List.prefix_append _ _)
  -- the bytes of the marker are no heads of a marker but for the first
  have hinner : ∀ i < 3, ¬ marker.OccursAt (marker ++ script) (i + 1) := by
    intro i hi h
    rw [Bytes.occursAt_iff_prefix_drop (by simp [marker]; omega)] at h
    obtain rfl | rfl | rfl : i = 0 ∨ i = 1 ∨ i = 2 := by omega
    · simp [marker] at h
    · simp [marker] at h
    · simp [marker] at h
  constructor
  · intro honce k hk
    have heq := (honce (4 + k)).mp ((Bytes.occursAt_append_right marker marker script k).mpr hk)
    omega
  · intro hnone i
    constructor
    · intro hi
      rcases Nat.lt_or_ge i 4 with hlt | hge
      · cases i with
        | zero => rfl
        | succ i => exact absurd hi (hinner i (by omega))
      · obtain ⟨k, rfl⟩ := Nat.exists_eq_add_of_le hge
        exact absurd ((Bytes.occursAt_append_right marker marker script k).mp hi) (hnone k)
    · rintro rfl
      exact hzero

theorem markedOnceAt_cons_iff {b : UInt8} (hb : b ≠ 0xfa) (script : Bytes) (m : Nat) :
    MarkedOnceAt (b :: script) (m + 1) ↔ MarkedOnceAt script m := by
  constructor
  · intro h i
    rw [← Bytes.occursAt_cons_succ marker b script i, h (i + 1), Nat.add_right_cancel_iff]
  · intro h i
    cases i with
    | zero =>
      refine iff_of_false (fun hi => ?_) (by omega)
      rw [Bytes.occursAt_zero_iff, marker, List.cons_prefix_cons] at hi
      exact hb hi.1.symm
    | succ i => rw [Bytes.occursAt_cons_succ, h i, Nat.add_right_cancel_iff]

/-! ### Scripts that push a commitment -/

/-- What such a script puts in front of the root: the push opcode, which is the number of bytes
pushed, and perhaps the marker. -/
def pushFront (marked : Bool) : Bytes := if marked then 0x2c :: marker else [0x28]

/-- The commitment that such a script carries. -/
def pushed (marked : Bool) (root : Hash256) (height : Nat) (nonce : UInt32) : Commitment where
  root := root
  treeSize := UInt32.ofNat (2 ^ height)
  nonce := nonce
  offset := (pushFront marked).length

theorem pushed_treeSize_toNat (hheight : height < 32) :
    (pushed marked root height nonce).treeSize.toNat = 2 ^ height :=
  UInt32.toNat_ofNat_of_lt' (Nat.pow_lt_pow_right (by decide) hheight)

/-- **The bytes of the script**: everything is pushed at once, behind an opcode of one byte. -/
theorem pushes_payload (hheight : height < 32) :
    Script.pushes [payload marked root height nonce] =
      pushFront marked ++ (pushed marked root height nonce).body := by
  have hsize : Bytes.ofNatLE 4 (2 ^ height) =
      Bytes.ofUInt32 (pushed marked root height nonce).treeSize := by
    rw [Bytes.ofUInt32, pushed_treeSize_toNat hheight]
  have hlen : (payload marked root height nonce).length = if marked then 44 else 40 := by
    unfold payload
    cases marked with
    | false => simp [root.length_bytes]
    | true => simp [root.length_bytes, marker]
  unfold Script.pushes
  rw [List.flatMap_cons, List.flatMap_nil, List.append_nil, Script.push, hlen, payload, hsize]
  cases marked with
  | false => simp [pushFront, pushed, body]
  | true => simp [pushFront, pushed, body]

/-- The values for which a script that pushes a commitment is not read as carrying it. -/
inductive Confused (marked : Bool) (root : Hash256) (nonce : UInt32) : Prop
  /-- The root holds the marker. -/
  | markedRoot {i : Nat} : marker.OccursAt root.bytes i → Confused marked root nonce
  /-- The nonce is the marker. -/
  | markedNonce : nonce = 0x6d6dbefa → Confused marked root nonce
  /-- The root repeats the opcode, and is found there. -/
  | opcode : marked = false → root.bytes = Bytes.cycle [0x28] 32 → Confused marked root nonce
  /-- The root repeats the end of the marker, and is found there. -/
  | markerEnd : marked = true → root.bytes = Bytes.cycle [0x6d] 32 → Confused marked root nonce
  /-- The root repeats the marker from its second byte on, and is found there. -/
  | markerTail : marked = true → root.bytes = Bytes.cycle [0xbe, 0x6d, 0x6d] 32 →
      Confused marked root nonce

theorem unmarked_pushed_iff (hheight : height < 32) :
    Unmarked (pushFront false ++ (pushed false root height nonce).body) ↔
      Unmarked root.bytes ∧ nonce ≠ 0x6d6dbefa :=
  (unmarked_cons_iff (by decide) _).trans (unmarked_body_iff (pushed_treeSize_toNat hheight))

theorem markedOnceAt_pushed_iff (hheight : height < 32) :
    MarkedOnceAt (pushFront true ++ (pushed true root height nonce).body) 1 ↔
      Unmarked root.bytes ∧ nonce ≠ 0x6d6dbefa :=
  (markedOnceAt_cons_iff (by decide) _ 0).trans ((markedOnceAt_marker_iff _).trans
    (unmarked_body_iff (pushed_treeSize_toNat hheight)))

/-- A root is found in front of its place exactly if it goes on with the bytes there. -/
theorem occursAt_pushed_iff {j : Nat} (hj : j ≤ (pushFront marked).length) :
    root.bytes.OccursAt (pushFront marked ++ (pushed marked root height nonce).body) j ↔
      root.bytes <+: (pushFront marked).drop j ++ root.bytes := by
  have hlen : j ≤ (pushFront marked ++ (pushed marked root height nonce).body).length := by
    rw [List.length_append]
    omega
  have hroot : (pushFront marked).drop j ++ root.bytes <+:
      (pushFront marked).drop j ++ (pushed marked root height nonce).body := by
    rw [List.prefix_append_right_inj, body, List.append_assoc]
    exact List.prefix_append _ _
  rw [Bytes.occursAt_iff_prefix_drop hlen, List.drop_append_of_le_length hj]
  constructor
  · intro h
    refine List.prefix_of_prefix_length_le h hroot ?_
    rw [List.length_append]
    exact Nat.le_add_left _ _
  · intro h
    exact h.trans hroot

/-- The root stands where it was put, and so it is found there or before. -/
theorem offset_le_of_written (hheight : height < 32) {d : Commitment}
    (h : Written (Script.pushes [payload marked root height nonce]) root height d) :
    ∀ j ≤ (pushFront marked).length, root.bytes <+: (pushFront marked).drop j ++ root.bytes →
      d.offset ≤ j := by
  intro j hj hprefix
  refine Nat.le_of_not_lt fun hlt => h.first j hlt ?_
  rw [pushes_payload hheight]
  exact (occursAt_pushed_iff hj).mpr hprefix

/-- A script that reads as carrying something carries no marker but the one that was pushed. -/
theorem unmarked_of_written (hheight : height < 32) {d : Commitment}
    (h : Written (Script.pushes [payload marked root height nonce]) root height d) :
    (Unmarked root.bytes ∧ nonce ≠ 0x6d6dbefa) ∧ (marked = true → d.offset = 5) := by
  have hplaced := h.placed
  rw [pushes_payload hheight] at hplaced
  cases marked with
  | false =>
    -- the root stands behind one byte, which leaves no room for a marker in front of it
    have hle := offset_le_of_written hheight h 1 Nat.le.refl List.prefix_rfl
    rcases hplaced with ⟨m, -, hm⟩ | ⟨hnone, -⟩
    · omega
    · exact ⟨(unmarked_pushed_iff hheight).mp hnone, fun hmarked => by cases hmarked⟩
  | true =>
    have hocc : marker.OccursAt (pushFront true ++ (pushed true root height nonce).body) 1 :=
      ⟨[0x2c], (pushed true root height nonce).body, rfl, rfl⟩
    rcases hplaced with ⟨m, honce, hm⟩ | ⟨hnone, -⟩
    · have hm' := (honce 1).mp hocc
      subst hm'
      exact ⟨(markedOnceAt_pushed_iff hheight).mp honce, fun _ => hm.symm⟩
    · exact absurd hocc (hnone 1)

/-- Behind a root of push opcodes stands another one, which is no size. -/
theorem not_written_at_opcode (hheight : height < 32) (hroot : root.bytes = Bytes.cycle [0x28] 32)
    {d : Commitment}
    (h : Written (Script.pushes [payload false root height nonce]) root height d) :
    d.offset ≠ 0 := by
  intro hoffset
  obtain ⟨front, back, hfront, hscript⟩ := h.spelled
  rw [hoffset, List.length_eq_zero_iff] at hfront
  subst hfront
  have hshift : [0x28] ++ Bytes.cycle [0x28] 32 = Bytes.cycle [0x28] 32 ++ [0x28] := by decide
  rw [pushes_payload hheight, pushFront, body, List.nil_append, if_neg Bool.false_ne_true,
    ← List.append_assoc, ← List.append_assoc, pushed, hroot, hshift] at hscript
  simp only [List.append_assoc] at hscript
  have hbehind := List.append_cancel_left hscript
  have hsize : Bytes.ofUInt32 d.treeSize = Bytes.ofNatLE 4 (2 ^ height) := by
    rw [Bytes.ofUInt32, h.treeSize_eq]
  rw [hsize] at hbehind
  have hbyte : (0x28 : UInt8) = UInt8.ofNat (2 ^ height) :=
    Option.some.inj (congrArg List.head? hbehind)
  have hpower : ∀ height < 32, (0x28 : UInt8) ≠ UInt8.ofNat (2 ^ height) := by decide
  exact hpower height hheight hbyte

/-- **Confused values are not read**, neither as what was pushed nor as anything else. -/
theorem not_confused_of_written (hheight : height < 32) {d : Commitment}
    (h : Written (Script.pushes [payload marked root height nonce]) root height d) :
    ¬ Confused marked root nonce := by
  obtain ⟨⟨hroot, hnonce⟩, hoffset⟩ := unmarked_of_written hheight h
  intro hconfused
  cases hconfused with
  | markedRoot hi => exact hroot _ hi
  | markedNonce heq => exact hnonce heq
  | opcode hmarked heq =>
    subst hmarked
    have hle := offset_le_of_written hheight h 0 (Nat.zero_le _) (by rw [heq]; decide)
    exact not_written_at_opcode hheight heq h (Nat.le_zero.mp hle)
  | markerEnd hmarked heq =>
    subst hmarked
    have hle := offset_le_of_written hheight h 4 (by decide) (by rw [heq]; decide)
    rw [hoffset rfl] at hle
    omega
  | markerTail hmarked heq =>
    subst hmarked
    have hle := offset_le_of_written hheight h 2 (by decide) (by rw [heq]; decide)
    rw [hoffset rfl] at hle
    omega

theorem confused_of_occursAt {j : Nat} (hj : j < (pushFront marked).length)
    (hocc : root.bytes.OccursAt (pushFront marked ++ (pushed marked root height nonce).body) j) :
    Confused marked root nonce := by
  have hpattern : (pushFront marked).drop j ≠ [] := fun hnil => by
    rw [List.drop_eq_nil_iff] at hnil
    omega
  -- found too early, the root repeats what stands between there and its place
  have hcycle := Bytes.eq_cycle_of_prefix hpattern ((occursAt_pushed_iff (Nat.le_of_lt hj)).mp hocc)
  rw [root.length_bytes] at hcycle
  cases marked with
  | false =>
    match j, hj with
    | 0, _ => exact .opcode rfl hcycle
  | true =>
    match j, hj with
    | 0, _ =>
      -- the whole front is repeated, and with it the marker
      refine .markedRoot (i := 1) ?_
      rw [hcycle]
      exact ⟨[0x2c], (Bytes.cycle (pushFront true) 32).drop 5, by decide, rfl⟩
    | 1, _ =>
      refine .markedRoot (i := 0) ?_
      rw [hcycle]
      exact ⟨[], (Bytes.cycle marker 32).drop 4, by decide, rfl⟩
    | 2, _ => exact .markerTail rfl hcycle
    | 3, _ => exact .markerEnd rfl (hcycle.trans (by decide))
    | 4, _ => exact .markerEnd rfl hcycle

/-- **All other values are read as what was pushed.** -/
theorem written_pushed (hheight : height < 32) (h : ¬ Confused marked root nonce) :
    Written (Script.pushes [payload marked root height nonce]) root height
      (pushed marked root height nonce) where
  root_eq := rfl
  spelled := by
    refine ⟨pushFront marked, [], rfl, ?_⟩
    rw [pushes_payload hheight, body, List.append_nil, List.append_assoc, List.append_assoc,
      List.append_assoc]
    rfl
  treeSize_eq := pushed_treeSize_toNat hheight
  first := by
    intro j hj hocc
    rw [pushes_payload hheight] at hocc
    exact h (confused_of_occursAt hj hocc)
  placed := by
    have hnone : Unmarked root.bytes ∧ nonce ≠ 0x6d6dbefa :=
      ⟨fun _ hi => h (.markedRoot hi), fun heq => h (.markedNonce heq)⟩
    rw [pushes_payload hheight]
    cases marked with
    | false =>
      have hle : (pushFront false).length ≤ 20 := by decide
      exact Or.inr ⟨(unmarked_pushed_iff hheight).mpr hnone, hle⟩
    | true => exact Or.inl ⟨1, (markedOnceAt_pushed_iff hheight).mpr hnone, rfl⟩

end Commitment

end MergedMining
