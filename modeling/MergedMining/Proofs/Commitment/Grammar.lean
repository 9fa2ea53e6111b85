import MergedMining.Proofs.Commitment.Occurrence

/-!
# The grammar of commitments

Reading a commitment is a search followed by checks of what stands behind the root.  This module
says without the search what a script has to look like for a commitment to be read from it, and
what it looks like for each of the reasons for which none is.

## Main definitions

* `Commitment.Placed` — where the marker lets a root start.
* `Commitment.Written` — a script commits to a root.
* `Commitment.Outcome` — what is read from a script, one case for each answer.

## Main results

* `Commitment.read_eq_iff_outcome` — reading gives exactly the outcome of the script.
* `Commitment.read_grammar` — the same, answer by answer.
-/

namespace MergedMining.Commitment

/-- Where a root may start: right behind the only marker, or, in a script without a marker, at one
of the positions up to 20. -/
def Placed (script : Bytes) (o : Nat) : Prop :=
  (∃ m, MarkedOnceAt script m ∧ m + 4 = o) ∨ (Unmarked script ∧ o ≤ 20)

/-- The script commits to `root` as the root of a tree of `height` levels, and `c` is the
commitment. -/
structure Written (script : Bytes) (root : Hash256) (height : Nat) (c : Commitment) : Prop where
  /-- The commitment is to this root. -/
  root_eq : c.root = root
  /-- Root, tree size and nonce stand one behind the other. -/
  spelled : ∃ front back, front.length = c.offset ∧
    script = front ++ root.bytes ++ Bytes.ofUInt32 c.treeSize ++ Bytes.ofUInt32 c.nonce ++ back
  /-- The tree has as many leaves as its height says. -/
  treeSize_eq : c.treeSize.toNat = 2 ^ height
  /-- The root does not occur before. -/
  first : ∀ j < c.offset, ¬ root.bytes.OccursAt script j
  /-- The root starts where it may. -/
  placed : Placed script c.offset

/-- What is read from a script.  The cases exclude each other. -/
inductive Outcome (script : Bytes) (root : Hash256) (height : Nat) :
    Except Rejection Commitment → Prop
  /-- Two markers are too many, whether the root is there or not. -/
  | multipleMarkers : MarkedTwice script →
      Outcome script root height (.error (.ambiguousCommitment .multipleMarkers))
  /-- The root is not there. -/
  | absent : ¬ MarkedTwice script → (∀ i, ¬ root.bytes.OccursAt script i) →
      Outcome script root height (.error (.merkleRootMismatch .chainMerkle))
  /-- The first root does not start right behind the marker. -/
  | notAfterMarker {m o : Nat} : MarkedOnceAt script m → root.bytes.FirstAt script o → m + 4 ≠ o →
      Outcome script root height (.error (.ambiguousCommitment .rootNotAfterMarker))
  /-- There is no marker, and the first root starts too late. -/
  | tooLate {o : Nat} : Unmarked script → root.bytes.FirstAt script o → 20 < o →
      Outcome script root height (.error (.ambiguousCommitment .rootTooLate))
  /-- Fewer than eight bytes stand behind the root. -/
  | truncated {front back : Bytes} : script = front ++ root.bytes ++ back →
      root.bytes.FirstAt script front.length → Placed script front.length → back.length < 8 →
      Outcome script root height (.error .truncatedCommitment)
  /-- The tree size is not that of the height. -/
  | sizeMismatch {front back : Bytes} {size nonce : UInt32} :
      script = front ++ root.bytes ++ Bytes.ofUInt32 size ++ Bytes.ofUInt32 nonce ++ back →
      root.bytes.FirstAt script front.length → Placed script front.length →
      size.toNat ≠ 2 ^ height →
      Outcome script root height (.error (.treeSizeMismatch height size))
  /-- All is well. -/
  | written {c : Commitment} : Written script root height c → Outcome script root height (.ok c)

/-! ### Where the root is -/

theorem locate_of_markedTwice {script : Bytes} (root : Hash256) (h : MarkedTwice script) :
    locate script root = .ambiguous .multipleMarkers := by
  rw [locate, if_pos ((hasSecondMarker_iff script).mpr h)]

/-- Without a second marker the answer depends on the first root and the first marker only. -/
theorem locate_of_not_markedTwice {script : Bytes} (root : Hash256) (h : ¬ MarkedTwice script) :
    locate script root =
      match firstIndex? root.bytes script, firstIndex? marker script with
      | none, _ => .absent
      | some o, some m => if m + 4 = o then .at o else .ambiguous .rootNotAfterMarker
      | some o, none => if o ≤ 20 then .at o else .ambiguous .rootTooLate := by
  rw [locate, if_neg (mt (hasSecondMarker_iff script).mp h)]
  rfl

theorem locate_of_absent {script : Bytes} {root : Hash256} (h : ¬ MarkedTwice script)
    (habsent : ∀ i, ¬ root.bytes.OccursAt script i) : locate script root = .absent := by
  rw [locate_of_not_markedTwice root h, firstIndex?_eq_none_iff.mpr habsent]

theorem MarkedOnceAt.firstAt {script : Bytes} {m : Nat} (h : MarkedOnceAt script m) :
    marker.FirstAt script m :=
  ⟨h.occursAt, fun j hj hocc => Nat.ne_of_lt hj ((h j).mp hocc)⟩

theorem locate_of_marked {script : Bytes} {root : Hash256} {m o : Nat}
    (hm : MarkedOnceAt script m) (ho : root.bytes.FirstAt script o) :
    locate script root = if m + 4 = o then .at o else .ambiguous .rootNotAfterMarker := by
  rw [locate_of_not_markedTwice root hm.not_markedTwice, firstIndex?_eq_some_iff.mpr ho,
    firstIndex?_eq_some_iff.mpr hm.firstAt]

theorem locate_of_unmarked {script : Bytes} {root : Hash256} {o : Nat}
    (hm : Unmarked script) (ho : root.bytes.FirstAt script o) :
    locate script root = if o ≤ 20 then .at o else .ambiguous .rootTooLate := by
  rw [locate_of_not_markedTwice root hm.not_markedTwice, firstIndex?_eq_some_iff.mpr ho,
    firstIndex?_eq_none_iff.mpr hm]

theorem locate_of_placed {script : Bytes} {root : Hash256} {o : Nat}
    (ho : root.bytes.FirstAt script o) (hplaced : Placed script o) :
    locate script root = .at o := by
  rcases hplaced with ⟨m, hm, hmo⟩ | ⟨hm, hle⟩
  · rw [locate_of_marked hm ho, if_pos hmo]
  · rw [locate_of_unmarked hm ho, if_pos hle]

/-! ### What stands behind the root -/

theorem exists_words_of_length_ge {bs : Bytes} (h : 8 ≤ bs.length) :
    ∃ size nonce back, bs = Bytes.ofUInt32 size ++ Bytes.ofUInt32 nonce ++ back := by
  have hsize : (bs.take 4).length = 4 := by rw [List.length_take]; omega
  have hnonce : ((bs.drop 4).take 4).length = 4 := by
    rw [List.length_take, List.length_drop]; omega
  refine ⟨Bytes.toUInt32 (bs.take 4), Bytes.toUInt32 ((bs.drop 4).take 4), (bs.drop 4).drop 4, ?_⟩
  rw [Bytes.ofUInt32_toUInt32 hsize, Bytes.ofUInt32_toUInt32 hnonce, List.append_assoc,
    List.take_append_drop, List.take_append_drop]

/-- A tree whose size fits into a word has fewer than 32 levels. -/
theorem height_lt_of_toNat_eq {size : UInt32} {height : Nat} (h : size.toNat = 2 ^ height) :
    height < 32 := by
  have hsize : 2 ^ height < 2 ^ 32 := h ▸ size.toNat_lt
  exact (Nat.pow_lt_pow_iff_right (by decide)).mp hsize

theorem drop_of_spelled {script front back : Bytes} {root : Hash256}
    (hscript : script = front ++ root.bytes ++ back) : script.drop (front.length + 32) = back := by
  have hfront : front.length + 32 = (front ++ root.bytes).length := by
    rw [List.length_append, root.length_bytes]
  rw [hfront, hscript, List.drop_left]

theorem read_of_truncated {script front back : Bytes} {root : Hash256} (height : Nat)
    (hscript : script = front ++ root.bytes ++ back)
    (ho : root.bytes.FirstAt script front.length) (hplaced : Placed script front.length)
    (hlen : back.length < 8) : read script root height = .error .truncatedCommitment := by
  simp only [read, locate_of_placed ho hplaced, drop_of_spelled hscript, if_pos hlen]

/-- Reading a trailer that is there: only the tree size can be wrong. -/
theorem read_of_spelled {script front back : Bytes} {size nonce : UInt32} {root : Hash256}
    (height : Nat)
    (hscript : script = front ++ root.bytes ++ Bytes.ofUInt32 size ++ Bytes.ofUInt32 nonce ++ back)
    (ho : root.bytes.FirstAt script front.length) (hplaced : Placed script front.length) :
    read script root height =
      if size.toNat = 2 ^ height then .ok ⟨root, size, nonce, front.length⟩
      else .error (.treeSizeMismatch height size) := by
  have htrailer : script.drop (front.length + 32) =
      Bytes.ofUInt32 size ++ (Bytes.ofUInt32 nonce ++ back) :=
    drop_of_spelled (by simpa only [List.append_assoc] using hscript)
  -- the trailer falls apart into the words that it was put together from
  have hlong : ¬ (Bytes.ofUInt32 size ++ (Bytes.ofUInt32 nonce ++ back)).length < 8 := by
    simp only [List.length_append, Bytes.length_ofUInt32]
    omega
  have htake : (Bytes.ofUInt32 size ++ (Bytes.ofUInt32 nonce ++ back)).take 4 =
      Bytes.ofUInt32 size := List.take_left' (Bytes.length_ofUInt32 size)
  have hdrop : (Bytes.ofUInt32 size ++ (Bytes.ofUInt32 nonce ++ back)).drop 4 =
      Bytes.ofUInt32 nonce ++ back := List.drop_left' (Bytes.length_ofUInt32 size)
  have htake' : (Bytes.ofUInt32 nonce ++ back).take 4 = Bytes.ofUInt32 nonce :=
    List.take_left' (Bytes.length_ofUInt32 nonce)
  simp only [read, locate_of_placed ho hplaced, htrailer, if_neg hlong, htake, hdrop, htake',
    Bytes.toUInt32_ofUInt32, Bool.and_eq_true, decide_eq_true_eq, beq_iff_eq]
  -- the bound on the height follows from the size
  by_cases hsize : size.toNat = 2 ^ height
  · have hheight := height_lt_of_toNat_eq hsize
    rw [if_pos ⟨by omega, hsize⟩, if_pos hsize]
  · rw [if_neg fun h => hsize h.2, if_neg hsize]

/-! ### All outcomes -/

theorem exists_firstAt {needle script : Bytes} {i : Nat} (h : needle.OccursAt script i) :
    ∃ o, needle.FirstAt script o := by
  cases hfind : firstIndex? needle script with
  | none => exact absurd h (firstIndex?_eq_none_iff.mp hfind i)
  | some o => exact ⟨o, firstIndex?_eq_some_iff.mp hfind⟩

/-- Behind a root that is placed well the trailer decides. -/
theorem outcome_of_placed {script : Bytes} {root : Hash256} {o : Nat} (height : Nat)
    (ho : root.bytes.FirstAt script o) (hplaced : Placed script o) :
    Outcome script root height (read script root height) := by
  obtain ⟨front, rest, hsplit, rfl⟩ := ho.1
  by_cases hlen : rest.length < 8
  · rw [read_of_truncated height hsplit ho hplaced hlen]
    exact .truncated hsplit ho hplaced hlen
  · obtain ⟨size, nonce, back, rfl⟩ := exists_words_of_length_ge (Nat.le_of_not_lt hlen)
    have hscript : script =
        front ++ root.bytes ++ Bytes.ofUInt32 size ++ Bytes.ofUInt32 nonce ++ back := by
      rw [hsplit]
      simp only [List.append_assoc]
    rw [read_of_spelled height hscript ho hplaced]
    by_cases hsize : size.toNat = 2 ^ height
    · rw [if_pos hsize]
      exact .written ⟨rfl, ⟨front, back, rfl, hscript⟩, hsize, ho.2, hplaced⟩
    · rw [if_neg hsize]
      exact .sizeMismatch hscript ho hplaced hsize

theorem outcome_read (script : Bytes) (root : Hash256) (height : Nat) :
    Outcome script root height (read script root height) := by
  rcases marker_cases script with htwice | hmarker
  · simp only [read, locate_of_markedTwice root htwice]
    exact .multipleMarkers htwice
  have hnot : ¬ MarkedTwice script := by
    rcases hmarker with ⟨m, hm⟩ | hm
    · exact hm.not_markedTwice
    · exact hm.not_markedTwice
  by_cases habsent : ∀ i, ¬ root.bytes.OccursAt script i
  · simp only [read, locate_of_absent hnot habsent]
    exact .absent hnot habsent
  obtain ⟨i, hi⟩ := Classical.not_forall_not.mp habsent
  obtain ⟨o, ho⟩ := exists_firstAt hi
  -- what is left is where the first root stands
  rcases hmarker with ⟨m, hm⟩ | hm
  · by_cases hmo : m + 4 = o
    · exact outcome_of_placed height ho (Or.inl ⟨m, hm, hmo⟩)
    · simp only [read, locate_of_marked hm ho, if_neg hmo]
      exact .notAfterMarker hm ho hmo
  · by_cases hle : o ≤ 20
    · exact outcome_of_placed height ho (Or.inr ⟨hm, hle⟩)
    · simp only [read, locate_of_unmarked hm ho, if_neg hle]
      exact .tooLate hm ho (Nat.lt_of_not_le hle)

theorem read_of_outcome {script : Bytes} {root : Hash256} {height : Nat}
    {result : Except Rejection Commitment} (h : Outcome script root height result) :
    read script root height = result := by
  cases h with
  | multipleMarkers htwice => simp only [read, locate_of_markedTwice root htwice]
  | absent hnot habsent => simp only [read, locate_of_absent hnot habsent]
  | notAfterMarker hm ho hmo => simp only [read, locate_of_marked hm ho, if_neg hmo]
  | tooLate hm ho hlt => simp only [read, locate_of_unmarked hm ho, if_neg (Nat.not_le_of_lt hlt)]
  | truncated hscript ho hplaced hlen => exact read_of_truncated height hscript ho hplaced hlen
  | sizeMismatch hscript ho hplaced hsize =>
    rw [read_of_spelled height hscript ho hplaced, if_neg hsize]
  | @written c hc =>
    -- the root of the commitment is the one looked for
    obtain ⟨root', size, nonce, offset⟩ := c
    obtain ⟨rfl, ⟨front, back, rfl, hscript⟩, hsize, hfirst, hplaced⟩ := hc
    have hocc : root'.bytes.OccursAt script front.length :=
      ⟨front, _, by rw [hscript, List.append_assoc, List.append_assoc], rfl⟩
    rw [read_of_spelled height hscript ⟨hocc, hfirst⟩ hplaced, if_pos hsize]

/-- **Reading gives exactly the outcome of the script.** -/
theorem read_eq_iff_outcome {script : Bytes} {root : Hash256} {height : Nat}
    {result : Except Rejection Commitment} :
    read script root height = result ↔ Outcome script root height result :=
  ⟨fun h => h ▸ outcome_read script root height, read_of_outcome⟩

theorem read_eq_ok_iff_written {script : Bytes} {root : Hash256} {height : Nat} {c : Commitment} :
    read script root height = .ok c ↔ Written script root height c := by
  rw [read_eq_iff_outcome]
  constructor
  · rintro ⟨⟩
    assumption
  · exact .written

/-- **The grammar of commitments.**  A commitment is read exactly if the script is some bytes, the
root, the size `2 ^ height`, a nonce and some bytes, the root occurring nowhere before and starting
right behind the only marker or, without any marker, not behind position 20; then the height is at
most 31.  Each reason for reading none has its condition: two markers, which win over all others;
no root; a first root away from the marker, or too late without one; fewer than eight bytes behind
it; another size.  There is no other reason. -/
theorem read_grammar (script : Bytes) (root : Hash256) (height : Nat) :
    (∀ c, read script root height = .ok c ↔ Written script root height c) ∧
    (∀ c, read script root height = .ok c → height ≤ 31) ∧
    (read script root height = .error (.ambiguousCommitment .multipleMarkers) ↔
      MarkedTwice script) ∧
    (read script root height = .error (.merkleRootMismatch .chainMerkle) ↔
      ¬ MarkedTwice script ∧ ∀ i, ¬ root.bytes.OccursAt script i) ∧
    (read script root height = .error (.ambiguousCommitment .rootNotAfterMarker) ↔
      ∃ m o, MarkedOnceAt script m ∧ root.bytes.FirstAt script o ∧ m + 4 ≠ o) ∧
    (read script root height = .error (.ambiguousCommitment .rootTooLate) ↔
      Unmarked script ∧ ∃ o, root.bytes.FirstAt script o ∧ 20 < o) ∧
    (read script root height = .error .truncatedCommitment ↔
      ∃ front back, script = front ++ root.bytes ++ back ∧
        root.bytes.FirstAt script front.length ∧ Placed script front.length ∧ back.length < 8) ∧
    (∀ levels size, read script root height = .error (.treeSizeMismatch levels size) ↔
      levels = height ∧ ∃ front nonce back,
        script = front ++ root.bytes ++ Bytes.ofUInt32 size ++ Bytes.ofUInt32 nonce ++ back ∧
        root.bytes.FirstAt script front.length ∧ Placed script front.length ∧
        size.toNat ≠ 2 ^ height) ∧
    (∀ reason, read script root height = .error reason →
      reason ∈ [.ambiguousCommitment .multipleMarkers, .merkleRootMismatch .chainMerkle,
        .ambiguousCommitment .rootNotAfterMarker, .ambiguousCommitment .rootTooLate,
        .truncatedCommitment] ∨ ∃ size, reason = .treeSizeMismatch height size) := by
  refine ⟨fun c => read_eq_ok_iff_written, fun c hc => ?_, ?_, ?_, ?_, ?_, ?_,
    fun levels size => ?_, fun reason hreason => ?_⟩
  · have := height_lt_of_toNat_eq (read_eq_ok_iff_written.mp hc).treeSize_eq
    omega
  · rw [read_eq_iff_outcome]
    exact ⟨fun | .multipleMarkers h => h, .multipleMarkers⟩
  · rw [read_eq_iff_outcome]
    exact ⟨fun | .absent hnot h => ⟨hnot, h⟩, fun ⟨hnot, h⟩ => .absent hnot h⟩
  · rw [read_eq_iff_outcome]
    exact ⟨fun | .notAfterMarker hm ho hmo => ⟨_, _, hm, ho, hmo⟩,
      fun ⟨_, _, hm, ho, hmo⟩ => .notAfterMarker hm ho hmo⟩
  · rw [read_eq_iff_outcome]
    exact ⟨fun | .tooLate hm ho hlt => ⟨hm, _, ho, hlt⟩,
      fun ⟨hm, _, ho, hlt⟩ => .tooLate hm ho hlt⟩
  · rw [read_eq_iff_outcome]
    exact ⟨fun | .truncated hscript ho hplaced hlen => ⟨_, _, hscript, ho, hplaced, hlen⟩,
      fun ⟨_, _, hscript, ho, hplaced, hlen⟩ => .truncated hscript ho hplaced hlen⟩
  · rw [read_eq_iff_outcome]
    constructor
    · intro h
      cases h with
      | sizeMismatch hscript ho hplaced hsize =>
        exact ⟨rfl, _, _, _, hscript, ho, hplaced, hsize⟩
    · rintro ⟨rfl, front, nonce, back, hscript, ho, hplaced, hsize⟩
      exact .sizeMismatch hscript ho hplaced hsize
  · rw [read_eq_iff_outcome] at hreason
    cases hreason with
    | sizeMismatch _ _ _ _ => exact Or.inr ⟨_, rfl⟩
    | _ => exact Or.inl (by simp)

end MergedMining.Commitment
