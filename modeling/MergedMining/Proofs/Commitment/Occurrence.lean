import MergedMining.Commitment

/-!
# Occurrences in a script

Scripts are searched from the front for the first occurrence of a byte string, and a second time
behind it.  What such a search finds is said here without any search: a byte string *occurs* at a
position if the script splits in front of it and behind it, and occurrences may overlap each other.

## Main definitions

* `Bytes.OccursAt`, `Bytes.FirstAt` — occurrences, and the first of them.
* `Commitment.MarkedTwice`, `Commitment.MarkedOnceAt`, `Commitment.Unmarked` — how often the marker
  occurs in a script.

## Main results

* `Commitment.firstIndex?_eq_some_iff`, `Commitment.firstIndex?_eq_none_iff` — the search finds the
  first occurrence, and fails only if there is none.
* `Commitment.hasSecondMarker_iff` — the second search tells whether the marker occurs twice.
* `Commitment.marker_cases` — a script is marked twice, once, or not at all.
-/

namespace MergedMining

namespace Bytes

/-- `needle` occurs in `script` behind its first `i` bytes. -/
def OccursAt (needle script : Bytes) (i : Nat) : Prop :=
  ∃ front back, script = front ++ needle ++ back ∧ front.length = i

/-- `needle` occurs in `script` behind its first `i` bytes, and nowhere before. -/
def FirstAt (needle script : Bytes) (i : Nat) : Prop :=
  needle.OccursAt script i ∧ ∀ j < i, ¬ needle.OccursAt script j

theorem occursAt_zero_iff (needle script : Bytes) :
    needle.OccursAt script 0 ↔ needle <+: script := by
  constructor
  · rintro ⟨front, back, rfl, hfront⟩
    rw [List.length_eq_zero_iff] at hfront
    exact ⟨back, by rw [hfront, List.nil_append]⟩
  · rintro ⟨back, rfl⟩
    exact ⟨[], back, rfl, rfl⟩

theorem occursAt_cons_succ (needle : Bytes) (b : UInt8) (script : Bytes) (i : Nat) :
    needle.OccursAt (b :: script) (i + 1) ↔ needle.OccursAt script i := by
  constructor
  · rintro ⟨front, back, hscript, hfront⟩
    cases front with
    | nil => simp at hfront
    | cons a front =>
      simp only [List.cons_append, List.cons.injEq] at hscript
      exact ⟨front, back, hscript.2, by simpa using hfront⟩
  · rintro ⟨front, back, rfl, hfront⟩
    exact ⟨b :: front, back, rfl, by simp [hfront]⟩

theorem OccursAt.add_length_le {needle script : Bytes} {i : Nat} (h : needle.OccursAt script i) :
    i + needle.length ≤ script.length := by
  obtain ⟨front, back, rfl, rfl⟩ := h
  simp only [List.length_append]
  omega

/-- Behind the first `k` bytes a search sees the occurrences from position `k` on. -/
theorem occursAt_drop_iff {needle script : Bytes} {k : Nat} (hk : k ≤ script.length) (i : Nat) :
    needle.OccursAt (script.drop k) i ↔ needle.OccursAt script (k + i) := by
  induction k generalizing script with
  | zero => simp
  | succ k ih =>
    cases script with
    | nil => simp at hk
    | cons b script =>
      rw [List.drop_succ_cons, ih (by simpa using hk), Nat.add_right_comm, occursAt_cons_succ]

/-- Two byte strings of one length that occur at one position are the same. -/
theorem OccursAt.eq_of_length_eq {x y script : Bytes} {i : Nat} (hx : x.OccursAt script i)
    (hy : y.OccursAt script i) (hlen : x.length = y.length) : x = y := by
  obtain ⟨front, back, rfl, rfl⟩ := hx
  obtain ⟨front', back', hscript, hfront⟩ := hy
  rw [List.append_assoc, List.append_assoc] at hscript
  have htail := (List.append_inj hscript hfront.symm).2
  exact (List.append_inj htail hlen).1

theorem FirstAt.unique {needle script : Bytes} {i j : Nat} (hi : needle.FirstAt script i)
    (hj : needle.FirstAt script j) : i = j := by
  rcases Nat.lt_trichotomy i j with h | h | h
  · exact absurd hi.1 (hj.2 i h)
  · exact h
  · exact absurd hj.1 (hi.2 j h)

end Bytes

namespace Commitment

/-! ### The search -/

/-- The search says whether there is an occurrence, and where the first one is: one induction on
the script, with the head tried before the rest. -/
theorem firstIndex?_spec (needle script : Bytes) :
    match firstIndex? needle script with
    | some i => needle.FirstAt script i
    | none => ∀ i, ¬ needle.OccursAt script i := by
  induction script with
  | nil =>
    cases needle with
    | nil => exact ⟨⟨[], [], rfl, rfl⟩, fun j hj => absurd hj (Nat.not_lt_zero j)⟩
    | cons a needle =>
      intro i h
      have := h.add_length_le
      simp at this
  | cons b script ih =>
    rw [firstIndex?]
    -- behind the head, occurrences are those of the rest, one position later
    by_cases hhead : needle.isPrefixOf (b :: script) = true
    · rw [if_pos hhead]
      have hzero := (Bytes.occursAt_zero_iff needle _).mpr (List.isPrefixOf_iff_prefix.mp hhead)
      exact ⟨hzero, fun j hj => absurd hj (Nat.not_lt_zero j)⟩
    · rw [if_neg hhead]
      have hzero : ¬ needle.OccursAt (b :: script) 0 := fun h =>
        hhead (List.isPrefixOf_iff_prefix.mpr ((Bytes.occursAt_zero_iff needle _).mp h))
      cases hrest : firstIndex? needle script with
      | none =>
        rw [hrest] at ih
        intro i
        cases i with
        | zero => exact hzero
        | succ i => rw [Bytes.occursAt_cons_succ]; exact ih i
      | some i =>
        rw [hrest] at ih
        refine ⟨(Bytes.occursAt_cons_succ needle b script i).mpr ih.1, fun j hj => ?_⟩
        cases j with
        | zero => exact hzero
        | succ j =>
          rw [Bytes.occursAt_cons_succ]
          exact ih.2 j (Nat.lt_of_succ_lt_succ hj)

theorem firstIndex?_eq_none_iff {needle script : Bytes} :
    firstIndex? needle script = none ↔ ∀ i, ¬ needle.OccursAt script i := by
  have hspec := firstIndex?_spec needle script
  cases hfind : firstIndex? needle script with
  | none => rw [hfind] at hspec; exact iff_of_true rfl hspec
  | some i => rw [hfind] at hspec; exact iff_of_false (by simp) fun h => h i hspec.1

theorem firstIndex?_eq_some_iff {needle script : Bytes} {i : Nat} :
    firstIndex? needle script = some i ↔ needle.FirstAt script i := by
  have hspec := firstIndex?_spec needle script
  cases hfind : firstIndex? needle script with
  | none =>
    rw [hfind] at hspec
    exact iff_of_false (by simp) fun h => hspec i h.1
  | some j =>
    rw [hfind] at hspec
    rw [Option.some.injEq]
    constructor
    · rintro rfl; exact hspec
    · exact hspec.unique

/-! ### How often the marker occurs -/

/-- The marker occurs at two positions, which may overlap other parts of the commitment. -/
def MarkedTwice (script : Bytes) : Prop :=
  ∃ i j, i < j ∧ marker.OccursAt script i ∧ marker.OccursAt script j

/-- The marker occurs at position `m` and nowhere else. -/
def MarkedOnceAt (script : Bytes) (m : Nat) : Prop := ∀ i, marker.OccursAt script i ↔ i = m

/-- The marker does not occur. -/
def Unmarked (script : Bytes) : Prop := ∀ i, ¬ marker.OccursAt script i

theorem MarkedOnceAt.occursAt {script : Bytes} {m : Nat} (h : MarkedOnceAt script m) :
    marker.OccursAt script m := (h m).mpr rfl

theorem MarkedOnceAt.unique {script : Bytes} {m n : Nat} (hm : MarkedOnceAt script m)
    (hn : MarkedOnceAt script n) : m = n := (hn m).mp hm.occursAt

theorem MarkedOnceAt.not_markedTwice {script : Bytes} {m : Nat} (h : MarkedOnceAt script m) :
    ¬ MarkedTwice script := by
  rintro ⟨i, j, hij, hi, hj⟩
  have hi := (h i).mp hi
  have hj := (h j).mp hj
  omega

theorem MarkedOnceAt.not_unmarked {script : Bytes} {m : Nat} (h : MarkedOnceAt script m) :
    ¬ Unmarked script := fun hnone => hnone m h.occursAt

theorem Unmarked.not_markedTwice {script : Bytes} (h : Unmarked script) :
    ¬ MarkedTwice script := fun ⟨i, _, _, hi, _⟩ => h i hi

theorem marker_cases (script : Bytes) :
    MarkedTwice script ∨ (∃ m, MarkedOnceAt script m) ∨ Unmarked script := by
  by_cases htwice : MarkedTwice script
  · exact Or.inl htwice
  refine Or.inr ?_
  by_cases hnone : Unmarked script
  · exact Or.inr hnone
  -- a marker that does not occur twice occurs only where it occurs
  obtain ⟨m, hm⟩ := Classical.not_forall_not.mp hnone
  refine Or.inl ⟨m, fun i => ⟨fun hi => ?_, fun h => h ▸ hm⟩⟩
  rcases Nat.lt_trichotomy i m with h | h | h
  · exact absurd ⟨i, m, h, hi, hm⟩ htwice
  · exact h
  · exact absurd ⟨m, i, h, hm, hi⟩ htwice

/-- **The second search**, which starts behind the first byte of the first marker, tells whether
the marker occurs twice. -/
theorem hasSecondMarker_iff (script : Bytes) :
    hasSecondMarker script = true ↔ MarkedTwice script := by
  rw [hasSecondMarker]
  cases hfind : firstIndex? marker script with
  | none =>
    rw [firstIndex?_eq_none_iff] at hfind
    exact iff_of_false (by simp) (Unmarked.not_markedTwice hfind)
  | some m =>
    rw [firstIndex?_eq_some_iff] at hfind
    have hlen : m + 1 ≤ script.length := by
      have := hfind.1.add_length_le
      simp only [marker, List.length_cons, List.length_nil] at this
      omega
    constructor
    · intro hsome
      -- positions found in the rest count from behind the first byte of the first marker
      obtain ⟨k, hk⟩ := Option.isSome_iff_exists.mp hsome
      have hagain := (firstIndex?_eq_some_iff.mp hk).1
      rw [Bytes.occursAt_drop_iff hlen] at hagain
      exact ⟨m, m + 1 + k, by omega, hfind.1, hagain⟩
    · rintro ⟨i, j, hij, hi, hj⟩
      -- the first marker stands at `m`, so the later of the two lies behind its first byte
      have hmi : m ≤ i := Nat.le_of_not_lt fun h => hfind.2 i h hi
      have hj : marker.OccursAt (script.drop (m + 1)) (j - (m + 1)) := by
        rw [Bytes.occursAt_drop_iff hlen, Nat.add_sub_cancel' (by omega)]
        exact hj
      change (firstIndex? marker (script.drop (m + 1))).isSome = true
      cases hagain : firstIndex? marker (script.drop (m + 1)) with
      | some k => rfl
      | none => exact absurd hj (firstIndex?_eq_none_iff.mp hagain _)

end Commitment

end MergedMining
