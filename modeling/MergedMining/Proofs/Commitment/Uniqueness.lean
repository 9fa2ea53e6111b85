import MergedMining.Proofs.Commitment.Grammar

/-!
# Two commitments in one script

A script that holds the marker commits to one thing only: the root stands right behind the marker,
and the bytes there are those of one commitment.  Without a marker every position near the start
will do, so that two commitments to different roots may stand at different positions, even
overlapping each other.

## Main definitions

* `Commitment.body` — the bytes from the root to the nonce.
* `Commitment.SpelledTwice` — a script without a marker spells two commitments near its start.

## Main results

* `Commitment.Written.eq_or_unmarked` — two commitments are the same, or the script is unmarked and
  they stand at different positions.
* `Commitment.read_unique_iff` — at most one commitment is read from a script exactly if it does not
  spell two.
-/

namespace MergedMining.Commitment

/-- The bytes of a commitment from its root to its nonce. -/
def body (c : Commitment) : Bytes :=
  c.root.bytes ++ Bytes.ofUInt32 c.treeSize ++ Bytes.ofUInt32 c.nonce

@[simp] theorem length_body (c : Commitment) : c.body.length = 40 := by
  rw [body, List.length_append, List.length_append, c.root.length_bytes, Bytes.length_ofUInt32,
    Bytes.length_ofUInt32]

/-- The bytes and the position determine a commitment. -/
theorem eq_of_body_eq {c d : Commitment} (hbody : c.body = d.body) (hoffset : c.offset = d.offset) :
    c = d := by
  have hlen : ∀ v w : UInt32, (Bytes.ofUInt32 v).length = (Bytes.ofUInt32 w).length := fun v w => by
    rw [Bytes.length_ofUInt32, Bytes.length_ofUInt32]
  obtain ⟨hfront, hnonce⟩ := List.append_inj' hbody (hlen _ _)
  obtain ⟨hroot, hsize⟩ := List.append_inj' hfront (hlen _ _)
  obtain ⟨root, size, nonce, offset⟩ := c
  rw [mk.injEq]
  exact ⟨Hash256.ext hroot, Bytes.ofUInt32_inj hsize, Bytes.ofUInt32_inj hnonce, hoffset⟩

namespace Written

variable {script : Bytes} {root root' : Hash256} {height height' : Nat} {c d : Commitment}

theorem occursAt (h : Written script root height c) : c.body.OccursAt script c.offset := by
  obtain ⟨front, back, hfront, hscript⟩ := h.spelled
  refine ⟨front, back, ?_, hfront⟩
  rw [hscript, ← h.root_eq, body]
  simp only [List.append_assoc]

theorem length_ge (h : Written script root height c) : 40 ≤ script.length := by
  have hlen := h.occursAt.add_length_le
  rw [length_body] at hlen
  omega

theorem eq_of_offset_eq (hc : Written script root height c) (hd : Written script root' height' d)
    (hoffset : c.offset = d.offset) : c = d := by
  have hocc := hd.occursAt
  rw [← hoffset] at hocc
  exact eq_of_body_eq (hc.occursAt.eq_of_length_eq hocc (by rw [length_body, length_body])) hoffset

/-- **Two commitments in one script are the same**, unless the script is unmarked and they stand at
different positions near the start. -/
theorem eq_or_unmarked (hc : Written script root height c) (hd : Written script root' height' d) :
    c = d ∨ (Unmarked script ∧ c.offset ≠ d.offset ∧ c.offset ≤ 20 ∧ d.offset ≤ 20) := by
  by_cases hoffset : c.offset = d.offset
  · exact Or.inl (hc.eq_of_offset_eq hd hoffset)
  refine Or.inr ?_
  rcases hc.placed with ⟨m, hm, hmc⟩ | ⟨hnone, hle⟩
  · rcases hd.placed with ⟨n, hn, hnd⟩ | ⟨hnone, -⟩
    · -- both stand behind the only marker
      have hmn := hm.unique hn
      omega
    · exact absurd hnone hm.not_unmarked
  · rcases hd.placed with ⟨n, hn, -⟩ | ⟨-, hle'⟩
    · exact absurd hnone hn.not_unmarked
    · exact ⟨hnone, hoffset, hle, hle'⟩

/-- The commitment determines the height of the tree, whatever script it is written in. -/
theorem height_eq {script' : Bytes} (hc : Written script root height c)
    (hd : Written script' root' height' c) : height = height' := by
  have hpow : 2 ^ height = 2 ^ height' := hc.treeSize_eq.symm.trans hd.treeSize_eq
  exact (Nat.pow_right_inj (by decide)).mp hpow

end Written

/-! ### Scripts that commit to one thing -/

/-- The script spells a commitment at its position: a root that occurs nowhere before, behind it the
size of some tree and a nonce. -/
def Spelled (script : Bytes) (c : Commitment) : Prop :=
  c.body.OccursAt script c.offset ∧ (∃ height, c.treeSize.toNat = 2 ^ height) ∧
    ∀ j < c.offset, ¬ c.root.bytes.OccursAt script j

/-- What is written is what is spelled where a root may start. -/
theorem exists_written_iff {script : Bytes} {c : Commitment} :
    (∃ root height, Written script root height c) ↔ Spelled script c ∧ Placed script c.offset := by
  constructor
  · rintro ⟨root, height, hc⟩
    have hfirst := hc.first
    rw [← hc.root_eq] at hfirst
    exact ⟨⟨hc.occursAt, ⟨height, hc.treeSize_eq⟩, hfirst⟩, hc.placed⟩
  · rintro ⟨⟨⟨front, back, hscript, hfront⟩, ⟨height, hsize⟩, hfirst⟩, hplaced⟩
    refine ⟨c.root, height, rfl, ⟨front, back, hfront, ?_⟩, hsize, hfirst, hplaced⟩
    rw [hscript, body]
    simp only [List.append_assoc]

/-- The script can be read in two ways: no marker says which of two commitments near its start is
meant.  At most 20 bytes apart, they overlap. -/
def SpelledTwice (script : Bytes) : Prop :=
  Unmarked script ∧ ∃ c d : Commitment, c.offset < d.offset ∧ d.offset ≤ 20 ∧
    Spelled script c ∧ Spelled script d

theorem spelledTwice_of_written {script : Bytes} {root root' : Hash256} {height height' : Nat}
    {c d : Commitment} (hc : Written script root height c) (hd : Written script root' height' d)
    (hne : c ≠ d) : SpelledTwice script := by
  have hspelled := (exists_written_iff.mp ⟨root, height, hc⟩).1
  have hspelled' := (exists_written_iff.mp ⟨root', height', hd⟩).1
  rcases hc.eq_or_unmarked hd with heq | ⟨hnone, hoffset, hle, hle'⟩
  · exact absurd heq hne
  · rcases Nat.lt_or_gt_of_ne hoffset with hlt | hlt
    · exact ⟨hnone, c, d, hlt, hle', hspelled, hspelled'⟩
    · exact ⟨hnone, d, c, hlt, hle, hspelled', hspelled⟩

/-- **A script commits to at most one thing**, whatever root and height it is read for, exactly if it
does not spell two commitments without a marker.  In particular a script with a marker does. -/
theorem read_unique_iff (script : Bytes) :
    (∀ root₁ root₂ height₁ height₂ c₁ c₂, read script root₁ height₁ = .ok c₁ →
      read script root₂ height₂ = .ok c₂ → c₁ = c₂) ↔ ¬ SpelledTwice script := by
  constructor
  · rintro hunique ⟨hnone, c, d, hlt, hle, hc, hd⟩
    -- both stand where an unmarked root may start, so both are read
    obtain ⟨root, height, hwritten⟩ :=
      exists_written_iff.mpr ⟨hc, Or.inr ⟨hnone, by omega⟩⟩
    obtain ⟨root', height', hwritten'⟩ := exists_written_iff.mpr ⟨hd, Or.inr ⟨hnone, hle⟩⟩
    have heq := hunique root root' height height' c d (read_eq_ok_iff_written.mpr hwritten)
      (read_eq_ok_iff_written.mpr hwritten')
    exact Nat.ne_of_lt hlt (congrArg offset heq)
  · intro hnot root₁ root₂ height₁ height₂ c₁ c₂ h₁ h₂
    refine Decidable.byContradiction fun hne => ?_
    exact hnot (spelledTwice_of_written (read_eq_ok_iff_written.mp h₁)
      (read_eq_ok_iff_written.mp h₂) hne)

/-- A commitment to the zero root behind a single byte.  Read from that byte on, the last byte of the
zero root is the first one of the size, which is then that of a larger tree. -/
def shiftedScript : Bytes := 1 :: payload false .zero 0 0

/-- Two roots are read from one script: one for a tree of 256 leaves, and one byte behind it the
zero root for a single leaf. -/
theorem shiftedScript_read_twice :
    read shiftedScript (.ofNat 1) 8 = .ok ⟨.ofNat 1, 256, 0, 0⟩ ∧
      read shiftedScript .zero 0 = .ok ⟨.zero, 1, 0, 1⟩ ∧
      (⟨.ofNat 1, 256, 0, 0⟩ : Commitment) ≠ ⟨.zero, 1, 0, 1⟩ :=
  ⟨rfl, rfl, by decide⟩

end MergedMining.Commitment
