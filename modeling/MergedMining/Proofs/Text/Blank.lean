import Mathlib.Data.List.DropRight
import MergedMining.Text.Blank

/-!
# What trimming leaves

A text is trimmed from the front and then from the back.  What is left is the one part of the text
that neither starts nor ends with white space, while everything around it is white space.

## Main definitions

* `Text.Trimmed` — a text without the white space around it.

## Main results

* `Text.trimmed_iff` — there is one such text, and it is what trimming leaves.
-/

namespace MergedMining.Text

/-- The text is the core with white space around it, and the core neither starts nor ends with
white space. -/
structure Trimmed (text core : List Char) : Prop where
  /-- All around the core is white space. -/
  around : ∃ front back, text = front ++ (core ++ back) ∧ (∀ c ∈ front, isBlank c = true) ∧
    ∀ c ∈ back, isBlank c = true
  /-- The core does not start with white space. -/
  starts : ∀ c ∈ core.head?, isBlank c = false
  /-- Nor does it end with white space. -/
  ends : ∀ c ∈ core.getLast?, isBlank c = false

theorem Trimmed.self {text : List Char} (h : ∀ c ∈ text, isBlank c = false) :
    Trimmed text text where
  around := ⟨[], [], by simp⟩
  starts := fun c hc => h c (List.mem_of_mem_head? hc)
  ends := fun c hc => h c (List.mem_of_mem_getLast? hc)

theorem isBlank_of_mem_head?_trimFront {text : List Char} {c : Char}
    (h : c ∈ (trimFront text).head?) : isBlank c = false := by
  have hnot := List.head?_dropWhile_not isBlank text
  rw [show (text.dropWhile isBlank).head? = some c from h] at hnot
  exact hnot

/-- Trimming the front takes white space away up to the first character that is none. -/
theorem trimFront_append {front rest : List Char} (hfront : ∀ c ∈ front, isBlank c = true)
    (hrest : ∀ c ∈ rest.head?, isBlank c = false) : trimFront (front ++ rest) = rest := by
  unfold trimFront
  rw [List.dropWhile_append_of_pos hfront]
  cases rest with
  | nil => rfl
  | cons c rest =>
    have hc : isBlank c = false := hrest c rfl
    simp [hc]

/-- The back is trimmed like the front of the text back to front. -/
theorem trimBoth_append (text : List Char) :
    trimBoth text ++ (trimFront text).rtakeWhile isBlank = trimFront text :=
  List.rdropWhile_append_rtakeWhile

theorem trimmed_trimBoth (text : List Char) : Trimmed text (trimBoth text) where
  around := by
    refine ⟨text.takeWhile isBlank, (trimFront text).rtakeWhile isBlank, ?_, ?_, ?_⟩
    · rw [trimBoth_append]
      exact List.takeWhile_append_dropWhile.symm
    · intro c hc
      exact List.mem_takeWhile_imp hc
    · intro c hc
      exact List.mem_rtakeWhile_imp hc
  starts c hc := by
    have hfront : c ∈ (trimFront text).head? := by
      rw [← trimBoth_append, List.head?_append, hc]
      rfl
    exact isBlank_of_mem_head?_trimFront hfront
  ends c hc := by
    rw [trimBoth, List.getLast?_reverse] at hc
    exact isBlank_of_mem_head?_trimFront hc

theorem Trimmed.eq_trimBoth {text core : List Char} (h : Trimmed text core) :
    trimBoth text = core := by
  obtain ⟨front, back, rfl, hfront, hback⟩ := h.around
  unfold trimBoth
  cases core with
  | nil =>
    rw [List.nil_append, ← List.append_nil (front ++ back), trimFront_append _ (by simp)]
    · rfl
    · intro c hc
      rcases List.mem_append.mp hc with hc | hc
      · exact hfront c hc
      · exact hback c hc
  | cons c core =>
    have hstarts : ∀ d ∈ (c :: core ++ back).head?, isBlank d = false := h.starts
    have hends : ∀ d ∈ (c :: core).reverse.head?, isBlank d = false := by
      rw [List.head?_reverse]
      exact h.ends
    have hblank : ∀ d ∈ back.reverse, isBlank d = true := fun d hd =>
      hback d (List.mem_reverse.mp hd)
    rw [trimFront_append hfront hstarts, List.reverse_append, trimFront_append hblank hends,
      List.reverse_reverse]

theorem isBlank_of_isDigit {c : Char} (h : c.isDigit = true) : isBlank c = false := by
  have hrange : 48 ≤ c.toNat ∧ c.toNat ≤ 57 := Char.isDigit_iff_toNat.mp h
  simp only [isBlank, Bool.or_eq_false_iff, Bool.and_eq_false_iff, decide_eq_false_iff_not,
    beq_eq_false_iff_ne]
  omega

/-- **There is one text without white space around it**, and trimming finds it. -/
theorem trimmed_iff {text core : List Char} : Trimmed text core ↔ core = trimBoth text := by
  constructor
  · intro h
    exact h.eq_trimBoth.symm
  · rintro rfl
    exact trimmed_trimBoth text

/-- Without white space in it a text is left as it is by trimming. -/
theorem trimBoth_of_notBlank {text : List Char} (h : ∀ c ∈ text, isBlank c = false) :
    trimBoth text = text := (Trimmed.self h).eq_trimBoth

end MergedMining.Text
