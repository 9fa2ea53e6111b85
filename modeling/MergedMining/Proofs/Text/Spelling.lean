import MergedMining.Decoding.Mismatch

/-!
# Spellings

Numbers are written in decimal digits without a zero in front, or in a fixed number of hexadecimal
digits.  Either spelling is read back as the number, digit by digit.  The text formats spell their
simple values alike, so that they are named here once.

## Main definitions

* `Integer.digits` — the decimal digits of a number.
* `Simple` — numbers, truth values and texts, `Simple.chars` their spelling.
* `NeedsNoEscape` — a text stands between quotes as it is.

## Main results

* `Integer.isDigit_toDigits`, `Integer.head_toDigits_ne_zero`, `Integer.foldl_digits` — decimal
  spellings: digits only, no zero in front, and the number as their value.
* `Integer.readNat_paddedDigits` — hexadecimal spellings are read back.
* `Decoding.bitsOfText_word` — a word is read back from its text.
-/

namespace MergedMining

/-! ### Digits -/

namespace Hex

theorem digitValue?_of_isDigit {base : Nat} {c : Char} (hbase : 10 ≤ base)
    (h : c.isDigit = true) : digitValue? base c = some (c.toNat - 48) := by
  have hrange : 48 ≤ c.toNat ∧ c.toNat ≤ 57 := Char.isDigit_iff_toNat.mp h
  have hlt : c.toNat - 48 < base := by omega
  simp only [digitValue?, if_pos hrange, Option.filter_some, decide_eq_true hlt, if_true]

theorem digitValue?_digit {n : Nat} (h : n < 16) : digitValue? 16 (digit n) = some n := by
  have hall : ∀ n < 16, digitValue? 16 (digit n) = some n := by decide
  exact hall n h

theorem digit_ne_plus {n : Nat} (h : n < 16) : digit n ≠ '+' := by
  have hall : ∀ n < 16, digit n ≠ '+' := by decide
  exact hall n h

theorem exists_digit_of_mem_paddedDigits {width n : Nat} {c : Char}
    (h : c ∈ paddedDigits width n) : ∃ d < 16, c = digit d := by
  induction width generalizing n with
  | zero => cases h
  | succ width ih =>
    rw [paddedDigits, List.mem_append, List.mem_singleton] at h
    rcases h with h | rfl
    · exact ih h
    · exact ⟨n % 16, Nat.mod_lt _ (by decide), rfl⟩

end Hex

namespace Integer

/-! ### Decimal spellings -/

theorem isDigit_toDigits {n : Nat} : ∀ c ∈ Nat.toDigits 10 n, c.isDigit = true :=
  fun _ => Nat.isDigit_of_mem_toDigits (by decide) (by decide)

/-- Only zero is written with a zero in front: the first digit stays while last digits are cut
off. -/
theorem head_toDigits_ne_zero {n : Nat} (h : 0 < n) : (Nat.toDigits 10 n).head? ≠ some '0' := by
  induction n using Nat.strongRecOn with
  | ind n ih =>
    rw [Nat.toDigits_eq_if (by decide)]
    by_cases hlt : n < 10
    · rw [if_pos hlt, List.head?_cons, Ne, Option.some.injEq, Nat.digitChar_eq_zero]
      exact Nat.ne_of_gt h
    · have hfront := ih (n / 10) (by omega) (by omega)
      rw [if_neg hlt]
      cases heq : Nat.toDigits 10 (n / 10) with
      | nil => exact absurd heq Nat.toDigits_ne_nil
      | cons c rest =>
        rw [heq] at hfront
        exact hfront

/-- A zero in front stands alone. -/
theorem toDigits_ne_zero_cons {n : Nat} {c : Char} {rest : List Char} :
    Nat.toDigits 10 n ≠ '0' :: c :: rest := by
  intro h
  rcases Nat.eq_zero_or_pos n with rfl | hpos
  · rw [Nat.toDigits_zero] at h
    cases h
  · exact head_toDigits_ne_zero hpos (by rw [h]; rfl)

theorem not_mem_of_isDigit {cs : List Char} (h : ∀ c ∈ cs, c.isDigit = true) {c : Char}
    (hc : c.isDigit = false) : c ∉ cs := by
  intro hmem
  rw [h c hmem] at hc
  cases hc

theorem toDigits_ne_cons {n : Nat} {c : Char} {rest : List Char} (hc : c.isDigit = false) :
    Nat.toDigits 10 n ≠ c :: rest := by
  intro heq
  exact not_mem_of_isDigit isDigit_toDigits hc (by rw [heq]; exact .head rest)

/-- The decimal digits of a number, first digit first. -/
def digits (n : Nat) : List Nat := (Nat.toDigits 10 n).filterMap (Hex.digitValue? 10)

theorem filterMap_digitValue? {cs : List Char} (h : ∀ c ∈ cs, c.isDigit = true) :
    cs.filterMap (Hex.digitValue? 10) = cs.map (·.toNat - 48) := by
  induction cs with
  | nil => rfl
  | cons c cs ih =>
    rw [List.forall_mem_cons] at h
    rw [List.filterMap_cons, Hex.digitValue?_of_isDigit (Nat.le_refl 10) h.1, List.map_cons,
      ih h.2]

theorem digits_eq_map (n : Nat) : digits n = (Nat.toDigits 10 n).map (·.toNat - 48) :=
  filterMap_digitValue? isDigit_toDigits

/-- **The digits spell the number.** -/
theorem foldl_digits (n : Nat) : (digits n).foldl (fun m d => 10 * m + d) 0 = n := by
  rw [digits_eq_map, List.foldl_map]
  have hvalue := Nat.ofDigitChars_ten_toDigits (n := n)
  rwa [Nat.ofDigitChars_eq_foldl] at hvalue

theorem length_digits (n : Nat) : (digits n).length = (Nat.toDigits 10 n).length := by
  rw [digits_eq_map, List.length_map]

theorem digits_ne_nil (n : Nat) : digits n ≠ [] := by
  rw [Ne, ← List.length_eq_zero_iff, length_digits, List.length_eq_zero_iff]
  exact Nat.toDigits_ne_nil

theorem digits_ne_zero_cons {n d : Nat} {ds : List Nat} : digits n ≠ 0 :: d :: ds := by
  have hdigit := isDigit_toDigits (n := n)
  rw [digits_eq_map]
  cases heq : Nat.toDigits 10 n with
  | nil => exact absurd heq Nat.toDigits_ne_nil
  | cons c cs =>
    rw [heq] at hdigit
    cases cs with
    | nil => simp
    | cons c' cs =>
      intro hmap
      rw [List.map_cons, List.cons.injEq] at hmap
      have hrange := Char.isDigit_iff_toNat.mp (hdigit c (.head _))
      have hlow : ('0' : Char).toNat = 48 := rfl
      have hzero : c = '0' := Char.toNat_inj.mp (by omega)
      rw [hzero] at heq
      exact toDigits_ne_zero_cons heq

/-! ### Hexadecimal spellings -/

theorem readDigits_append (base bound : Nat) (excess : IntegerError) (n : Nat)
    (xs ys : List Char) :
    readDigits base bound excess n (xs ++ ys) =
      (readDigits base bound excess n xs).bind fun m => readDigits base bound excess m ys := by
  induction xs generalizing n with
  | nil => rfl
  | cons c xs ih =>
    rw [List.cons_append, readDigits, readDigits]
    cases Hex.digitValue? base c with
    | none => rfl
    | some d =>
      by_cases hbound : bound < base * n + d
      · simp only [if_pos hbound]
        rfl
      · simp only [if_neg hbound, ih]

/-- Digits of a fixed width are read as what the number leaves beyond that width. -/
theorem readDigits_paddedDigits {bound : Nat} (excess : IntegerError) (width n : Nat)
    (h : n % 16 ^ width ≤ bound) :
    readDigits 16 bound excess 0 (Hex.paddedDigits width n) = .ok (n % 16 ^ width) := by
  induction width generalizing n with
  | zero => rw [Hex.paddedDigits, readDigits, Nat.pow_zero, Nat.mod_one]
  | succ width ih =>
    have hsplit : n % 16 ^ (width + 1) = 16 * (n / 16 % 16 ^ width) + n % 16 := by
      rw [Nat.pow_succ', Nat.mod_mul]
      omega
    have hdigit := Hex.digitValue?_digit (Nat.mod_lt n (by decide : 0 < 16))
    rw [Hex.paddedDigits, readDigits_append, ih (n / 16) (by omega)]
    simp only [Except.bind, readDigits, hdigit]
    rw [if_neg (by omega), hsplit]

theorem readNat_eq_readDigits {base bound : Nat} {c : Char} {rest : List Char} (h : c ≠ '+') :
    readNat base bound (c :: rest) = readDigits base bound .tooLarge 0 (c :: rest) := by
  unfold readNat
  split
  case h_2 heq => exact absurd (List.cons.inj heq).1 h
  case h_3 heq => exact absurd (List.cons.inj heq).1 h
  all_goals simp_all

theorem exists_paddedDigits_eq_cons (width n : Nat) :
    ∃ d < 16, ∃ rest, Hex.paddedDigits (width + 1) n = Hex.digit d :: rest := by
  induction width generalizing n with
  | zero => exact ⟨n % 16, Nat.mod_lt _ (by decide), [], rfl⟩
  | succ width ih =>
    obtain ⟨d, hd, rest, heq⟩ := ih (n / 16)
    exact ⟨d, hd, rest ++ [Hex.digit (n % 16)], by rw [Hex.paddedDigits, heq]; rfl⟩

/-- **A number is read back** from as many hexadecimal digits as it needs, or more. -/
theorem readNat_paddedDigits {bound width n : Nat} (hwidth : n < 16 ^ (width + 1))
    (hbound : n ≤ bound) :
    readNat 16 bound (Hex.paddedDigits (width + 1) n) = .ok n := by
  obtain ⟨d, hd, rest, heq⟩ := exists_paddedDigits_eq_cons width n
  have hmod : n % 16 ^ (width + 1) = n := Nat.mod_eq_of_lt hwidth
  rw [heq, readNat_eq_readDigits (Hex.digit_ne_plus hd), ← heq,
    readDigits_paddedDigits .tooLarge (width + 1) n (by rwa [hmod]), hmod]

end Integer

theorem Hex.toList_word (w : UInt32) :
    (Hex.word w).toList = '0' :: 'x' :: Hex.paddedDigits 8 w.toNat := by
  rw [Hex.word, String.toList_append, String.toList_ofList, String.toList_ofList]
  rfl

/-- **A compact target is read back** from the text of its word. -/
theorem Decoding.bitsOfText_word (w : UInt32) : bitsOfText (Hex.word w) = .ok w := by
  have hlt : w.toNat < 4294967296 := w.toNat_lt
  have hread : Integer.readNat 16 (UInt32.size - 1) (Hex.paddedDigits 8 w.toNat) = .ok w.toNat :=
    Integer.readNat_paddedDigits hlt (Nat.le_of_lt_succ hlt)
  simp only [bitsOfText, Hex.toList_word, hread, UInt32.ofNat_toNat]

/-! ### Simple values -/

/-- A value that is written in one piece. -/
inductive Simple where
  /-- A number. -/
  | natural (n : Nat)
  /-- A truth value. -/
  | truth (b : Bool)
  /-- A text. -/
  | text (s : String)

/-- A character that stands for itself between quotes. -/
structure StandsForItself (c : Char) : Prop where
  /-- It does not control anything. -/
  le_toNat : 0x20 ≤ c.toNat
  /-- Nor does it delete. -/
  ne_delete : c.toNat ≠ 0x7f
  /-- It does not end the text. -/
  ne_quote : c ≠ '"'
  /-- It starts no escape. -/
  ne_backslash : c ≠ '\\'

theorem StandsForItself.ne_of_lt {c d : Char} (h : StandsForItself c) (hd : d.toNat < 0x20) :
    c ≠ d := by
  rintro rfl
  exact absurd h.le_toNat (Nat.not_le_of_lt hd)

instance (c : Char) : Decidable (StandsForItself c) :=
  decidable_of_iff (0x20 ≤ c.toNat ∧ c.toNat ≠ 0x7f ∧ c ≠ '"' ∧ c ≠ '\\')
    ⟨fun ⟨hle, hdelete, hquote, hbackslash⟩ => ⟨hle, hdelete, hquote, hbackslash⟩,
      fun h => ⟨h.le_toNat, h.ne_delete, h.ne_quote, h.ne_backslash⟩⟩

/-- A text of such characters needs no escapes. -/
def NeedsNoEscape (text : List Char) : Prop := ∀ c ∈ text, StandsForItself c

-- only the characters of the text are looked at, not all characters there are
instance (text : List Char) : Decidable (NeedsNoEscape text) :=
  List.decidableBAll StandsForItself text

theorem standsForItself_digit {d : Nat} (h : d < 16) : StandsForItself (Hex.digit d) := by
  have hall : ∀ d < 16, StandsForItself (Hex.digit d) := by decide
  exact hall d h

namespace Simple

/-- The characters of a truth value. -/
def truthWord (b : Bool) : List Char :=
  if b then ['t', 'r', 'u', 'e'] else ['f', 'a', 'l', 's', 'e']

/-- The characters of a value. -/
def chars : Simple → List Char
  | natural n => Nat.toDigits 10 n
  | truth b => truthWord b
  | text s => '"' :: s.toList ++ ['"']

/-- A number fits into a signed integer of 64 bits, and a text needs no escapes. -/
def Fits : Simple → Prop
  | natural n => n < 0x8000000000000000
  | truth _ => True
  | text s => NeedsNoEscape s.toList

/-- A word needs no escapes. -/
theorem fits_word (w : UInt32) : (text (Hex.word w)).Fits := by
  have hprefix : NeedsNoEscape ['0', 'x'] := by decide
  intro c hc
  rw [Hex.word, String.toList_append, String.toList_ofList, String.toList_ofList,
    List.mem_append] at hc
  rcases hc with hc | hc
  · exact hprefix c hc
  · obtain ⟨d, hd, rfl⟩ := Hex.exists_digit_of_mem_paddedDigits hc
    exact standsForItself_digit hd

theorem toList_truth (b : Bool) : (if b then "true" else "false").toList = truthWord b := by
  cases b with
  | false => rfl
  | true => rfl

end Simple

end MergedMining
