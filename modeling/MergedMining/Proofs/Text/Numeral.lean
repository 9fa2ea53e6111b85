import Mathlib.Data.List.Forall2
import Mathlib.Data.Nat.Digits.Defs
import MergedMining.Proofs.Text.Spelling

/-!
# Numerals

A numeral is at least one digit, in either case, and denotes the sum of its digits by their places.
Reading goes through it digit by digit and gives up as soon as the number is out of its range.  As
the number never gets smaller on the way, it is then out of range in the end as well, so that what
is read are exactly the numerals of the range, with as many zeros in front as one likes.

## Main definitions

* `Integer.IsDigit` — a character as a digit.
* `Integer.Numeral` — a text as a number.

## Main results

* `Integer.readDigits_eq_ok_iff` — digits that go on with a number.
* `Integer.readNat_eq_ok_iff`, `Integer.readInt_eq_ok_iff` — what is read without and with a sign.
-/

namespace MergedMining.Integer

/-- The character is the digit of this value, in lower or upper case. -/
def IsDigit (base : Nat) (c : Char) (d : Nat) : Prop :=
  d < base ∧ (c = d.digitChar ∨ c = d.digitChar.toUpper)

/-- The text consists of at least one digit, first digit first, and this is its place value. -/
def Numeral (base : Nat) (text : List Char) (n : Nat) : Prop :=
  text ≠ [] ∧ ∃ ds, List.Forall₂ (IsDigit base) text ds ∧ n = Nat.ofDigits base ds.reverse

variable {base : Nat}

/-! ### Digits -/

theorem toNat_digitChar {d : Nat} (h : d < 16) :
    d.digitChar.toNat = (if d < 10 then 48 + d else 87 + d) ∧
      d.digitChar.toUpper.toNat = if d < 10 then 48 + d else 55 + d := by
  have hall : ∀ d < 16, d.digitChar.toNat = (if d < 10 then 48 + d else 87 + d) ∧
      d.digitChar.toUpper.toNat = if d < 10 then 48 + d else 55 + d := by decide
  exact hall d h

/-- A digit by its code: there are three runs of codes, and letters start at ten. -/
theorem isDigit_iff (hbase : base ≤ 16) {c : Char} {d : Nat} :
    IsDigit base c d ↔
      d < base ∧ (d < 10 ∧ c.toNat = 48 + d ∨ 10 ≤ d ∧ (c.toNat = 87 + d ∨ c.toNat = 55 + d)) := by
  refine and_congr_right fun hd => ?_
  obtain ⟨hlower, hupper⟩ := toNat_digitChar (Nat.lt_of_lt_of_le hd hbase)
  rw [← Char.toNat_inj, ← Char.toNat_inj, hlower, hupper]
  by_cases hten : d < 10
  · simp [hten, Nat.not_le_of_lt hten]
  · simp [hten, Nat.le_of_not_lt hten]

/-- The value of a digit is found. -/
theorem digitValue?_eq_some_iff (hbase : base ≤ 16) {c : Char} {d : Nat} :
    Hex.digitValue? base c = some d ↔ IsDigit base c d := by
  rw [isDigit_iff hbase]
  simp only [Hex.digitValue?, Option.filter_eq_some_iff, decide_eq_true_eq]
  rw [and_comm]
  refine and_congr_right fun hd => ?_
  split
  case isTrue hdecimal =>
    rw [Option.some.injEq]
    omega
  case isFalse hdecimal =>
    split
    case isTrue hlower =>
      rw [Option.some.injEq]
      omega
    case isFalse hlower =>
      split
      case isTrue hupper =>
        rw [Option.some.injEq]
        omega
      case isFalse hupper =>
        refine iff_of_false (by simp) ?_
        omega

/-- No digit is a sign. -/
theorem IsDigit.ne_sign (hbase : base ≤ 16) {c : Char} {d : Nat} (h : IsDigit base c d) :
    c ≠ '+' ∧ c ≠ '-' := by
  have hcode := (isDigit_iff hbase).mp h
  have hplus : ('+' : Char).toNat = 43 := rfl
  have hminus : ('-' : Char).toNat = 45 := rfl
  constructor
  · rintro rfl
    omega
  · rintro rfl
    omega

/-! ### Going on with digits -/

/-- The place value of digits is what comes of going on with one digit after the other. -/
theorem ofDigits_reverse (base : Nat) (ds : List Nat) :
    Nat.ofDigits base ds.reverse = ds.foldl (fun n d => base * n + d) 0 := by
  rw [Nat.ofDigits_eq_foldr, List.foldr_reverse]
  simp only [Nat.cast_id, Nat.add_comm]

/-- Going on with digits never makes a number smaller. -/
theorem le_foldl (hbase : 0 < base) (n : Nat) (ds : List Nat) :
    n ≤ ds.foldl (fun n d => base * n + d) n := by
  induction ds generalizing n with
  | nil => exact Nat.le_refl n
  | cons d ds ih =>
    have hstep : n ≤ base * n + d :=
      Nat.le_trans (Nat.le_mul_of_pos_left n hbase) (Nat.le_add_right _ d)
    exact Nat.le_trans hstep (ih _)

/-- **All digits are taken if the number they end with is in the range**, and only then: what is out
of the range stays out of it. -/
theorem readDigits_eq_ok_iff (hpos : 0 < base) (hbase : base ≤ 16) {bound : Nat}
    {excess : IntegerError} {text : List Char} {m : Nat} :
    ∀ {n : Nat}, n ≤ bound → (readDigits base bound excess n text = .ok m ↔
      (∃ ds, List.Forall₂ (IsDigit base) text ds ∧ m = ds.foldl (fun n d => base * n + d) n) ∧
        m ≤ bound) := by
  induction text with
  | nil =>
    intro n hn
    rw [readDigits, Except.ok.injEq]
    constructor
    · rintro rfl
      exact ⟨⟨[], .nil, rfl⟩, hn⟩
    · rintro ⟨⟨ds, hds, rfl⟩, -⟩
      cases hds
      rfl
  | cons c text ih =>
    intro n hn
    simp only [List.forall₂_cons_left_iff, ← digitValue?_eq_some_iff hbase]
    rw [readDigits]
    cases hvalue : Hex.digitValue? base c with
    | none =>
      refine iff_of_false (by simp) ?_
      rintro ⟨⟨ds, ⟨d, _, hd, -⟩, -⟩, -⟩
      cases hd
    | some d =>
      by_cases hexcess : bound < base * n + d
      · simp only [if_pos hexcess]
        refine iff_of_false (by simp) ?_
        rintro ⟨⟨_, ⟨d, ds, hd, -, rfl⟩, rfl⟩, hm⟩
        cases hd
        exact Nat.not_le_of_lt hexcess (Nat.le_trans (le_foldl hpos _ ds) hm)
      · simp only [if_neg hexcess, ih (Nat.le_of_not_lt hexcess)]
        refine and_congr_left fun _ => ?_
        constructor
        · rintro ⟨ds, hds, hm⟩
          exact ⟨d :: ds, ⟨d, ds, rfl, hds, rfl⟩, hm⟩
        · rintro ⟨_, ⟨d, ds, hd, hds, rfl⟩, hm⟩
          cases hd
          exact ⟨ds, hds, hm⟩

/-- A text of digits is read as the number it denotes. -/
theorem readDigits_zero_eq_ok_iff (hpos : 0 < base) (hbase : base ≤ 16) {bound : Nat}
    {excess : IntegerError} {text : List Char} (hne : text ≠ []) {n : Nat} :
    readDigits base bound excess 0 text = .ok n ↔ Numeral base text n ∧ n ≤ bound := by
  simp only [readDigits_eq_ok_iff hpos hbase (Nat.zero_le bound), Numeral, ofDigits_reverse, hne,
    ne_eq, not_false_eq_true, true_and]

/-- Decimal digits are a numeral. -/
theorem numeral_toDigits (n : Nat) : Numeral 10 (Nat.toDigits 10 n) n := by
  refine ⟨Nat.toDigits_ne_nil, digits n, ?_, ?_⟩
  · rw [digits_eq_map, List.forall₂_map_right_iff, List.forall₂_same]
    intro c hc
    rw [← digitValue?_eq_some_iff (by decide)]
    exact Hex.digitValue?_of_isDigit (Nat.le_refl 10) (isDigit_toDigits c hc)
  · rw [ofDigits_reverse, foldl_digits]

/-! ### Signs -/

theorem Numeral.ne_sign (hbase : base ≤ 16) {c : Char} {text : List Char} {n : Nat}
    (h : Numeral base (c :: text) n) : c ≠ '+' ∧ c ≠ '-' := by
  obtain ⟨-, ds, hds, -⟩ := h
  obtain ⟨d, _, hd, -, -⟩ := List.forall₂_cons_left_iff.mp hds
  exact hd.ne_sign hbase

/-- **Without a range below zero** a numeral is read, perhaps behind a plus sign. -/
theorem readNat_eq_ok_iff (hpos : 0 < base) (hbase : base ≤ 16) {bound : Nat} {text : List Char}
    {n : Nat} :
    readNat base bound text = .ok n ↔
      ∃ digits, (text = digits ∨ text = '+' :: digits) ∧ Numeral base digits n ∧ n ≤ bound := by
  cases text with
  | nil =>
    refine iff_of_false (by simp [readNat]) ?_
    rintro ⟨digits, rfl | h, hnumeral, -⟩
    · exact hnumeral.1 rfl
    · cases h
  | cons c rest =>
    by_cases hplus : c = '+'
    case neg =>
      rw [readNat_eq_readDigits hplus,
        readDigits_zero_eq_ok_iff hpos hbase (List.cons_ne_nil c rest)]
      constructor
      · intro h
        exact ⟨c :: rest, .inl rfl, h⟩
      · rintro ⟨digits, rfl | h, hdigits⟩
        · exact hdigits
        · exact absurd (List.cons.inj h).1 hplus
    subst hplus
    -- what stands behind the sign is a numeral, and the sign is no part of one
    have hsigned : (∃ digits, ('+' :: rest = digits ∨ '+' :: rest = '+' :: digits) ∧
        Numeral base digits n ∧ n ≤ bound) ↔ Numeral base rest n ∧ n ≤ bound := by
      constructor
      · rintro ⟨digits, rfl | h, hnumeral, hle⟩
        · exact absurd rfl (hnumeral.ne_sign hbase).1
        · cases h
          exact ⟨hnumeral, hle⟩
      · intro h
        exact ⟨rest, .inr rfl, h⟩
    rw [hsigned]
    cases rest with
    | nil => exact iff_of_false (by simp [readNat]) fun h => h.1.1 rfl
    | cons d rest => exact readDigits_zero_eq_ok_iff hpos hbase (List.cons_ne_nil d rest)

theorem map_eq_ok_iff {α β ε : Type} {result : Except ε α} {f : α → β} {y : β} :
    result.map f = .ok y ↔ ∃ x, result = .ok x ∧ f x = y := by
  cases result with
  | error e => exact iff_of_false (by simp [Except.map]) (by simp)
  | ok x => simp [Except.map]

/-- Behind a minus sign only digits are read. -/
theorem readInt_minus {least most : Nat} (d : Char) (rest : List Char) :
    readInt base least most ('-' :: d :: rest) =
      (readDigits base least .tooSmall 0 (d :: rest)).map fun n : Nat => -(n : Int) := by
  simp only [readInt]
  cases readDigits base least .tooSmall 0 (d :: rest) with
  | error e => rfl
  | ok n => rfl

theorem readInt_of_unsigned {least most : Nat} {text : List Char}
    (h : ¬ ∃ rest, text = '-' :: rest) :
    readInt base least most text = (readNat base most text).map fun n : Nat => (n : Int) := by
  unfold readInt
  split
  case h_1 => exact absurd ⟨[], rfl⟩ h
  case h_2 rest _ => exact absurd ⟨rest, rfl⟩ h
  case h_3 =>
    cases readNat base most text with
    | error e => rfl
    | ok n => rfl

/-- **With a range on either side of zero** a numeral is read, perhaps behind a sign. -/
theorem readInt_eq_ok_iff (hpos : 0 < base) (hbase : base ≤ 16) {least most : Nat}
    {text : List Char} {z : Int} :
    readInt base least most text = .ok z ↔
      ∃ digits n, Numeral base digits n ∧
        ((text = digits ∨ text = '+' :: digits) ∧ n ≤ most ∧ z = n ∨
          text = '-' :: digits ∧ n ≤ least ∧ z = -n) := by
  by_cases hminus : ∃ rest, text = '-' :: rest
  case neg =>
    simp only [readInt_of_unsigned hminus, map_eq_ok_iff, readNat_eq_ok_iff hpos hbase]
    constructor
    · rintro ⟨n, ⟨digits, htext, hnumeral, hle⟩, rfl⟩
      exact ⟨digits, n, hnumeral, .inl ⟨htext, hle, rfl⟩⟩
    · rintro ⟨digits, n, hnumeral, ⟨htext, hle, rfl⟩ | ⟨htext, -, -⟩⟩
      · exact ⟨n, ⟨digits, htext, hnumeral, hle⟩, rfl⟩
      · exact absurd ⟨digits, htext⟩ hminus
  obtain ⟨rest, rfl⟩ := hminus
  have hsigned : (∃ digits n, Numeral base digits n ∧
      (('-' :: rest = digits ∨ '-' :: rest = '+' :: digits) ∧ n ≤ most ∧ z = n ∨
        '-' :: rest = '-' :: digits ∧ n ≤ least ∧ z = -n)) ↔
      ∃ n : Nat, (Numeral base rest n ∧ n ≤ least) ∧ -(n : Int) = z := by
    constructor
    · rintro ⟨digits, n, hnumeral, ⟨rfl | h, -, -⟩ | ⟨h, hle, rfl⟩⟩
      · exact absurd rfl (hnumeral.ne_sign hbase).2
      · exact absurd (List.cons.inj h).1 (by decide)
      · cases h
        exact ⟨n, ⟨hnumeral, hle⟩, rfl⟩
    · rintro ⟨n, ⟨hnumeral, hle⟩, rfl⟩
      exact ⟨rest, n, hnumeral, .inr ⟨rfl, hle, rfl⟩⟩
  rw [hsigned]
  cases rest with
  | nil =>
    refine iff_of_false (by simp [readInt]) ?_
    rintro ⟨n, ⟨hnumeral, -⟩, -⟩
    exact hnumeral.1 rfl
  | cons d rest =>
    simp only [readInt_minus, map_eq_ok_iff,
      readDigits_zero_eq_ok_iff hpos hbase (List.cons_ne_nil d rest)]

end MergedMining.Integer
