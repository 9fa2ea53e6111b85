import MergedMining.CommandLine.Report
import MergedMining.Proofs.Text.Blank
import MergedMining.Proofs.Text.Numeral

/-!
# Which texts are versions

A version is written as the number its thirty-two bits spell, in hexadecimal digits behind `0x`, or
as the signed number they stand for, in decimal digits.  Either way there may be a sign that changes
nothing, zeros in front, and white space around it all.  The tool prints a version in both forms,
and reads both of them back.

## Main definitions

* `Version.Prefixed` — a text starts with `0x`.
* `Version.SpellsBits`, `Version.SpellsSigned` — the texts of a version in the two forms.

## Main results

* `Version.ofText_of_prefixed`, `Version.ofText_of_unprefixed` — what is read in either form.
* `Version.ofText_decimal`, `Version.ofText_word` — what is written is read back.
* `Version.texts_exact` — which texts are read as which version.
-/

namespace MergedMining.Version

open Integer (Numeral)

/-- The text starts with `0x`, with the letter in either case, and goes on with these characters. -/
def Prefixed (text digits : List Char) : Prop :=
  text = '0' :: 'x' :: digits ∨ text = '0' :: 'X' :: digits

/-- A numeral of thirty-two bits, perhaps behind a plus sign. -/
def SpellsBits (text : List Char) (v : Version) : Prop :=
  ∃ digits n, (text = digits ∨ text = '+' :: digits) ∧ Numeral 16 digits n ∧ n < 2 ^ 32 ∧
    v.toNat = n

/-- A numeral for the signed number, perhaps behind a sign. -/
def SpellsSigned (text : List Char) (v : Version) : Prop :=
  ∃ digits n, Numeral 10 digits n ∧
    ((text = digits ∨ text = '+' :: digits) ∧ n < 2 ^ 31 ∧ signed v = n ∨
      text = '-' :: digits ∧ n ≤ 2 ^ 31 ∧ signed v = -n)

variable {v : Version} {text : String} {core digits : List Char}

/-! ### Reading -/

/-- Within its range a signed number stands for one version. -/
theorem ofSigned_eq_iff {z : Int} (hleast : -2 ^ 31 ≤ z) (hmost : z < 2 ^ 31) :
    ofSigned z = v ↔ signed v = z := by
  have hv : v.toNat < 4294967296 := v.toNat_lt
  rw [← UInt32.toNat_inj, ofSigned, UInt32.toNat_ofNat', signed]
  split
  case isTrue hlow => omega
  case isFalse hhigh => omega

/-- What stands behind `0x` is read as a numeral of thirty-two bits. -/
theorem ofText_of_prefixed (hcore : Text.trimBoth text.toList = core)
    (h : Prefixed core digits) : ofText text = .ok v ↔ SpellsBits digits v := by
  have hread : ofText text = .ok v ↔
      ∃ n, Integer.readNat 16 (UInt32.size - 1) digits = .ok n ∧ UInt32.ofNat n = v := by
    rcases h with rfl | rfl
    all_goals
      simp only [ofText, Text.trim, String.toList_ofList, hcore]
      cases Integer.readNat 16 (UInt32.size - 1) digits with
      | error e => simp
      | ok n => simp
  have hsize : UInt32.size = 2 ^ 32 := rfl
  rw [hread]
  simp only [Integer.readNat_eq_ok_iff (show 0 < 16 by decide) (Nat.le_refl 16)]
  constructor
  · rintro ⟨n, ⟨numeral, htext, hnumeral, hle⟩, rfl⟩
    have hlt : n < 2 ^ 32 := by omega
    exact ⟨numeral, n, htext, hnumeral, hlt, UInt32.toNat_ofNat_of_lt' hlt⟩
  · rintro ⟨numeral, n, htext, hnumeral, hlt, rfl⟩
    exact ⟨v.toNat, ⟨numeral, htext, hnumeral, by omega⟩, UInt32.ofNat_toNat⟩

/-- Any other text is read as a numeral with a sign. -/
theorem ofText_of_unprefixed (hcore : Text.trimBoth text.toList = core)
    (h : ¬ ∃ digits, Prefixed core digits) : ofText text = .ok v ↔ SpellsSigned core v := by
  have hread : ofText text = .ok v ↔
      ∃ z, Integer.readInt 10 0x80000000 0x7fffffff core = .ok z ∧ ofSigned z = v := by
    simp only [ofText, Text.trim, String.toList_ofList, hcore]
    split
    case h_1 => exact absurd ⟨_, .inl rfl⟩ h
    case h_2 => exact absurd ⟨_, .inr rfl⟩ h
    case h_3 =>
      cases Integer.readInt 10 0x80000000 0x7fffffff core with
      | error e => simp
      | ok z => simp
  rw [hread]
  simp only [Integer.readInt_eq_ok_iff (show 0 < 10 by decide) (show 10 ≤ 16 by decide)]
  constructor
  · rintro ⟨z, ⟨digits, n, hnumeral, hsign⟩, hv⟩
    refine ⟨digits, n, hnumeral, hsign.imp ?_ ?_⟩
    · rintro ⟨htext, hle, rfl⟩
      exact ⟨htext, by omega, (ofSigned_eq_iff (by omega) (by omega)).mp hv⟩
    · rintro ⟨htext, hle, rfl⟩
      exact ⟨htext, hle, (ofSigned_eq_iff (by omega) (by omega)).mp hv⟩
  · rintro ⟨digits, n, hnumeral, ⟨htext, hlt, hv⟩ | ⟨htext, hle, hv⟩⟩
    · exact ⟨n, ⟨digits, n, hnumeral, .inl ⟨htext, by omega, rfl⟩⟩,
        (ofSigned_eq_iff (by omega) (by omega)).mpr hv⟩
    · exact ⟨-n, ⟨digits, n, hnumeral, .inr ⟨htext, hle, rfl⟩⟩,
        (ofSigned_eq_iff (by omega) (by omega)).mpr hv⟩

/-! ### Reading back -/

/-- No decimal text starts with `0x`. -/
theorem not_prefixed_toDigits (n : Nat) : ¬ ∃ digits, Prefixed (Nat.toDigits 10 n) digits := by
  rintro ⟨digits, h⟩
  have hletter : ∀ c, Nat.toDigits 10 n = '0' :: c :: digits → c.isDigit = true := fun c h =>
    Integer.isDigit_toDigits c (by rw [h]; simp)
  rcases h with h | h
  · exact absurd (hletter 'x' h) (by decide)
  · exact absurd (hletter 'X' h) (by decide)

theorem neg_le_signed (v : Version) : -2 ^ 31 ≤ signed v := by
  have hv : v.toNat < 4294967296 := v.toNat_lt
  unfold signed
  split
  all_goals omega

theorem signed_lt (v : Version) : signed v < 2 ^ 31 := by
  have hv : v.toNat < 4294967296 := v.toNat_lt
  unfold signed
  split
  all_goals omega

/-- **The decimal form is read back**, with a sign where the highest bit is set. -/
theorem ofText_decimal (v : Version) : ofText (decimal v) = .ok v := by
  have hleast := neg_le_signed v
  have hmost := signed_lt v
  cases hsigned : signed v with
  | ofNat n =>
    rw [hsigned] at hleast hmost
    have htext : (decimal v).toList = Nat.toDigits 10 n := by
      rw [decimal, hsigned]
      exact String.toList_ofList
    have hcore : Text.trimBoth (decimal v).toList = Nat.toDigits 10 n := by
      rw [htext]
      exact Text.trimBoth_of_notBlank fun c hc =>
        Text.isBlank_of_isDigit (Integer.isDigit_toDigits c hc)
    rw [ofText_of_unprefixed hcore (not_prefixed_toDigits n)]
    exact ⟨_, n, Integer.numeral_toDigits n, .inl ⟨.inl rfl, Int.ofNat_lt.mp hmost, hsigned⟩⟩
  | negSucc n =>
    rw [hsigned] at hleast
    have htext : (decimal v).toList = '-' :: Nat.toDigits 10 (n + 1) := by
      rw [decimal, hsigned]
      show ("-" ++ String.ofList (Nat.toDigits 10 (n + 1))).toList = _
      rw [String.toList_append, String.toList_ofList, String.toList_ofList]
      rfl
    have hcore : Text.trimBoth (decimal v).toList = '-' :: Nat.toDigits 10 (n + 1) := by
      rw [htext]
      refine Text.trimBoth_of_notBlank fun c hc => ?_
      rcases List.mem_cons.mp hc with rfl | hc
      · rfl
      · exact Text.isBlank_of_isDigit (Integer.isDigit_toDigits c hc)
    have hunprefixed : ¬ ∃ digits, Prefixed ('-' :: Nat.toDigits 10 (n + 1)) digits := by
      rintro ⟨digits, h | h⟩
      · cases h
      · cases h
    rw [ofText_of_unprefixed hcore hunprefixed]
    exact ⟨_, n + 1, Integer.numeral_toDigits (n + 1), .inr ⟨rfl, by omega, hsigned⟩⟩

/-- **The hexadecimal form is read back.** -/
theorem ofText_word (v : Version) : ofText (Hex.word v) = .ok v := by
  have hlt : v.toNat < 4294967296 := v.toNat_lt
  have hcore : Text.trimBoth (Hex.word v).toList = '0' :: 'x' :: Hex.paddedDigits 8 v.toNat := by
    rw [Hex.toList_word]
    refine Text.trimBoth_of_notBlank fun c hc => ?_
    have hdigit : ∀ d < 16, Text.isBlank (Hex.digit d) = false := by decide
    simp only [List.mem_cons] at hc
    rcases hc with rfl | rfl | hc
    · rfl
    · rfl
    · obtain ⟨d, hd, rfl⟩ := Hex.exists_digit_of_mem_paddedDigits hc
      exact hdigit d hd
  have hread : Integer.readNat 16 (UInt32.size - 1) (Hex.paddedDigits 8 v.toNat) = .ok v.toNat :=
    Integer.readNat_paddedDigits hlt (Nat.le_of_lt_succ hlt)
  obtain ⟨numeral, hnumeral⟩ :=
    (Integer.readNat_eq_ok_iff (show 0 < 16 by decide) (Nat.le_refl 16)).mp hread
  rw [ofText_of_prefixed hcore (.inl rfl)]
  exact ⟨numeral, v.toNat, hnumeral.1, hnumeral.2.1, hlt, rfl⟩

/-- **Which texts are read as which version.**  White space around a text does not count.  What is
left is read, if it starts with `0x`, as a numeral of thirty-two bits, perhaps behind a plus sign,
and otherwise as a signed number of that width, perhaps behind either sign; it is read exactly if it
is such a numeral, and as the version that it spells.  Both forms in which a version is described
are read back as that version. -/
theorem texts_exact :
    (∀ text : String, ∃ core, (∀ core', Text.Trimmed text.toList core' ↔ core' = core) ∧
      (∀ digits, Prefixed core digits → ∀ v, ofText text = .ok v ↔ SpellsBits digits v) ∧
      ((¬ ∃ digits, Prefixed core digits) → ∀ v, ofText text = .ok v ↔ SpellsSigned core v)) ∧
    ∀ (v : Version) (layout : Layout),
      (∃ rest, CommandLine.describe v layout =
        "version:      " ++ decimal v ++ " (" ++ Hex.word v ++ ")\n" ++ rest) ∧
      ofText (decimal v) = .ok v ∧ ofText (Hex.word v) = .ok v := by
  refine ⟨fun text => ⟨Text.trimBoth text.toList, fun core' => Text.trimmed_iff, ?_, ?_⟩,
    fun v layout => ⟨?_, ofText_decimal v, ofText_word v⟩⟩
  · intro digits hprefixed v
    exact ofText_of_prefixed rfl hprefixed
  · intro hunprefixed v
    exact ofText_of_unprefixed rfl hunprefixed
  · unfold CommandLine.describe
    simp only [String.append_assoc, String.append_right_inj, exists_eq']

end MergedMining.Version
