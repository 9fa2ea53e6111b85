import MergedMining.Proofs.Toml.Spelling
import MergedMining.Toml.Reader

/-!
# Written TOML documents

Whatever the keys and values of a document are, the sections of its text are the ones it was written
from.  The tokens of each line are read as its entry, and those of each header as the start of a
section.

## Main definitions

* `Toml.Contains` — the sections that tokens are read as.

## Main results

* `Toml.value?_tokenOf` — a simple value is read back from its token.
* `Toml.sections?_write` — the sections of a written document are read back.
* `Toml.members_write` — what a reader of a document with one block meets.
* `Toml.word_natural`, `Toml.bits_word` — words are read back by the readers for them.
-/

namespace MergedMining.Toml

/-! ### Values -/

/-- Digits alone are a run. -/
theorem isSpaced_of_isDigit {cs : List Char} (hne : cs ≠ []) (h : ∀ c ∈ cs, c.isDigit = true) :
    isSpaced cs = true := by
  have hne_underscore : ∀ c, c.isDigit = true → c ≠ '_' := by
    rintro c hc rfl
    exact absurd hc (by decide)
  induction cs with
  | nil => exact absurd rfl hne
  | cons c cs ih =>
    obtain ⟨hc, hcs⟩ := List.forall_mem_cons.mp h
    unfold isSpaced
    split
    case h_1 heq => cases heq
    case h_2 heq => exact absurd (List.cons.inj heq).1 (hne_underscore c hc)
    case h_3 => rfl
    case h_4 heq =>
      obtain ⟨rfl, rfl⟩ := List.cons.inj heq
      exact absurd rfl (hne_underscore '_' (hcs _ (.head _)))
    case h_5 hnil _ heq =>
      obtain ⟨rfl, rfl⟩ := List.cons.inj heq
      exact ih hnil hcs

theorem hasNoLeadingZero_toDigits (n : Nat) : hasNoLeadingZero (Nat.toDigits 10 n) = true := by
  unfold hasNoLeadingZero
  split
  case h_1 heq => exact absurd heq Integer.toDigits_ne_zero_cons
  case h_2 => rfl

theorem scanRun?_toDigits (n : Nat) :
    scanRun? 10 true false (Nat.toDigits 10 n) = some (⟨false, Integer.digits n⟩, []) := by
  have hrun : ∀ c ∈ Nat.toDigits 10 n, isRunChar 10 c = true := by
    intro c hc
    rw [isRunChar, Hex.digitValue?_of_isDigit (Nat.le_refl 10) (Integer.isDigit_toDigits c hc)]
    exact Bool.or_true _
  have htake : (Nat.toDigits 10 n ++ []).takeWhile (isRunChar 10) = Nat.toDigits 10 n ++ [] :=
    List.takeWhile_append_of_pos hrun
  have hdrop : (Nat.toDigits 10 n ++ []).dropWhile (isRunChar 10) = [] :=
    List.dropWhile_append_of_pos hrun
  rw [List.append_nil] at htake hdrop
  have hspaced := isSpaced_of_isDigit Nat.toDigits_ne_nil (Integer.isDigit_toDigits (n := n))
  -- the sign that is looked for first is not there
  have hunsigned : ∀ text, Nat.toDigits 10 n ≠ '-' :: text := fun text heq =>
    Integer.toDigits_ne_cons (by decide) heq
  simp [scanRun?, hunsigned, htake, hdrop, hspaced, hasNoLeadingZero_toDigits, Integer.digits]

theorem integer?_toDigits {n : Nat} (h : n < 0x8000000000000000) :
    integer? 10 (Nat.toDigits 10 n) = some (.integer n) := by
  have hvalue : Run.value 10 ⟨false, Integer.digits n⟩ = n := by
    simp only [Run.value, Run.magnitude, Integer.foldl_digits, Bool.false_eq_true, if_false]
  have hscan : scanRun? 10 (10 == 10) (10 != 10) (Nat.toDigits 10 n) =
      some (⟨false, Integer.digits n⟩, []) := scanRun?_toDigits n
  rw [integer?, hscan]
  simp only [hvalue]
  rw [if_pos (by omega)]

/-- A word of digits starts no date. -/
theorem startsDate_of_isDigit {cs : List Char} (h : ∀ c ∈ cs, c.isDigit = true) :
    startsDate cs = false := by
  have hdash : '-' ∉ cs.tail := fun hmem =>
    Integer.not_mem_of_isDigit h (by decide) (List.mem_of_mem_tail hmem)
  have hT : 'T' ∉ cs := Integer.not_mem_of_isDigit h (by decide)
  have ht : 't' ∉ cs := Integer.not_mem_of_isDigit h (by decide)
  simp [startsDate, hdash, hT, ht]

theorem named?_toDigits (n : Nat) : named? (Nat.toDigits 10 n) = none := by
  have hstart : ∀ c rest, c.isDigit = false → Nat.toDigits 10 n ≠ c :: rest :=
    fun _ _ => Integer.toDigits_ne_cons
  rw [named?, if_neg (hstart _ _ (by decide)), if_neg (hstart _ _ (by decide)),
    if_neg (not_or.mpr ⟨hstart _ _ (by decide), hstart _ _ (by decide)⟩)]

/-- At the end of a line there is no fraction that digits go on with. -/
theorem number?_toDigits {n : Nat} (h : n < 0x8000000000000000) (tokens : List Token) :
    number? (Nat.toDigits 10 n) (.newline :: tokens) =
      some (.integer n, .newline :: tokens) := by
  have hdigits := Integer.isDigit_toDigits (n := n)
  have he : 'e' ∉ Nat.toDigits 10 n := Integer.not_mem_of_isDigit hdigits (by decide)
  have hE : 'E' ∉ Nat.toDigits 10 n := Integer.not_mem_of_isDigit hdigits (by decide)
  unfold number?
  split
  case h_1 heq => exact absurd heq Integer.toDigits_ne_zero_cons
  case h_2 heq => exact absurd heq Integer.toDigits_ne_zero_cons
  case h_3 heq => exact absurd heq Integer.toDigits_ne_zero_cons
  case h_4 => simp [he, hE, named?_toDigits, integer?_toDigits h]

theorem wordValue?_toDigits {n : Nat} (h : n < 0x8000000000000000) (tokens : List Token) :
    wordValue? (Nat.toDigits 10 n) (.newline :: tokens) =
      some (.integer n, .newline :: tokens) := by
  have hdigits := Integer.isDigit_toDigits (n := n)
  have hstart : ∀ c rest, c.isDigit = false → Nat.toDigits 10 n ≠ c :: rest :=
    fun _ _ => Integer.toDigits_ne_cons
  unfold wordValue?
  rw [if_neg (hstart _ _ (by decide)), if_neg (hstart _ _ (by decide)),
    if_neg (not_or.mpr ⟨hstart _ _ (by decide), hstart _ _ (by decide)⟩)]
  split
  case h_1 heq => exact absurd heq Nat.toDigits_ne_nil
  case h_2 c rest heq =>
    have hc : c.isDigit = true := hdigits c (by rw [heq]; exact .head _)
    have hsome : (Hex.digitValue? 10 c).isSome = true := by
      rw [Hex.digitValue?_of_isDigit (Nat.le_refl 10) hc]
      rfl
    have hdate := startsDate_of_isDigit hdigits
    simp only [if_pos (Or.inr hsome), numberOrDate?, hdate, Bool.false_eq_true, if_false,
      number?_toDigits h]

/-- **A value is read back** from its token. -/
theorem value?_tokenOf {value : Simple} (hfits : value.Fits) (tokens : List Token) :
    value? (tokenOf value :: .newline :: tokens) =
      some (.scalar (scalarOf value), .newline :: tokens) := by
  rw [value?, List.length_cons, Nat.mul_succ]
  cases value with
  | natural n => simp [tokenOf, scalarOf, valueWithin?, wordValue?_toDigits hfits]
  | truth b =>
    cases b with
    | false => rfl
    | true => rfl
  | text s => rfl

/-! ### Sections -/

/-- Read on from a section, the tokens give these sections, as soon as the lines suffice. -/
def Contains (current : Section) (tokens : List Token) (sections : List Section) : Prop :=
  ∀ fuel, tokens.length < fuel → sectionsWithin? fuel current tokens = some sections

theorem Contains.nil (current : Section) : Contains current [] [current] := by
  intro fuel hfuel
  cases fuel with
  | zero => cases hfuel
  | succ fuel => rfl

/-- **A line is read back** as its entry. -/
theorem Contains.line {line : Line} (hfits : line.value.Fits) {current : Section}
    {tokens : List Token} {sections : List Section}
    (h : Contains { current with entries := current.entries ++ [line.entry] } tokens sections) :
    Contains current (line.tokens ++ tokens) sections := by
  intro fuel hfuel
  simp only [Line.tokens, List.cons_append, List.nil_append, List.length_cons] at hfuel ⊢
  cases fuel with
  | zero => cases hfuel
  | succ fuel =>
    have hrest := h fuel (by omega)
    simp only [sectionsWithin?, dropSpace, scanAssignment?, scanKey?, keyPart?, dropBlank,
      value?_tokenOf hfits, putValue?, endLine?, Option.bind_eq_bind, Option.bind_some,
      Option.pure_def, String.ofList_toList]
    exact hrest

theorem Contains.lines {lines : List Line} (hfits : ∀ line ∈ lines, line.Fits)
    (current : Section) {tokens : List Token} {sections : List Section}
    (h : Contains { current with entries := current.entries ++ lines.map Line.entry } tokens
      sections) :
    Contains current (lines.flatMap Line.tokens ++ tokens) sections := by
  induction lines generalizing current with
  | nil =>
    rw [List.map_nil, List.append_nil] at h
    exact h
  | cons line lines ih =>
    rw [List.forall_mem_cons] at hfits
    rw [List.flatMap_cons, List.append_assoc]
    refine Contains.line hfits.1.2 (ih hfits.2 _ ?_)
    rw [List.map_cons, List.append_cons] at h
    exact h

/-- **A header is read back**, and starts a section. -/
theorem Contains.header {name : String} {current : Section} {tokens : List Token}
    {sections : List Section}
    (h : Contains ⟨[name], false, []⟩ tokens sections) :
    Contains current
      (.newline :: .openBracket :: .word name.toList :: .closeBracket :: .newline :: tokens)
      (current :: sections) := by
  intro fuel hfuel
  simp only [List.length_cons] at hfuel
  cases fuel with
  | zero => cases hfuel
  | succ fuel =>
    have hrest := h fuel (by omega)
    simp only [sectionsWithin?, dropSpace, header?, scanKey?, keyPart?, closeHeader?, dropBlank,
      endLine?, Option.bind_eq_bind, Option.bind_some, Option.pure_def, String.ofList_toList,
      hrest]

theorem Contains.blocks {blocks : List Block} (hfits : ∀ block ∈ blocks, block.Fits)
    (current : Section) :
    Contains current (blocks.flatMap Block.tokens) (current :: blocks.map Block.toSection) := by
  induction blocks generalizing current with
  | nil => exact Contains.nil current
  | cons block blocks ih =>
    rw [List.forall_mem_cons] at hfits
    have hlines := Contains.lines hfits.1.2 ⟨[block.name], false, []⟩
      (ih hfits.2 block.toSection)
    exact hlines.header

/-- **A written document is read back**: its sections are the lines without a name, and the blocks.
-/
theorem sections?_write {lines : List Line} {blocks : List Block} (hne : lines ≠ [])
    (hlines : ∀ line ∈ lines, line.Fits) (hblocks : ∀ block ∈ blocks, block.Fits) :
    sections? (String.ofList (write lines blocks)) =
      some (⟨[], false, lines.map Line.entry⟩ :: blocks.map Block.toSection) := by
  have hspells : Spells (write lines blocks) _ := (Spells.blocks hblocks).lines hlines
  have hmark : (write lines blocks).head? ≠ some '\ufeff' := by
    obtain ⟨line, rest, rfl⟩ := List.exists_cons_of_ne_nil hne
    obtain ⟨hname, -⟩ := hlines line (.head rest)
    obtain ⟨c, cs, hkey⟩ := List.exists_cons_of_ne_nil hname.1
    have hc : isWordChar c = true := hname.2 c (by rw [hkey]; exact .head cs)
    simp only [write, Line.chars, hkey, List.flatMap_cons, List.cons_append, List.head?_cons]
    rintro ⟨⟩
    exact absurd hc (by decide)
  have hcontains := Contains.lines hlines {} (Contains.blocks hblocks _)
  rw [sections?, tokens?_of_spells hspells hmark, Option.bind_eq_bind, Option.bind_some,
    hcontains _ (Nat.lt_succ_self _)]
  obtain ⟨line, rest, rfl⟩ := List.exists_cons_of_ne_nil hne
  rfl

/-! ### Readers -/

/-- A name that no section has yet comes behind all entries. -/
theorem changeGroup_members (name : String) (change : Option Group → Group) (entries : Entries) :
    changeGroup name change (Entries.members entries) =
      Entries.members entries ++ [.group name (change none)] := by
  induction entries with
  | nil => rfl
  | cons entry entries ih =>
    obtain ⟨key, value⟩ := entry
    exact congrArg (Member.entry key value :: ·) ih

/-- A document with one block has the entries of its lines and a table of those of the block. -/
theorem members_write (lines : List Line) (block : Block) :
    Document.members ⟨[⟨[], false, lines.map Line.entry⟩, block.toSection]⟩ =
      Entries.members (lines.map Line.entry) ++
        [.group block.name (.table true (Entries.members (block.lines.map Line.entry)))] :=
  changeGroup_members _ _ _

theorem unsigned_natural {bits n : Nat} (h : n < 2 ^ bits) :
    unsigned bits (.value (.scalar (.integer n))) = .ok n := by
  rw [unsigned, Int.toNat_natCast, if_pos ⟨Int.natCast_nonneg n, h⟩]

theorem word_natural (w : UInt32) : word (.value (.scalar (.integer w.toNat))) = .ok w := by
  rw [word, unsigned_natural w.toNat_lt]
  exact congrArg Except.ok UInt32.ofNat_toNat

theorem bits_word (w : UInt32) : bits (.value (.scalar (.text (Hex.word w)))) = .ok w := by
  rw [bits, Decoding.bitsOfText_word]
  rfl

end MergedMining.Toml
