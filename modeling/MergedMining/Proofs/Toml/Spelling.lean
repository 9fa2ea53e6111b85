import MergedMining.Proofs.Text.Spelling
import MergedMining.Toml.Document

/-!
# Spelled TOML documents

A writer spells a document in lines: a key, a sign and a simple value on each, and the name of a
section between brackets behind an empty line.  Here the characters of such lines are cut into
tokens, and they are the tokens of the lines.

## Main definitions

* `Toml.Line`, `Toml.Block`, `Toml.write` — a document as it is written.
* `Toml.Spells` — the tokens of a text.

## Main results

* `Toml.Spells.line`, `Toml.Spells.blocks` — lines and blocks are cut into their tokens.
* `Toml.tokens?_of_spells` — the tokens are those of the text.
-/

namespace MergedMining.Toml

/-! ### What is written -/

/-- The token of a value. -/
def tokenOf : Simple → Token
  | .natural n => .word (Nat.toDigits 10 n)
  | .truth b => .word (Simple.truthWord b)
  | .text s => .string s false

/-- The value as it is read. -/
def scalarOf : Simple → Scalar
  | .natural n => .integer n
  | .truth b => .boolean b
  | .text s => .text s

/-- A name is a word that is not empty. -/
def IsName (name : List Char) : Prop := name ≠ [] ∧ ∀ c ∈ name, isWordChar c = true

instance (name : List Char) : Decidable (IsName name) :=
  @instDecidableAnd _ _ _ (List.decidableBAll (isWordChar · = true) name)

/-- A line that gives a value to a key. -/
structure Line where
  /-- The key. -/
  key : String
  /-- The value. -/
  value : Simple

namespace Line

variable (line : Line)

/-- The characters of a line. -/
def chars : List Char := line.key.toList ++ ' ' :: '=' :: ' ' :: line.value.chars ++ ['\n']

/-- The tokens of a line. -/
def tokens : List Token :=
  [.word line.key.toList, .blank [' '], .equals, .blank [' '], (tokenOf line.value), .newline]

/-- The entry of a line. -/
def entry : String × Value := (line.key, .scalar (scalarOf line.value))

/-- A line can be written: its key is a name, and its value fits. -/
def Fits : Prop := IsName line.key.toList ∧ line.value.Fits

end Line

/-- Lines under a name. -/
structure Block where
  /-- The name. -/
  name : String
  /-- The lines. -/
  lines : List Line

namespace Block

variable (block : Block)

/-- The characters of a block, behind an empty line. -/
def chars : List Char :=
  '\n' :: '[' :: block.name.toList ++ ']' :: '\n' :: block.lines.flatMap Line.chars

/-- The tokens of a block. -/
def tokens : List Token :=
  .newline :: .openBracket :: .word block.name.toList :: .closeBracket :: .newline ::
    block.lines.flatMap Line.tokens

/-- The section that a block is. -/
def toSection : Section := ⟨[block.name], false, block.lines.map Line.entry⟩

/-- A block can be written: its name is one, and its lines can be. -/
def Fits : Prop := IsName block.name.toList ∧ ∀ line ∈ block.lines, line.Fits

end Block

/-- A document: lines without a name, then blocks. -/
def write (lines : List Line) (blocks : List Block) : List Char :=
  lines.flatMap Line.chars ++ blocks.flatMap Block.chars

/-! ### Characters and tokens -/

/-- A text is cut into these tokens, as soon as the steps suffice, and holds no carriage return. -/
def Spells (text : List Char) (tokens : List Token) : Prop :=
  '\r' ∉ text ∧ ∀ fuel, text.length ≤ fuel → tokensWithin? fuel text = some tokens

theorem Spells.nil : Spells [] [] := ⟨List.not_mem_nil, fun _ _ => by rw [tokensWithin?]⟩

/-- One token in front. -/
theorem Spells.cons (front : List Char) {rest : List Char} {token : Token} {tokens : List Token}
    (hscan : scanToken? (front ++ rest) = some (token, rest)) (hne : front ≠ [])
    (hreturn : '\r' ∉ front) (h : Spells rest tokens) :
    Spells (front ++ rest) (token :: tokens) := by
  obtain ⟨c, cs, rfl⟩ := List.exists_cons_of_ne_nil hne
  refine ⟨by simpa [h.1] using hreturn, fun fuel hfuel => ?_⟩
  simp only [List.cons_append, List.length_cons, List.length_append] at hfuel
  cases fuel with
  | zero => omega
  | succ fuel =>
    rw [List.cons_append] at hscan ⊢
    simp only [tokensWithin?, hscan, h.2 fuel (by omega), Option.bind_eq_bind, Option.bind_some,
      Option.pure_def]

/-- No word goes on here. -/
def EndsWord (rest : List Char) : Prop := ∀ c ∈ rest.head?, isWordChar c = false

theorem isBlank_of_isWordChar {c : Char} (h : isWordChar c = true) : isBlank c = false := by
  refine Bool.eq_false_iff.mpr fun hblank => ?_
  rw [isBlank, Bool.or_eq_true, beq_iff_eq, beq_iff_eq] at hblank
  rcases hblank with rfl | rfl
  · exact absurd h (by decide)
  · exact absurd h (by decide)

theorem scanToken?_of_isWordChar {c : Char} {rest : List Char} (h : isWordChar c = true) :
    scanToken? (c :: rest) =
      some (.word (c :: rest.takeWhile isWordChar), rest.dropWhile isWordChar) := by
  have hblank := isBlank_of_isWordChar h
  unfold scanToken?
  split
  case h_15 heq =>
    obtain ⟨rfl, rfl⟩ := List.cons.inj heq
    rw [if_neg (by simp [hblank]), if_pos h]
  -- none of the other tokens starts with a character of a word
  all_goals first
    | exact absurd ‹_ = _› (List.cons_ne_nil _ _)
    | (obtain ⟨rfl, -⟩ := List.cons.inj ‹_ = _›; exact absurd h (by decide))

theorem Spells.word {word rest : List Char} {tokens : List Token} (hword : IsName word)
    (hend : EndsWord rest) (h : Spells rest tokens) :
    Spells (word ++ rest) (.word word :: tokens) := by
  have htake : rest.takeWhile isWordChar = [] := by
    cases rest with
    | nil => rfl
    | cons c rest => rw [List.takeWhile_cons, hend c rfl]; rfl
  have hdrop : rest.dropWhile isWordChar = rest := by
    cases rest with
    | nil => rfl
    | cons c rest => rw [List.dropWhile_cons, hend c rfl]; rfl
  have hreturn : '\r' ∉ word := fun hmem => absurd (hword.2 _ hmem) (by decide)
  refine Spells.cons _ ?_ hword.1 hreturn h
  obtain ⟨c, cs, rfl⟩ := List.exists_cons_of_ne_nil hword.1
  have hall := List.forall_mem_cons.mp hword.2
  rw [List.cons_append, scanToken?_of_isWordChar hall.1, List.takeWhile_append_of_pos hall.2,
    List.dropWhile_append_of_pos hall.2, htake, hdrop, List.append_nil]

/-- A single blank in front of something else. -/
theorem Spells.blank {rest : List Char} {tokens : List Token}
    (hend : ∀ c ∈ rest.head?, isBlank c = false) (h : Spells rest tokens) :
    Spells (' ' :: rest) (.blank [' '] :: tokens) := by
  refine Spells.cons [' '] ?_ (List.cons_ne_nil _ _) (by decide) h
  cases rest with
  | nil => rfl
  | cons c rest =>
    have hc := hend c rfl
    simp [scanToken?, isBlank, List.takeWhile_cons, List.dropWhile_cons] at hc ⊢
    simp [hc]

/-- A token of one character in front. -/
theorem Spells.mark {c : Char} {token : Token} {rest : List Char} {tokens : List Token}
    (hscan : scanToken? (c :: rest) = some (token, rest)) (hc : c ≠ '\r') (h : Spells rest tokens) :
    Spells (c :: rest) (token :: tokens) :=
  Spells.cons [c] hscan (List.cons_ne_nil _ _) (by simpa using hc.symm) h

theorem scanLine_cons (quote : Char) (escapes : Bool) (c : Char) (rest : List Char) :
    scanLine quote escapes (c :: rest) =
      if c = quote then some ([], rest)
      else if c = '\n' then none
      else if c = '\\' ∧ escapes then
        match rest with
        | [] => none
        | e :: rest =>
            (scanLine quote escapes rest).map fun (pieces, rest) => (.escape e :: pieces, rest)
      else (scanLine quote escapes rest).map fun (pieces, rest) => (.char c :: pieces, rest) := by
  cases rest with
  | nil => rfl
  | cons e rest => rfl

theorem scanLine_eq {s rest : List Char} (h : NeedsNoEscape s) :
    scanLine '"' true (s ++ '"' :: rest) = some (s.map .char, rest) := by
  induction s with
  | nil => rw [List.nil_append, scanLine_cons, if_pos rfl]; rfl
  | cons c s ih =>
    obtain ⟨hc, hs⟩ := List.forall_mem_cons.mp h
    rw [List.cons_append, scanLine_cons, if_neg hc.ne_quote, if_neg (hc.ne_of_lt (by decide)),
      if_neg (fun hslash => hc.ne_backslash hslash.1), ih hs]
    rfl

theorem joinPieces?_eq {s : List Char} (h : NeedsNoEscape s) :
    joinPieces? false .nothing (s.map .char) = some s := by
  induction s with
  | nil => rfl
  | cons c s ih =>
    obtain ⟨hc, hs⟩ := List.forall_mem_cons.mp h
    have hchar : isStringChar c = true := by
      simp [isStringChar, isCommentChar, hc.le_toNat, hc.ne_delete]
    simp [joinPieces?, hchar, ih hs]

/-- A text between quotes, with the end of the line behind it. -/
theorem Spells.text {s : String} {rest : List Char} {tokens : List Token}
    (hs : NeedsNoEscape s.toList) (h : Spells ('\n' :: rest) tokens) :
    Spells ('"' :: s.toList ++ '"' :: '\n' :: rest) (.string s false :: tokens) := by
  have hsplit : '"' :: s.toList ++ '"' :: '\n' :: rest =
      ('"' :: s.toList ++ ['"']) ++ '\n' :: rest := by simp
  have hblock : ['"', '"'].isPrefixOf (s.toList ++ '"' :: '\n' :: rest) = false := by
    cases hchars : s.toList with
    | nil => rfl
    | cons c cs =>
      have hc := hs c (by rw [hchars]; exact .head _)
      simp [List.isPrefixOf, hc.ne_quote.symm]
  have hreturn : '\r' ∉ '"' :: s.toList ++ ['"'] := by
    simp only [List.cons_append, List.mem_cons, List.mem_append, List.not_mem_nil, or_false]
    rintro (h | h | h)
    · exact absurd h (by decide)
    · exact (hs _ h).ne_of_lt (by decide) rfl
    · exact absurd h (by decide)
  rw [hsplit]
  refine Spells.cons _ ?_ (by simp) hreturn h
  rw [← hsplit, List.cons_append, scanToken?, scanString?, hblock]
  simp [scanLine_eq hs, joinPieces?_eq hs]

theorem isName_toDigits (n : Nat) : IsName (Nat.toDigits 10 n) := by
  refine ⟨Nat.toDigits_ne_nil, fun c hc => ?_⟩
  rw [isWordChar, Hex.digitValue?_of_isDigit (by decide) (Integer.isDigit_toDigits c hc)]
  rfl

/-- A value at the end of a line is one token. -/
theorem Spells.value {value : Simple} (hfits : value.Fits) {rest : List Char} {tokens : List Token}
    (h : Spells ('\n' :: rest) tokens) :
    Spells (value.chars ++ '\n' :: rest) (tokenOf value :: tokens) := by
  have hend : EndsWord ('\n' :: rest) := by rintro c ⟨⟩; decide
  cases value with
  | natural n => exact h.word (isName_toDigits n) hend
  | truth b =>
    have hword : ∀ b, IsName (Simple.truthWord b) := by decide
    exact h.word (hword b) hend
  | text s =>
    rw [Simple.chars, List.append_assoc]
    exact h.text hfits

/-- No value starts with a blank. -/
theorem isBlank_head_chars {value : Simple} {rest : List Char} :
    ∀ c ∈ (value.chars ++ rest).head?, isBlank c = false := by
  intro c hc
  cases value with
  | natural n =>
    obtain ⟨d, ds, hdigits⟩ := List.exists_cons_of_ne_nil (isName_toDigits n).1
    rw [Simple.chars, hdigits] at hc
    obtain rfl : d = c := Option.some.inj hc
    exact isBlank_of_isWordChar ((isName_toDigits n).2 d (by rw [hdigits]; exact .head _))
  | truth b =>
    cases b with
    | false => cases hc; decide
    | true => cases hc; decide
  | text s => cases hc; decide

/-- **A line is cut into its tokens.** -/
theorem Spells.line {line : Line} (hfits : line.Fits) {rest : List Char} {tokens : List Token}
    (h : Spells rest tokens) : Spells (line.chars ++ rest) (line.tokens ++ tokens) := by
  have hnewline : Spells ('\n' :: rest) (.newline :: tokens) := h.mark rfl (by decide)
  have hvalue := hnewline.value hfits.2
  have hblank := hvalue.blank isBlank_head_chars
  have hequals : Spells ('=' :: ' ' :: (line.value.chars ++ '\n' :: rest)) _ :=
    hblank.mark rfl (by decide)
  have hbefore := hequals.blank (by rintro c ⟨⟩; decide)
  have hkey := hbefore.word hfits.1 (by rintro c ⟨⟩; decide)
  simpa [Line.chars, Line.tokens] using hkey

theorem Spells.lines {lines : List Line} (hfits : ∀ line ∈ lines, line.Fits) {rest : List Char}
    {tokens : List Token} (h : Spells rest tokens) :
    Spells (lines.flatMap Line.chars ++ rest) (lines.flatMap Line.tokens ++ tokens) := by
  induction lines with
  | nil => exact h
  | cons line lines ih =>
    rw [List.forall_mem_cons] at hfits
    rw [List.flatMap_cons, List.flatMap_cons, List.append_assoc, List.append_assoc]
    exact (ih hfits.2).line hfits.1

theorem Spells.blocks {blocks : List Block} (hfits : ∀ block ∈ blocks, block.Fits) :
    Spells (blocks.flatMap Block.chars) (blocks.flatMap Block.tokens) := by
  induction blocks with
  | nil => exact Spells.nil
  | cons block blocks ih =>
    rw [List.forall_mem_cons] at hfits
    have hlines := (ih hfits.2).lines hfits.1.2
    have hnewline := hlines.mark (c := '\n') rfl (by decide)
    have hclose := hnewline.mark (c := ']') rfl (by decide)
    have hname := hclose.word hfits.1.1 (by rintro c ⟨⟩; decide)
    have hopen := hname.mark (c := '[') rfl (by decide)
    have hempty := hopen.mark (c := '\n') rfl (by decide)
    simpa [Block.chars, Block.tokens] using hempty

theorem foldLineEnds_eq {text : List Char} (h : '\r' ∉ text) : foldLineEnds text = text := by
  induction text with
  | nil => rfl
  | cons c text ih =>
    rw [List.mem_cons, not_or] at h
    unfold foldLineEnds
    split
    case h_1 heq => exact absurd (List.cons.inj heq).1.symm h.1
    case h_2 heq =>
      obtain ⟨rfl, rfl⟩ := List.cons.inj heq
      rw [ih h.2]
    case h_3 heq => cases heq

theorem tokens?_of_spells {text : List Char} {tokens : List Token} (h : Spells text tokens)
    (hmark : text.head? ≠ some '\ufeff') : tokens? (String.ofList text) = some tokens := by
  rw [tokens?, String.toList_ofList]
  split
  case h_1 rest => exact absurd rfl hmark
  case h_2 => rw [foldLineEnds_eq h.1, h.2 _ (Nat.le_refl _)]

end MergedMining.Toml
