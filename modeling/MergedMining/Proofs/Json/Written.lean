import MergedMining.Json.Reader
import MergedMining.Proofs.Text.Spelling

/-!
# Written JSON values

A writer spells an object without any blanks: a brace, the members with commas between them, and a
brace.  Spellings are put together as values are: if the members' values are read back, so is the
object.

## Main definitions

* `Json.Spells` — the tokens of a text.
* `Json.Denotes` — a spelling is read as a value, whatever stands around it.
* `Json.Entry`, `Json.objectChars` — the members of an object, and its spelling.

## Main results

* `Json.denotes_simple`, `Json.denotes_object` — simple values and objects are read back.
* `Json.Denotes.ofText` — a text that is a spelling of a value is read as that value.
* `Json.word_natural`, `Json.bits_word` — words are read back by the readers for them.
-/

namespace MergedMining.Json

/-! ### Characters and tokens -/

/-- A text is cut into these tokens, as soon as the steps suffice. -/
def Spells (text : List Char) (tokens : List Token) : Prop :=
  ∀ fuel, text.length ≤ fuel → tokensWithin fuel text = tokens

theorem Spells.nil : Spells [] [] := by
  intro fuel _
  cases fuel with
  | zero => rfl
  | succ fuel => rfl

/-- One token in front. -/
theorem Spells.cons {c : Char} (front : List Char) {rest : List Char} {token : Token}
    {tokens : List Token} (hblank : isBlank c = false)
    (hscan : scanToken (c :: front ++ rest) = (token, rest)) (h : Spells rest tokens) :
    Spells (c :: front ++ rest) (token :: tokens) := by
  intro fuel hfuel
  simp only [List.cons_append, List.length_cons, List.length_append] at hfuel hscan ⊢
  cases fuel with
  | zero => omega
  | succ fuel =>
    simp only [tokensWithin, hblank, Bool.false_eq_true, if_false, hscan, h fuel (by omega)]

/-- A token of one character in front. -/
theorem Spells.mark {c : Char} {token : Token} {rest : List Char} {tokens : List Token}
    (hblank : isBlank c = false) (hscan : scanToken (c :: rest) = (token, rest))
    (h : Spells rest tokens) : Spells (c :: rest) (token :: tokens) :=
  Spells.cons [] hblank hscan h

theorem scanPieces_eq {s rest : List Char} (h : NeedsNoEscape s) :
    scanPieces (s ++ '"' :: rest) = some (s.map .char, rest) := by
  induction s with
  | nil => rfl
  | cons c s ih =>
    obtain ⟨hc, hs⟩ := List.forall_mem_cons.mp h
    have hplain : ¬ (c = '\\' ∨ c.toNat < 0x20) := by
      rintro (hslash | hcontrol)
      · exact hc.ne_backslash hslash
      · exact absurd hc.le_toNat (Nat.not_le_of_lt hcontrol)
    rw [List.cons_append]
    unfold scanPieces
    split
    case h_1 heq => cases heq
    case h_2 heq => exact absurd (List.cons.inj heq).1 hc.ne_quote
    case h_3 heq => exact absurd (List.cons.inj heq).1 hc.ne_backslash
    case h_4 heq => exact absurd (List.cons.inj heq).1 hc.ne_backslash
    case h_5 heq =>
      obtain ⟨rfl, rfl⟩ := List.cons.inj heq
      rw [if_neg hplain, ih hs]
      rfl

theorem joinPieces?_map_char (s : List Char) : joinPieces? (s.map .char) = some s := by
  induction s with
  | nil => rfl
  | cons c s ih => rw [List.map_cons, joinPieces?, ih]; rfl

/-- A text between quotes. -/
theorem Spells.text {s : String} {rest : List Char} {tokens : List Token}
    (hs : NeedsNoEscape s.toList) (h : Spells rest tokens) :
    Spells ('"' :: s.toList ++ '"' :: rest) (.string (some s) :: tokens) := by
  have hscan : scanToken ('"' :: s.toList ++ '"' :: rest) = (.string (some s), rest) := by
    rw [List.cons_append, scanToken, scanString, scanPieces_eq hs]
    simp only [joinPieces?_map_char, Option.map_some, String.ofList_toList]
  have hsplit : '"' :: s.toList ++ '"' :: rest = '"' :: (s.toList ++ ['"']) ++ rest := by simp
  rw [hsplit] at hscan ⊢
  exact Spells.cons _ (by decide) hscan h

/-- Behind a value there is nothing, a comma or a brace, so that no number goes on. -/
def EndsValue (rest : List Char) : Prop := ∀ c ∈ rest.head?, c = ',' ∨ c = '\x7d'

theorem scanDigits_eq {cs rest : List Char} (h : ∀ c ∈ cs, c.isDigit = true)
    (hend : EndsValue rest) :
    scanDigits (cs ++ rest) = (cs.filterMap (Hex.digitValue? 10), rest) := by
  induction cs with
  | nil =>
    cases rest with
    | nil => rfl
    | cons c rest =>
      have hc : Hex.digitValue? 10 c = none := by
        rcases hend c rfl with rfl | rfl
        · rfl
        · rfl
      rw [List.nil_append, scanDigits, hc]
      rfl
  | cons c cs ih =>
    obtain ⟨hc, hcs⟩ := List.forall_mem_cons.mp h
    rw [List.cons_append, scanDigits, Hex.digitValue?_of_isDigit (Nat.le_refl 10) hc, ih hcs,
      List.filterMap_cons, Hex.digitValue?_of_isDigit (Nat.le_refl 10) hc]

theorem scanFraction?_eq {rest : List Char} (hend : EndsValue rest) :
    Numeral.scanFraction? rest = some ([], rest) := by
  cases rest with
  | nil => rfl
  | cons c rest =>
    rcases hend c rfl with rfl | rfl
    · rfl
    · rfl

theorem scanExponent?_eq {rest : List Char} (hend : EndsValue rest) :
    Numeral.scanExponent? rest = some (none, rest) := by
  cases rest with
  | nil => rfl
  | cons c rest =>
    rcases hend c rfl with rfl | rfl
    · rfl
    · rfl

/-- The digits of a number, with no sign, point or exponent. -/
def numeralOf (n : Nat) : Numeral := ⟨false, Integer.digits n, [], none⟩

theorem scan?_toDigits (n : Nat) {rest : List Char} (hend : EndsValue rest) :
    Numeral.scan? (Nat.toDigits 10 n ++ rest) = some (numeralOf n, rest) := by
  have hdigits : scanDigits (Nat.toDigits 10 n ++ rest) = (Integer.digits n, rest) :=
    scanDigits_eq Integer.isDigit_toDigits hend
  -- the sign that is looked for first is not there
  have hunsigned : ∀ text, Nat.toDigits 10 n ++ rest ≠ '-' :: text := by
    intro text heq
    obtain ⟨c, cs, hcons⟩ := List.exists_cons_of_ne_nil (Nat.toDigits_ne_nil (n := n) (b := 10))
    rw [hcons, List.cons_append, List.cons.injEq] at heq
    exact Integer.toDigits_ne_cons (by decide) (heq.1 ▸ hcons)
  simp only [Numeral.scan?, hdigits]
  split
  case h_1 heq => exact absurd heq (Integer.digits_ne_nil n)
  case h_2 heq => exact absurd heq Integer.digits_ne_zero_cons
  case h_3 =>
    simp only [scanFraction?_eq hend, scanExponent?_eq hend, Option.bind_eq_bind,
      Option.bind_some, Option.pure_def, numeralOf]

theorem Spells.natural (n : Nat) {rest : List Char} {tokens : List Token} (hend : EndsValue rest)
    (h : Spells rest tokens) :
    Spells (Nat.toDigits 10 n ++ rest) (.number (numeralOf n) :: tokens) := by
  have hscan := scan?_toDigits n hend
  obtain ⟨c, cs, hcons⟩ := List.exists_cons_of_ne_nil (Nat.toDigits_ne_nil (n := n) (b := 10))
  have hc : c.isDigit = true := Integer.isDigit_toDigits c (by rw [hcons]; exact .head _)
  have hne : ∀ d, d.isDigit = false → c ≠ d := by
    rintro d hd rfl
    rw [hc] at hd
    cases hd
  have hblank : isBlank c = false := by
    simp [isBlank, hne ' ' (by decide), hne '\n' (by decide), hne '\t' (by decide),
      hne '\r' (by decide)]
  rw [hcons] at hscan ⊢
  refine Spells.cons _ hblank ?_ h
  rw [List.cons_append] at hscan ⊢
  unfold scanToken
  split
  case h_11 => rw [hscan]
  -- no other token starts with a digit
  all_goals exact absurd (List.cons.inj ‹_ = _›).1 (hne _ (by decide))

/-! ### Values of numbers -/

theorem le_foldl_digits (n : Nat) (ds : List Nat) :
    n ≤ ds.foldl (fun m d => 10 * m + d) n := by
  induction ds generalizing n with
  | nil => exact Nat.le_refl n
  | cons d ds ih => exact Nat.le_trans (by omega) (ih (10 * n + d))

/-- All digits are taken if the number they spell fits. -/
theorem gather_eq {ds : List Nat} {n taken : Nat}
    (h : ds.foldl (fun m d => 10 * m + d) n < UInt64.size) :
    Numeral.gather n taken ds = (ds.foldl (fun m d => 10 * m + d) n, taken + ds.length) := by
  induction ds generalizing n taken with
  | nil => rfl
  | cons d ds ih =>
    have hle := le_foldl_digits (10 * n + d) ds
    rw [List.foldl_cons] at h
    rw [Numeral.gather, if_pos (Nat.lt_of_le_of_lt hle h), ih h, List.foldl_cons,
      List.length_cons, Nat.add_assoc, Nat.add_comm 1]

theorem value?_numeralOf {n : Nat} (h : n < UInt64.size) :
    (numeralOf n).value? = some (.integer n) := by
  have hgather : Numeral.gather 0 0 (Integer.digits n) = (n, (Integer.digits n).length) := by
    rw [gather_eq (by rwa [Integer.foldl_digits]), Integer.foldl_digits, Nat.zero_add]
  simp [Numeral.value?, numeralOf, hgather]

/-! ### Values -/

/-- What is behind a value goes on with what is still open. -/
def finish (node : Node) (frames : List Frame) (tokens : List Token) : Document :=
  match frames with
  | [] => ⟨node, tokens.isEmpty⟩
  | _ => read .separator (place node frames) tokens

/-- A spelling is cut into tokens that are read as a value, whatever stands around it. -/
def Denotes (chars : List Char) (node : Node) : Prop :=
  ∃ tokens, (∀ rest others, EndsValue rest → Spells rest others →
      Spells (chars ++ rest) (tokens ++ others)) ∧
    ∀ frames others, read .value frames (tokens ++ others) = finish node frames others

/-- The value as it is read. -/
def nodeOf : Simple → Node
  | .natural n => .number (numeralOf n)
  | .truth b => .boolean b
  | .text s => .string (some s)

/-- **A simple value is read back.** -/
theorem denotes_simple {value : Simple} (hfits : value.Fits) :
    Denotes value.chars (nodeOf value) := by
  cases value with
  | natural n =>
    exact ⟨[.number (numeralOf n)], fun rest others hend h => h.natural n hend,
      fun frames others => rfl⟩
  | truth b =>
    refine ⟨[.boolean b], fun rest others _ h => ?_, fun frames others => rfl⟩
    cases b with
    | false => exact Spells.cons ['a', 'l', 's', 'e'] (by decide) rfl h
    | true => exact Spells.cons ['r', 'u', 'e'] (by decide) rfl h
  | text s =>
    refine ⟨[.string (some s)], fun rest others _ h => ?_, fun frames others => rfl⟩
    rw [Simple.chars, List.append_assoc]
    exact h.text hfits

/-! ### Objects -/

/-- A member of an object: its key, and a spelling of its value. -/
structure Entry where
  /-- The key. -/
  key : String
  /-- The spelling of the value. -/
  chars : List Char
  /-- The value. -/
  node : Node

namespace Entry

variable (entry : Entry)

/-- The spelling of a member. -/
def spelling : List Char := '"' :: entry.key.toList ++ '"' :: ':' :: entry.chars

/-- The member as it is read. -/
def member : Option String × Node := (some entry.key, entry.node)

/-- The key needs no escapes, and the value is read back. -/
def Fits : Prop := NeedsNoEscape entry.key.toList ∧ Denotes entry.chars entry.node

/-- A member with a simple value. -/
def simple (key : String) (value : Simple) : Entry := ⟨key, value.chars, nodeOf value⟩

theorem fits_simple {key : String} {value : Simple}
    (hkey : NeedsNoEscape key.toList) (hvalue : value.Fits) : (simple key value).Fits :=
  ⟨hkey, denotes_simple hvalue⟩

end Entry

/-- The spelling of an object with at least one member. -/
def objectChars (entry : Entry) (entries : List Entry) : List Char :=
  '\x7b' :: entry.spelling ++ entries.flatMap (fun entry => ',' :: entry.spelling) ++ ['\x7d']

theorem endsValue_entries (entries : List Entry) (rest : List Char) :
    EndsValue (entries.flatMap (fun entry => ',' :: entry.spelling) ++ '\x7d' :: rest) := by
  cases entries with
  | nil => rintro c ⟨⟩; exact Or.inr rfl
  | cons entry entries => rintro c ⟨⟩; exact Or.inl rfl

/-- A member with a key in front: between the members of an object it is added to them. -/
theorem exists_entry_tokens {entry : Entry} (hfits : entry.Fits) :
    ∃ tokens, (∀ rest others, EndsValue rest → Spells rest others →
        Spells (entry.spelling ++ rest) (tokens ++ others)) ∧
      ∀ expect, expect = .key ∨ expect = .keyOrEnd → ∀ members frames others,
        read expect (.members members :: frames) (tokens ++ others) =
          read .separator (.members (entry.member :: members) :: frames) others := by
  obtain ⟨tokens, hspells, hread⟩ := hfits.2
  refine ⟨.string (some entry.key) :: .colon :: tokens, fun rest others hend h => ?_,
    fun expect hexpect members frames others => ?_⟩
  · have hcolon : Spells (':' :: (entry.chars ++ rest)) _ :=
      (hspells rest others hend h).mark (by decide) rfl
    have hkey := hcolon.text hfits.1
    simpa [Entry.spelling] using hkey
  · have hvalue := hread (.value members (some entry.key) :: frames) others
    rcases hexpect with rfl | rfl
    · exact hvalue
    · exact hvalue

/-- The members behind the first one, each behind a comma, and the end of the object. -/
theorem exists_entries_tokens {entries : List Entry} (hfits : ∀ entry ∈ entries, entry.Fits) :
    ∃ tokens, (∀ rest others, EndsValue rest → Spells rest others →
        Spells (entries.flatMap (fun entry => ',' :: entry.spelling) ++ '\x7d' :: rest)
          (tokens ++ .closeObject :: others)) ∧
      ∀ members frames others,
        read .separator (.members members :: frames) (tokens ++ .closeObject :: others) =
          finish (.object (members.reverse ++ entries.map Entry.member) .closed) frames others := by
  induction entries with
  | nil =>
    refine ⟨[], fun rest others _ h => h.mark (by decide) rfl, fun members frames others => ?_⟩
    rw [List.map_nil, List.append_nil]
    rfl
  | cons entry entries ih =>
    rw [List.forall_mem_cons] at hfits
    obtain ⟨first, hfirst, hreadFirst⟩ := exists_entry_tokens hfits.1
    obtain ⟨others, hothers, hreadOthers⟩ := ih hfits.2
    refine ⟨.comma :: first ++ others, fun rest behind hend h => ?_,
      fun members frames behind => ?_⟩
    · have hrest := hothers rest behind hend h
      have hends := endsValue_entries entries rest
      have hcomma : Spells (',' :: _) _ := (hfirst _ _ hends hrest).mark (by decide) rfl
      simpa [List.flatMap_cons, List.append_assoc] using hcomma
    · have hmember := hreadFirst .key (Or.inl rfl) members frames
        (others ++ .closeObject :: behind)
      rw [hreadOthers, List.reverse_cons, List.append_assoc] at hmember
      rw [List.append_assoc, List.cons_append, List.map_cons]
      exact hmember

/-- **An object is read back** if the values of its members are. -/
theorem denotes_object {entry : Entry} {entries : List Entry} (hfits : entry.Fits)
    (hall : ∀ entry ∈ entries, entry.Fits) :
    Denotes (objectChars entry entries)
      (.object ((entry :: entries).map Entry.member) .closed) := by
  obtain ⟨first, hfirst, hreadFirst⟩ := exists_entry_tokens hfits
  obtain ⟨tokens, htokens, hread⟩ := exists_entries_tokens hall
  refine ⟨.openObject :: first ++ tokens ++ [.closeObject], fun rest others hend h => ?_,
    fun frames others => ?_⟩
  · have hrest := htokens rest others hend h
    have hends := endsValue_entries entries rest
    have hopen : Spells ('\x7b' :: _) _ := (hfirst _ _ hends hrest).mark (by decide) rfl
    simpa [objectChars, List.append_assoc] using hopen
  · have hmember := hreadFirst .keyOrEnd (Or.inr rfl) [] frames (tokens ++ .closeObject :: others)
    rw [hread] at hmember
    simp only [List.cons_append, List.append_assoc, List.nil_append]
    exact hmember

/-! ### Texts -/

/-- A text that is the spelling of a value holds that value, and nothing else. -/
theorem Denotes.ofText {chars : List Char} {node : Node} (h : Denotes chars node) :
    Document.ofText (String.ofList chars) = ⟨node, true⟩ := by
  obtain ⟨ts, hspells, hread⟩ := h
  have htokens := hspells [] [] (by rintro c ⟨⟩) Spells.nil
  rw [List.append_nil, List.append_nil] at htokens
  have hroot := hread [] []
  rw [List.append_nil] at hroot
  rw [Document.ofText, Document.ofTokens, tokens, String.toList_ofList, String.length_ofList,
    htokens _ (Nat.le_refl _), hroot]
  rfl

/-! ### Readers -/

theorem unsigned_natural {bits n : Nat} (hbits : n < 2 ^ bits) (hword : n < UInt64.size) :
    unsigned bits (.number (numeralOf n)) = .ok n := by
  simp only [unsigned, value?_numeralOf hword, Int.toNat_natCast]
  rw [if_pos ⟨Int.natCast_nonneg n, hbits⟩]

theorem word_natural (w : UInt32) : word (.number (numeralOf w.toNat)) = .ok w := by
  have hlt : w.toNat < 4294967296 := w.toNat_lt
  rw [word, unsigned_natural hlt (Nat.lt_trans hlt (by decide))]
  exact congrArg Except.ok UInt32.ofNat_toNat

theorem bits_word (w : UInt32) : bits (.string (some (Hex.word w))) = .ok w := by
  simp only [bits, Node.isSound, Option.isSome_some, Bool.not_true, Bool.false_eq_true, if_false,
    Decoding.bitsOfText_word]
  rfl

end MergedMining.Json
