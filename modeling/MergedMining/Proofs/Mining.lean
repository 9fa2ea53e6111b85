import Mathlib.Order.Bounds.Defs
import Mathlib.Order.WellFounded
import MergedMining.Mining
import MergedMining.Proofs.Work

/-!
# What mining finds

The nonces are tried one after the other until one serves, so that a nonce that is found serves, and
none is found only if none serves.  Nothing else of the header changes.  The search knows from the
start how many nonces there are.  It is shown to do what a loop does that knows nothing about their
number, and goes on until a nonce serves: such a loop comes past every nonce that does not, from the
least one on, and never past one that does.

## Main definitions

* `BlockHeader.Serves` — a nonce gives the header a hash as it is wanted.
* `BlockHeader.Mines` — the search round by round, with no end in sight.

## Main results

* `BlockHeader.exists_nonce_of_mine` — a mined header is the old one with a nonce that serves.
* `BlockHeader.mine_eq_none_iff` — mining fails exactly if no nonce serves.
* `BlockHeader.mines_iff` — the rounds end, with the least nonce that serves, if there is one.
* `BlockHeader.mine_least` — and so does mining.
-/

namespace MergedMining.BlockHeader

variable {test : UInt32 → Bool}

/-- A nonce that is found passes the test, by induction on the nonces left. -/
theorem test_of_searchNonce : ∀ (remaining nonce : Nat) {found : UInt32},
    searchNonce test remaining nonce = some found → test found = true := by
  intro remaining
  induction remaining with
  | zero =>
    intro nonce found h
    cases h
  | succ remaining ih =>
    intro nonce found h
    unfold searchNonce at h
    by_cases htest : test (UInt32.ofNat nonce) = true
    · rw [if_pos htest, Option.some.injEq] at h
      exact h ▸ htest
    · rw [if_neg htest] at h
      exact ih (nonce + 1) h

/-- Where none is found, all nonces that were tried fail. -/
theorem searchNonce_eq_none_iff : ∀ (remaining nonce : Nat),
    searchNonce test remaining nonce = none ↔
      ∀ i, nonce ≤ i → i < nonce + remaining → test (UInt32.ofNat i) = false := by
  intro remaining
  induction remaining with
  | zero =>
    intro nonce
    refine iff_of_true rfl fun i hle hlt => ?_
    omega
  | succ remaining ih =>
    intro nonce
    unfold searchNonce
    by_cases htest : test (UInt32.ofNat nonce) = true
    · rw [if_pos htest]
      refine iff_of_false (by simp) fun h => ?_
      rw [h nonce Nat.le.refl (by omega)] at htest
      cases htest
    · rw [if_neg htest, ih]
      constructor
      · intro h i hle hlt
        rcases Nat.eq_or_lt_of_le hle with heq | hlt'
        · rw [← heq]
          exact Bool.eq_false_iff.mpr htest
        · exact h i hlt' (by omega)
      · intro h i hle hlt
        exact h i (by omega) (by omega)

variable {header mined : BlockHeader} {meet : Bool} {bits : UInt32} {workHash : WorkHash}

/-- **A mined header is the old one with a nonce that serves.** -/
theorem exists_nonce_of_mine (h : header.mine meet bits workHash = some mined) :
    ∃ nonce, mined = header.withNonce nonce ∧ mined.meetsBits bits workHash = meet := by
  unfold mine at h
  obtain ⟨nonce, hnonce, hmined⟩ := Option.map_eq_some_iff.mp h
  subst hmined
  exact ⟨nonce, rfl, eq_of_beq (test_of_searchNonce _ _ hnonce)⟩

/-- **Mining fails exactly if no nonce serves.** -/
theorem mine_eq_none_iff :
    header.mine meet bits workHash = none ↔
      ∀ nonce, (header.withNonce nonce).meetsBits bits workHash ≠ meet := by
  unfold mine
  rw [Option.map_eq_none_iff, searchNonce_eq_none_iff]
  constructor
  · intro h nonce
    have htest := h nonce.toNat (Nat.zero_le _) (by rw [Nat.zero_add]; exact nonce.toNat_lt)
    rw [UInt32.ofNat_toNat] at htest
    exact ne_of_beq_false htest
  · intro h i _ _
    exact beq_eq_false_iff_ne.mpr (h _)

/-- A header that was mined to meet a usable word meets the number that the word denotes. -/
theorem toNatLE_le_of_meetsBits (hsign : Target.isNegative bits = false)
    (hvalue : Target.value bits < 2 ^ 256) (h : header.meetsBits bits workHash = true) :
    Bytes.toNatLE (Hash256.ofMessage header.write).bytes ≤ Target.value bits := by
  unfold meetsBits at h
  rw [WorkHash.apply_eq_ofMessage, Target.ofCompact_eq_value hsign hvalue, Hash256.meets_iff] at h
  exact h

/-! ### The least nonce -/

/-- With this nonce the double SHA-256 of the eighty bytes, as a little-endian number, is at most
the target of the word if `meet` is true, and above it if `meet` is false. -/
def Serves (header : BlockHeader) (meet : Bool) (bits nonce : UInt32) : Prop :=
  decide (Bytes.toNatLE (Hash256.ofMessage ({ header with nonce } : BlockHeader).write).bytes ≤
    Target.ofCompact bits) = meet

theorem meetsBits_withNonce_iff {nonce : UInt32} :
    (header.withNonce nonce).meetsBits bits workHash = meet ↔ header.Serves meet bits nonce := by
  unfold meetsBits
  rw [WorkHash.apply_eq_ofMessage]
  rfl

/-- Of the nonces that serve one is the least, if there are any. -/
theorem exists_isLeast_serves (h : ∃ nonce, header.Serves meet bits nonce) :
    ∃ nonce, IsLeast {n | header.Serves meet bits n} nonce := by
  obtain ⟨nonce, hserves, hleast⟩ := (measure UInt32.toNat).wf.has_min _ h
  refine ⟨nonce, hserves, fun n hn => ?_⟩
  rw [UInt32.le_iff_toNat_le]
  exact Nat.le_of_not_lt (hleast n hn)

/-- The least word that passes is found from any place below it, if the search gets that far. -/
theorem searchNonce_of_isLeast {found : UInt32} (h : IsLeast {n | test n = true} found) :
    ∀ (remaining nonce : Nat), nonce ≤ found.toNat → found.toNat < nonce + remaining →
      searchNonce test remaining nonce = some found := by
  intro remaining
  induction remaining with
  | zero =>
    intro nonce hle hlt
    omega
  | succ remaining ih =>
    intro nonce hle hlt
    have hnonce : (UInt32.ofNat nonce).toNat = nonce :=
      UInt32.toNat_ofNat_of_lt' (Nat.lt_of_le_of_lt hle found.toNat_lt)
    unfold searchNonce
    by_cases htest : test (UInt32.ofNat nonce) = true
    · rw [if_pos htest]
      have hback : found.toNat ≤ nonce := by
        rw [← hnonce]
        exact UInt32.le_iff_toNat_le.mp (h.2 htest)
      rw [show nonce = found.toNat by omega, UInt32.ofNat_toNat]
    · rw [if_neg htest]
      apply ih
      · rcases Nat.eq_or_lt_of_le hle with heq | hlt'
        · rw [heq, UInt32.ofNat_toNat] at htest
          exact absurd h.1 htest
        · exact hlt'
      · omega

theorem mine_of_isLeast {nonce : UInt32}
    (h : IsLeast {n | header.Serves meet bits n} nonce) :
    header.mine meet bits workHash = some (header.withNonce nonce) := by
  have htest : IsLeast
      {n | ((header.withNonce n).meetsBits bits workHash == meet) = true} nonce := by
    simpa only [beq_iff_eq, meetsBits_withNonce_iff] using h
  unfold mine
  rw [searchNonce_of_isLeast htest _ _ (Nat.zero_le _) (by rw [Nat.zero_add]; exact nonce.toNat_lt)]
  rfl

/-! ### Round by round -/

/-- The search round by round.  It ends with a header that is as wanted, and otherwise goes on with
the next nonce.  What follows the largest nonce is left open: if `wraps` is true the count goes back
to zero, and if not there is no next round. -/
inductive Mines (meet : Bool) (bits : UInt32) (workHash : WorkHash) (wraps : Bool) :
    (header mined : BlockHeader) → Prop
  | ends {header : BlockHeader} (h : header.meetsBits bits workHash = meet) :
      Mines meet bits workHash wraps header header
  | round {header mined : BlockHeader} (h : header.meetsBits bits workHash ≠ meet)
      (hnext : header.nonce + 1 ≠ 0 ∨ wraps = true)
      (hrest : Mines meet bits workHash wraps (header.withNonce (header.nonce + 1)) mined) :
      Mines meet bits workHash wraps header mined

theorem toNat_add_one {n : UInt32} (h : n + 1 ≠ 0) : (n + 1).toNat = n.toNat + 1 := by
  have hlt : n.toNat < 4294967296 := n.toNat_lt
  have hne : (n + 1).toNat ≠ 0 := fun hzero => h (UInt32.toNat_inj.mp hzero)
  rw [UInt32.toNat_add, UInt32.toNat_one] at hne ⊢
  omega

variable {wraps : Bool}

/-- Where all nonces below the current one have failed, the rounds end with the least one that
serves.  If the count goes back to zero, there are none below it. -/
theorem Mines.isLeast (h : Mines meet bits workHash wraps header mined)
    (hbelow : ∀ n < header.nonce, ¬ header.Serves meet bits n) :
    ∃ nonce, IsLeast {n | header.Serves meet bits n} nonce ∧ mined = header.withNonce nonce := by
  induction h with
  | @ends header h =>
    refine ⟨header.nonce, ⟨meetsBits_withNonce_iff.mp h, fun n hn => ?_⟩, rfl⟩
    exact UInt32.not_lt.mp fun hlt => hbelow n hlt hn
  | @round header mined h hnext hrest ih =>
    apply ih
    intro n hlt hn
    by_cases hzero : header.nonce + 1 = 0
    · rw [show (header.withNonce (header.nonce + 1)).nonce = 0 from hzero] at hlt
      exact absurd hlt UInt32.not_lt_zero
    · have hstep := toNat_add_one hzero
      have hlt' : n.toNat < (header.nonce + 1).toNat := hlt
      rcases Nat.lt_or_eq_of_le (show n.toNat ≤ header.nonce.toNat by omega) with hbefore | hsame
      · exact hbelow n hbefore hn
      · rw [UInt32.toNat_inj.mp hsame] at hn
        exact h (meetsBits_withNonce_iff.mpr hn)

/-- The rounds come from any nonce to the least one that serves, by induction on how many lie
between them. -/
theorem mines_of_isLeast {found : UInt32} (h : IsLeast {n | header.Serves meet bits n} found) :
    ∀ (rounds : Nat) (nonce : UInt32), nonce.toNat + rounds = found.toNat →
      Mines meet bits workHash wraps (header.withNonce nonce) (header.withNonce found) := by
  intro rounds
  induction rounds with
  | zero =>
    intro nonce hsum
    rw [UInt32.toNat_inj.mp hsum]
    exact .ends (meetsBits_withNonce_iff.mpr h.1)
  | succ rounds ih =>
    intro nonce hsum
    have hlt : found.toNat < 4294967296 := found.toNat_lt
    -- a nonce below another one is not the largest
    have hnonzero : nonce + 1 ≠ 0 := by
      intro hzero
      have hnat := congrArg UInt32.toNat hzero
      rw [UInt32.toNat_add, UInt32.toNat_one, UInt32.toNat_zero] at hnat
      omega
    have hnext := toNat_add_one hnonzero
    have hfails : ¬ header.Serves meet bits nonce := by
      intro hserves
      have hle := UInt32.le_iff_toNat_le.mp (h.2 hserves)
      omega
    exact .round (fun hmeets => hfails (meetsBits_withNonce_iff.mp hmeets)) (.inl hnonzero)
      (ih (nonce + 1) (by omega))

/-- **The rounds end exactly if some nonce serves**, and then with the least one. -/
theorem mines_iff :
    Mines meet bits workHash wraps (header.withNonce 0) mined ↔
      ∃ nonce, IsLeast {n | header.Serves meet bits n} nonce ∧ mined = header.withNonce nonce := by
  constructor
  · intro h
    exact h.isLeast fun n hlt => absurd hlt UInt32.not_lt_zero
  · rintro ⟨nonce, hleast, rfl⟩
    exact mines_of_isLeast hleast nonce.toNat 0 (Nat.zero_add _)

theorem mine_eq_some_iff :
    header.mine meet bits workHash = some mined ↔
      ∃ nonce, IsLeast {n | header.Serves meet bits n} nonce ∧ mined = header.withNonce nonce := by
  constructor
  · intro h
    obtain ⟨served, rfl, hmeets⟩ := exists_nonce_of_mine h
    obtain ⟨nonce, hleast⟩ := exists_isLeast_serves ⟨served, meetsBits_withNonce_iff.mp hmeets⟩
    -- the search has one answer, and the least nonce is one
    rw [mine_of_isLeast hleast, Option.some.injEq] at h
    exact ⟨nonce, hleast, h.symm⟩
  · rintro ⟨nonce, hleast, rfl⟩
    exact mine_of_isLeast hleast

/-- **Mining finds the least nonce that serves**, whatever nonce the header had before, and leaves
the other fields as they are; if no nonce serves, nothing is found.  This is what trying one nonce
after the other comes to, from zero on and without counting how many are left: the rounds end
exactly where mining finds something, with the same header.  It makes no difference whether the
count would go back to zero after the largest nonce, or could not go on. -/
theorem mine_least (header : BlockHeader) (meet : Bool) (bits : UInt32) (workHash : WorkHash)
    (wraps : Bool) :
    ((∃ nonce, header.Serves meet bits nonce) →
      ∃ nonce, IsLeast {n | header.Serves meet bits n} nonce ∧
        ∀ start, (header.withNonce start).mine meet bits workHash = some { header with nonce }) ∧
    ((∀ nonce, ¬ header.Serves meet bits nonce) →
      ∀ start, (header.withNonce start).mine meet bits workHash = none) ∧
    ∀ mined, Mines meet bits workHash wraps (header.withNonce 0) mined ↔
      header.mine meet bits workHash = some mined := by
  refine ⟨fun hsome => ?_, fun hnone start => ?_, fun mined => ?_⟩
  · obtain ⟨nonce, hleast⟩ := exists_isLeast_serves hsome
    exact ⟨nonce, hleast, fun start => mine_of_isLeast hleast⟩
  · exact mine_eq_none_iff.mpr fun nonce hmeets => hnone nonce (meetsBits_withNonce_iff.mp hmeets)
  · rw [mines_iff, mine_eq_some_iff]

end MergedMining.BlockHeader
