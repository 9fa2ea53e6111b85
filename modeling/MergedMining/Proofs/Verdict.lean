import MergedMining.Rejection

/-!
# Verdicts by ordered rules

Untrusted input is judged by one rule after the other, and the first rule that does not hold gives
the reason for a rejection.  A list of rules says what such a verdict has to be without saying how
it is found.

## Main definitions

* `Rule` — what is asked for, and the reasons given where it is missing.
* `Refuses` — a reason given by the first rule that does not hold.
* `Decides` — a verdict follows a list of rules.

## Main results

* `Decides.pass`, `Decides.fail` — one rule of a verdict: it holds and the others decide, or it
  does not and its reason is the verdict.
* `Decides.guard` — a test and the rule it tries.
-/

namespace MergedMining

/-- A rule for untrusted input. -/
structure Rule where
  /-- What the rule asks for. -/
  holds : Prop
  /-- The reasons that are given where it does not hold. -/
  reports : Rejection → Prop

/-- A reason given by the first of the rules that does not hold. -/
inductive Refuses : List Rule → Rejection → Prop where
  /-- The first rule does not hold. -/
  | here {rule : Rule} {rules : List Rule} {reason : Rejection} :
      ¬ rule.holds → rule.reports reason → Refuses (rule :: rules) reason
  /-- The first rule holds, and a later one does not. -/
  | later {rule : Rule} {rules : List Rule} {reason : Rejection} :
      rule.holds → Refuses rules reason → Refuses (rule :: rules) reason

/-- A verdict follows the rules: it accepts exactly if all of them hold, and it rejects exactly for
the reasons of the first one that does not. -/
structure Decides (rules : List Rule) (verdict : Except Rejection Unit) : Prop where
  /-- Acceptance. -/
  ok_iff : verdict = .ok () ↔ ∀ rule ∈ rules, rule.holds
  /-- Rejection. -/
  error_iff : ∀ reason, verdict = .error reason ↔ Refuses rules reason

namespace Decides

variable {rule : Rule} {rules : List Rule} {verdict : Except Rejection Unit} {reason : Rejection}

/-- Without rules everything is accepted. -/
theorem nil : Decides [] (.ok ()) where
  ok_iff := iff_of_true rfl fun _ h => absurd h List.not_mem_nil
  error_iff reason := iff_of_false (fun h => by cases h) fun h => by cases h

/-- Where a rule holds, the rules behind it decide. -/
theorem pass (hrule : rule.holds) (h : Decides rules verdict) :
    Decides (rule :: rules) verdict where
  ok_iff := by
    rw [h.ok_iff, List.forall_mem_cons]
    exact ⟨fun hall => ⟨hrule, hall⟩, And.right⟩
  error_iff reason := by
    rw [h.error_iff]
    constructor
    · exact .later hrule
    · rintro (⟨hnot, -⟩ | ⟨-, hlater⟩)
      · exact absurd hrule hnot
      · exact hlater

/-- Where a rule does not hold, its only reason is the verdict. -/
theorem fail (hrule : ¬ rule.holds) (hreason : ∀ other, rule.reports other ↔ other = reason) :
    Decides (rule :: rules) (.error reason) where
  ok_iff := by
    rw [List.forall_mem_cons]
    exact iff_of_false (fun h => by cases h) fun hall => hrule hall.1
  error_iff other := by
    constructor
    · rintro ⟨⟩
      exact .here hrule ((hreason reason).mpr rfl)
    · rintro (⟨-, hother⟩ | ⟨hholds, -⟩)
      · rw [(hreason other).mp hother]
      · exact absurd hholds hrule

/-- A test that fails where its rule does not hold, with the rule's only reason. -/
theorem guard {fails : Prop} [Decidable fails] (hfails : fails ↔ ¬ rule.holds)
    (hreason : ∀ other, rule.reports other ↔ other = reason)
    (h : rule.holds → Decides rules verdict) :
    Decides (rule :: rules) (if fails then .error reason else verdict) := by
  by_cases hrule : rule.holds
  · rw [if_neg fun hc => hfails.mp hc hrule]
    exact .pass hrule (h hrule)
  · rw [if_pos (hfails.mpr hrule)]
    exact .fail hrule hreason

end Decides

end MergedMining
