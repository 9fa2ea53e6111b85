import MergedMining.BlockHeader
import MergedMining.Proofs.Target.Expansion

/-!
# Work as arithmetic

The work of a header is judged by its hash and its compact word.  Here both are numbers: the double
SHA-256 of the eighty bytes, read as a little-endian number, and the number the word denotes.

## Main results

* `WorkHash.apply_eq_ofMessage` — the hash that work is measured by.
* `Work.check_eq_ok_iff` — when a hash meets the target of a word below a limit.
-/

namespace MergedMining

/-- Work is measured by the double SHA-256 of the eighty bytes. -/
theorem WorkHash.apply_eq_ofMessage (workHash : WorkHash) (header : BlockHeader) :
    workHash.apply header = .ofMessage header.write := by
  cases workHash with
  | sha256d => rfl

theorem Hash256.meets_iff {hash : Hash256} {target : Nat} :
    hash.meets target = true ↔ Bytes.toNatLE hash.bytes ≤ target := decide_eq_true_iff

/-- **A hash meets the target of a word** whose number is at most that of a usable limit: the
lossy expansion of the limit and the judged one of the word agree. -/
theorem Work.check_eq_ok_iff {hash : Hash256} {bits limit : UInt32} (hlimit : Target.Usable limit) :
    Work.check hash bits limit = .ok () ↔
      Target.Usable bits ∧ Target.value bits ≤ Target.value limit ∧
        Bytes.toNatLE hash.bytes ≤ Target.value bits := by
  have hexpanded : Target.ofCompact limit = Target.value limit :=
    Target.ofCompact_eq_value hlimit.1 hlimit.2.2
  rw [Work.check, hexpanded]
  cases hdecode : Target.decode bits with
  | error error =>
    have hfault := Target.decode_eq_error_iff.mp hdecode
    exact iff_of_false (fun h => by cases h) fun h => hfault.not_usable h.1
  | ok target =>
    obtain ⟨husable, rfl⟩ := Target.decode_eq_ok_iff.mp hdecode
    by_cases hle : Target.value bits ≤ Target.value limit
    · simp only [if_neg (Nat.not_lt_of_le hle)]
      by_cases hmeets : hash.meets (Target.value bits) = true
      · rw [if_pos hmeets]
        exact iff_of_true rfl ⟨husable, hle, Hash256.meets_iff.mp hmeets⟩
      · rw [if_neg hmeets]
        exact iff_of_false (fun h => by cases h) fun h => hmeets (Hash256.meets_iff.mpr h.2.2)
    · simp only [if_pos (Nat.lt_of_not_le hle)]
      exact iff_of_false (fun h => by cases h) fun h => hle h.2.1

end MergedMining
