import MergedMining.Merkle.Branch

/-!
# Branches bind their leaves

Two branches that lead to one root lead there from one leaf, unless two different messages have the
same hash.  No hash function is assumed to rule that out: the two messages are among those that the
climbs have hashed, and the results name them.

## Main definitions

* `Hash256.Clash`, `Hash256.ClashAmong` — two different messages with one hash.
* `Merkle.messages` — the messages hashed in a climb, one for each level.

## Main results

* `Merkle.climb_inj` — climbs of one height at one position bind the leaf and all siblings.
* `Merkle.leftmost_binding` — climbs of any two heights at position 0 bind the leaf, or one of the
  leaves is an inner node of the other climb.
-/

namespace MergedMining

namespace Hash256

/-- Two different messages with one hash. -/
def Clash (s t : Bytes) : Prop := s ≠ t ∧ ofMessage s = ofMessage t

/-- Two of the messages clash. -/
def ClashAmong (messages : List Bytes) : Prop := ∃ s ∈ messages, ∃ t ∈ messages, Clash s t

theorem ClashAmong.mono {messages messages' : List Bytes} (h : ClashAmong messages)
    (hsub : messages ⊆ messages') : ClashAmong messages' := by
  obtain ⟨s, hs, t, ht, hclash⟩ := h
  exact ⟨s, hsub hs, t, hsub ht, hclash⟩

/-- Messages of two computations, each of them a part of a larger one. -/
theorem ClashAmong.append_mono {ms ms' ns ns' : List Bytes} (h : ClashAmong (ms ++ ns))
    (hms : ms ⊆ ms') (hns : ns ⊆ ns') : ClashAmong (ms' ++ ns') :=
  h.mono (List.append_subset.mpr ⟨fun _ hm => List.mem_append_left _ (hms hm),
    fun _ hm => List.mem_append_right _ (hns hm)⟩)

theorem ClashAmong.swap {ms ns : List Bytes} (h : ClashAmong (ms ++ ns)) :
    ClashAmong (ns ++ ms) :=
  h.mono (List.append_subset.mpr ⟨List.subset_append_right _ _, List.subset_append_left _ _⟩)

/-- Messages with one hash are the same, or they clash. -/
theorem eq_or_clash {s t : Bytes} (h : ofMessage s = ofMessage t) : s = t ∨ Clash s t := by
  by_cases hst : s = t
  · exact Or.inl hst
  · exact Or.inr ⟨hst, h⟩

end Hash256

namespace Merkle

open Hash256 (Clash ClashAmong ofMessage)

/-- The message hashed when a node is joined with its sibling: the left one first. -/
def nodeMessage (index : Nat) (node sibling : Hash256) : Bytes :=
  if index % 2 = 1 then sibling.bytes ++ node.bytes else node.bytes ++ sibling.bytes

/-- The messages hashed in a climb, lowest level first. -/
def messages (index : Nat) (node : Hash256) : List Hash256 → List Bytes
  | [] => []
  | sibling :: rest =>
      nodeMessage index node sibling :: messages (index / 2) (step index node sibling) rest

theorem step_eq_ofMessage (index : Nat) (node sibling : Hash256) :
    step index node sibling = ofMessage (nodeMessage index node sibling) := by
  rw [step, nodeMessage]
  split
  · rfl
  · rfl

@[simp] theorem length_nodeMessage (index : Nat) (node sibling : Hash256) :
    (nodeMessage index node sibling).length = 64 := by
  rw [nodeMessage]
  split
  · rw [List.length_append, node.length_bytes, sibling.length_bytes]
  · rw [List.length_append, node.length_bytes, sibling.length_bytes]

theorem nodeMessage_inj {i₁ i₂ : Nat} {n₁ n₂ s₁ s₂ : Hash256} (hside : i₁ % 2 = i₂ % 2)
    (h : nodeMessage i₁ n₁ s₁ = nodeMessage i₂ n₂ s₂) : n₁ = n₂ ∧ s₁ = s₂ := by
  have hlen : ∀ x y : Hash256, x.bytes.length = y.bytes.length := fun x y => by
    rw [x.length_bytes, y.length_bytes]
  rw [nodeMessage, nodeMessage, hside] at h
  split at h
  · obtain ⟨hs, hn⟩ := List.append_inj h (hlen s₁ s₂)
    exact ⟨Hash256.ext hn, Hash256.ext hs⟩
  · obtain ⟨hn, hs⟩ := List.append_inj h (hlen n₁ n₂)
    exact ⟨Hash256.ext hn, Hash256.ext hs⟩

theorem length_of_mem_messages {hashes : List Hash256} :
    ∀ {index : Nat} {node : Hash256} {m : Bytes}, m ∈ messages index node hashes →
      m.length = 64 := by
  induction hashes with
  | nil => intro index node m hm; simp [messages] at hm
  | cons sibling rest ih =>
    intro index node m hm
    rw [messages, List.mem_cons] at hm
    rcases hm with rfl | hm
    · exact length_nodeMessage index node sibling
    · exact ih hm

/-! ### Climbing in two stages -/

theorem climb_append (as bs : List Hash256) :
    ∀ (index : Nat) (node : Hash256), climb index node (as ++ bs) =
      climb (index / 2 ^ as.length) (climb index node as) bs := by
  induction as with
  | nil => intro index node; rw [List.nil_append, List.length_nil, Nat.pow_zero, Nat.div_one]; rfl
  | cons sibling rest ih =>
    intro index node
    rw [List.cons_append, climb_cons, climb_cons, ih, List.length_cons, Nat.pow_succ',
      Nat.div_div_eq_div_mul]

theorem messages_append (as bs : List Hash256) :
    ∀ (index : Nat) (node : Hash256), messages index node (as ++ bs) =
      messages index node as ++ messages (index / 2 ^ as.length) (climb index node as) bs := by
  induction as with
  | nil => intro index node; rw [List.nil_append, List.length_nil, Nat.pow_zero, Nat.div_one]; rfl
  | cons sibling rest ih =>
    intro index node
    rw [List.cons_append, messages, messages, ih, List.length_cons, Nat.pow_succ',
      Nat.div_div_eq_div_mul, List.cons_append, climb_cons]

/-- A climb of at least one level ends in the hash of one of its messages. -/
theorem exists_message_of_climb {hashes : List Hash256} (hne : hashes ≠ []) :
    ∀ (index : Nat) (node : Hash256),
      ∃ m ∈ messages index node hashes, climb index node hashes = ofMessage m := by
  intro index node
  rcases List.eq_nil_or_concat hashes with rfl | ⟨front, last, rfl⟩
  · exact absurd rfl hne
  · rw [List.concat_eq_append, climb_append, messages_append]
    refine ⟨nodeMessage (index / 2 ^ front.length) (climb index node front) last, ?_, ?_⟩
    · exact List.mem_append_right _ (List.mem_singleton.mpr rfl)
    · exact step_eq_ofMessage _ _ _

/-! ### Binding -/

/-- **Climbs of one height at one position bind the leaf and the siblings**: if they end in one
hash they start from one leaf and pass the same siblings, or at some level they hash different
messages to one hash.  The induction runs up the climb; what the upper levels bind is the node that
the lowest level hands on. -/
theorem climb_inj : ∀ (hashes₁ hashes₂ : List Hash256) (i₁ i₂ : Nat) (x₁ x₂ : Hash256),
    hashes₁.length = hashes₂.length → i₁ % 2 ^ hashes₁.length = i₂ % 2 ^ hashes₁.length →
    climb i₁ x₁ hashes₁ = climb i₂ x₂ hashes₂ →
      (x₁ = x₂ ∧ hashes₁ = hashes₂) ∨
      ∃ (level : Nat) (s t : Bytes), (messages i₁ x₁ hashes₁)[level]? = some s ∧
        (messages i₂ x₂ hashes₂)[level]? = some t ∧ Clash s t := by
  intro hashes₁
  induction hashes₁ with
  | nil =>
    intro hashes₂ i₁ i₂ x₁ x₂ hlen _ h
    have hnil : hashes₂ = [] := List.length_eq_zero_iff.mp hlen.symm
    subst hnil
    exact Or.inl ⟨h, rfl⟩
  | cons s₁ rest₁ ih =>
    intro hashes₂ i₁ i₂ x₁ x₂ hlen hindex h
    cases hashes₂ with
    | nil => simp at hlen
    | cons s₂ rest₂ =>
      rw [List.length_cons, Nat.pow_succ'] at hindex
      -- positions that agree in all bits agree in the lowest one, and in the others
      have hside : i₁ % 2 = i₂ % 2 := by
        rw [← Nat.mod_mul_right_mod i₁ 2 (2 ^ rest₁.length), hindex, Nat.mod_mul_right_mod]
      have hhalf : i₁ / 2 % 2 ^ rest₁.length = i₂ / 2 % 2 ^ rest₁.length := by
        rw [← Nat.mod_mul_right_div_self, hindex, Nat.mod_mul_right_div_self]
      rcases ih rest₂ (i₁ / 2) (i₂ / 2) _ _ (by simpa using hlen) hhalf h with
        ⟨hnode, hrest⟩ | ⟨level, s, t, hs, ht, hclash⟩
      -- the levels above bind the node, and the node binds what it was joined from
      · rw [step_eq_ofMessage, step_eq_ofMessage] at hnode
        rcases Hash256.eq_or_clash hnode with hmessage | hclash
        · obtain ⟨hx, hs⟩ := nodeMessage_inj hside hmessage
          exact Or.inl ⟨hx, by rw [hs, hrest]⟩
        · exact Or.inr ⟨0, _, _, rfl, rfl, hclash⟩
      · exact Or.inr ⟨level + 1, s, t, hs, ht, hclash⟩

theorem climb_inj_or_clashAmong {hashes₁ hashes₂ : List Hash256} {i₁ i₂ : Nat} {x₁ x₂ : Hash256}
    (hlen : hashes₁.length = hashes₂.length)
    (hindex : i₁ % 2 ^ hashes₁.length = i₂ % 2 ^ hashes₁.length)
    (h : climb i₁ x₁ hashes₁ = climb i₂ x₂ hashes₂) :
    x₁ = x₂ ∨ ClashAmong (messages i₁ x₁ hashes₁ ++ messages i₂ x₂ hashes₂) := by
  rcases climb_inj hashes₁ hashes₂ i₁ i₂ x₁ x₂ hlen hindex h with
    ⟨hx, -⟩ | ⟨level, s, t, hs, ht, hclash⟩
  · exact Or.inl hx
  · exact Or.inr ⟨s, List.mem_append_left _ (List.mem_of_getElem? hs),
      t, List.mem_append_right _ (List.mem_of_getElem? ht), hclash⟩

/-- Of two climbs at position 0 the one that is no higher starts from the leaf of the other, or
from one of its inner nodes. -/
theorem leftmost_binding_of_le {hashes₁ hashes₂ : List Hash256} {x₁ x₂ : Hash256}
    (hle : hashes₁.length ≤ hashes₂.length) (h : climb 0 x₁ hashes₁ = climb 0 x₂ hashes₂) :
    x₁ = x₂ ∨ (∃ m ∈ messages 0 x₂ hashes₂, x₁ = ofMessage m) ∨
      ClashAmong (messages 0 x₁ hashes₁ ++ messages 0 x₂ hashes₂) := by
  -- the upper levels of the higher climb are as many as the other one has
  obtain ⟨lower, upper, hsplit, hupper⟩ :
      ∃ lower upper, hashes₂ = lower ++ upper ∧ hashes₁.length = upper.length :=
    ⟨hashes₂.take (hashes₂.length - hashes₁.length), hashes₂.drop _,
      (List.take_append_drop _ _).symm, by rw [List.length_drop]; omega⟩
  subst hsplit
  rw [climb_append, Nat.zero_div] at h
  rw [messages_append, Nat.zero_div]
  rcases climb_inj_or_clashAmong hupper rfl h with hnode | hclash
  · -- the leaf is where the lower levels of the higher climb end
    by_cases hlower : lower = []
    · subst hlower
      exact Or.inl hnode
    · obtain ⟨m, hm, hroot⟩ := exists_message_of_climb hlower 0 x₂
      exact Or.inr (Or.inl ⟨m, List.mem_append_left _ hm, hnode.trans hroot⟩)
  · exact Or.inr (Or.inr (hclash.append_mono (List.Subset.refl _) (List.subset_append_right _ _)))

/-- **Climbs at position 0 bind the leaf whatever their heights**, unless one of the leaves is an
inner node of the other climb, and so the hash of a message of 64 bytes. -/
theorem leftmost_binding {hashes₁ hashes₂ : List Hash256} {x₁ x₂ : Hash256}
    (h : climb 0 x₁ hashes₁ = climb 0 x₂ hashes₂) :
    x₁ = x₂ ∨ (∃ m ∈ messages 0 x₂ hashes₂, x₁ = ofMessage m) ∨
      (∃ m ∈ messages 0 x₁ hashes₁, x₂ = ofMessage m) ∨
      ClashAmong (messages 0 x₁ hashes₁ ++ messages 0 x₂ hashes₂) := by
  rcases Nat.le_total hashes₁.length hashes₂.length with hle | hle
  · rcases leftmost_binding_of_le hle h with hx | hinner | hclash
    · exact Or.inl hx
    · exact Or.inr (Or.inl hinner)
    · exact Or.inr (Or.inr (Or.inr hclash))
  · rcases leftmost_binding_of_le hle h.symm with hx | hinner | hclash
    · exact Or.inl hx.symm
    · exact Or.inr (Or.inr (Or.inl hinner))
    · exact Or.inr (Or.inr (Or.inr hclash.swap))

end Merkle

end MergedMining
