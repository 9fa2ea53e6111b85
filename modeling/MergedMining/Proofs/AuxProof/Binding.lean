import MergedMining.Proofs.AuxProof.Rules
import MergedMining.Proofs.Coinbase
import MergedMining.Proofs.Commitment.Uniqueness
import MergedMining.Proofs.Merkle.Binding

/-!
# A parent block works for one block of a chain

Two proofs whose parents have one Merkle root hold for one block hash.  The root binds the coinbase,
since no inner node of a tree can pass for one; the coinbase binds its script, the script binds the
commitment, and that binds the tree and the slot of the chain in it.  The ways out are that two
messages hashed in the two checks clash, and that a script without a marker is read at two
positions.

## Main definitions

* `AuxProof.messages` — the messages hashed in a check on the way from a block to the parent's root.

## Main results

* `AuxProof.coinbase_binding` — proofs under one Merkle root have one coinbase, or a clash.
* `AuxProof.leaf_binding` — proofs of one commitment hold for one block hash, or there is a clash.
* `AuxProof.check_binds` — proofs under one Merkle root hold for one block hash.
-/

namespace MergedMining.AuxProof

open Hash256 (ClashAmong ofMessage)

/-- The messages hashed on the way from the coinbase to the parent's root. -/
def coinbaseMessages (proof : AuxProof) : List Bytes :=
  proof.coinbase.writeStripped ::
    Merkle.messages proof.coinbaseBranch.index.toNat proof.coinbase.txid
      proof.coinbaseBranch.hashes

/-- The messages hashed on the way from a block hash to the root that is committed to. -/
def chainMessages (proof : AuxProof) (hash : Hash256) : List Bytes :=
  Merkle.messages proof.chainBranch.index.toNat hash proof.chainBranch.hashes

/-- The messages hashed on both ways. -/
def messages (proof : AuxProof) (hash : Hash256) : List Bytes :=
  proof.coinbaseMessages ++ proof.chainMessages hash

variable {a₁ a₂ : AuxProof} {x₁ x₂ : Hash256} {chainId : ChainId} {params : Params}

/-! ### From the root to the coinbase -/

theorem script_of_single {proof : AuxProof} {input : TxIn}
    (h : proof.coinbase.inputs = [input]) : proof.script = input.script := by
  rw [script, h]

/-- A coinbase that commits to something is longer than an inner node. -/
theorem lt_length_coinbase {proof : AuxProof} {hash : Hash256} {c : Commitment}
    (hcoinbase : proof.coinbaseRule.holds) (hc : proof.Commits hash c) :
    64 < proof.coinbase.writeStripped.length := by
  obtain ⟨⟨input, hinput, -⟩, -⟩ := hcoinbase
  have hstripped := Transaction.add_length_le_length_writeStripped hinput
  have hscript := hc.length_ge
  rw [script_of_single hinput] at hscript
  omega

/-- A coinbase whose id is an inner node of the other climb clashes with that node's message. -/
theorem clash_of_inner {c : Commitment} (hcoinbase : a₁.coinbaseRule.holds)
    (hc : a₁.Commits x₁ c)
    (hinner : ∃ m ∈ Merkle.messages a₂.coinbaseBranch.index.toNat a₂.coinbase.txid
      a₂.coinbaseBranch.hashes, a₁.coinbase.txid = ofMessage m) :
    ClashAmong (a₁.coinbaseMessages ++ a₂.coinbaseMessages) := by
  obtain ⟨m, hm, htxid⟩ := hinner
  refine ⟨a₁.coinbase.writeStripped, List.mem_append_left _ List.mem_cons_self,
    m, List.mem_append_right _ (List.mem_cons_of_mem _ hm), fun heq => ?_, htxid⟩
  have hlong := lt_length_coinbase hcoinbase hc
  rw [heq, Merkle.length_of_mem_messages hm] at hlong
  exact Nat.lt_irrefl _ hlong

/-- **One Merkle root binds the coinbase**, whatever the heights of the two branches. -/
theorem coinbase_binding (hroot : a₁.parent.merkleRoot = a₂.parent.merkleRoot)
    (h₁ : a₁.check x₁ chainId params = .ok ()) (h₂ : a₂.check x₂ chainId params = .ok ()) :
    a₁.coinbase.writeStripped = a₂.coinbase.writeStripped ∨
      ClashAmong (a₁.coinbaseMessages ++ a₂.coinbaseMessages) := by
  obtain ⟨hcoinbase₁, -, -, hroot₁, ⟨c₁, hc₁⟩, -⟩ := (check_eq_ok_iff ..).mp h₁
  obtain ⟨hcoinbase₂, -, -, hroot₂, ⟨c₂, hc₂⟩, -⟩ := (check_eq_ok_iff ..).mp h₂
  have hindex₁ : a₁.coinbaseBranch.index.toNat = 0 := by rw [hcoinbase₁.2, UInt32.toNat_zero]
  have hindex₂ : a₂.coinbaseBranch.index.toNat = 0 := by rw [hcoinbase₂.2, UInt32.toNat_zero]
  have hclimb : Merkle.climb 0 a₁.coinbase.txid a₁.coinbaseBranch.hashes =
      Merkle.climb 0 a₂.coinbase.txid a₂.coinbaseBranch.hashes := by
    rw [Merkle.climb_zero, Merkle.climb_zero]
    exact hroot₁.trans (hroot.trans hroot₂.symm)
  -- branches of different heights could meet where one id is an inner node of the other climb
  rcases Merkle.leftmost_binding hclimb with htxid | hinner | hinner | hclash
  · rcases Hash256.eq_or_clash htxid with hstripped | hclash
    · exact Or.inl hstripped
    · exact Or.inr ⟨_, List.mem_append_left _ List.mem_cons_self,
        _, List.mem_append_right _ List.mem_cons_self, hclash⟩
  · exact Or.inr (clash_of_inner hcoinbase₁ hc₁ (hindex₂ ▸ hinner))
  · exact Or.inr (clash_of_inner hcoinbase₂ hc₂ (hindex₁ ▸ hinner)).swap
  · rw [coinbaseMessages, coinbaseMessages, hindex₁, hindex₂]
    exact Or.inr (hclash.append_mono (List.subset_cons_self _ _) (List.subset_cons_self _ _))

theorem script_binding (hcoinbase₁ : a₁.coinbaseRule.holds) (hcoinbase₂ : a₂.coinbaseRule.holds)
    (hlen₁ : a₁.script.length < 2 ^ 64) (hlen₂ : a₂.script.length < 2 ^ 64)
    (hstripped : a₁.coinbase.writeStripped = a₂.coinbase.writeStripped) :
    a₁.script = a₂.script := by
  obtain ⟨⟨input₁, hinput₁, -⟩, -⟩ := hcoinbase₁
  obtain ⟨⟨input₂, hinput₂, -⟩, -⟩ := hcoinbase₂
  rw [script_of_single hinput₁] at hlen₁ ⊢
  rw [script_of_single hinput₂] at hlen₂ ⊢
  exact Transaction.script_eq_of_writeStripped_eq hinput₁ hinput₂ hlen₁ hlen₂ hstripped

/-! ### From the commitment to the block -/

/-- **One commitment binds the block hash** in the slot of a chain: it determines the root and the
height of the tree, and with its nonce the position. -/
theorem leaf_binding {c : Commitment} (hc₁ : a₁.Commits x₁ c) (hc₂ : a₂.Commits x₂ c)
    (hslot₁ : a₁.chainBranch.index.toNat = a₁.slotNumber chainId c.nonce)
    (hslot₂ : a₂.chainBranch.index.toNat = a₂.slotNumber chainId c.nonce) :
    x₁ = x₂ ∨ ClashAmong (a₁.chainMessages x₁ ++ a₂.chainMessages x₂) := by
  have hheight : a₁.chainBranch.hashes.length = a₂.chainBranch.hashes.length :=
    hc₁.height_eq hc₂
  have hindex : a₁.chainBranch.index.toNat = a₂.chainBranch.index.toNat := by
    rw [hslot₁, hslot₂, slotNumber, slotNumber, hheight]
  have hspelled : a₁.spelledRoot x₁ = a₂.spelledRoot x₂ := hc₁.root_eq.symm.trans hc₂.root_eq
  have hroot : a₁.chainBranch.rootOf x₁ = a₂.chainBranch.rootOf x₂ := by
    rw [← committedRoot_eq_spelledRoot, ← committedRoot_eq_spelledRoot] at hspelled
    rw [← Hash256.reversed_reversed (a₁.chainBranch.rootOf x₁),
      ← Hash256.reversed_reversed (a₂.chainBranch.rootOf x₂)]
    exact congrArg Hash256.reversed hspelled
  exact Merkle.climb_inj_or_clashAmong hheight (by rw [hindex]) hroot

/-- The commitment of an accepted proof, with the slot it puts the block into. -/
theorem exists_commits_of_check {proof : AuxProof} {hash : Hash256}
    (h : proof.check hash chainId params = .ok ()) :
    ∃ c, proof.Commits hash c ∧
      proof.chainBranch.index.toNat = proof.slotNumber chainId c.nonce := by
  obtain ⟨-, -, -, -, -, hslot, -⟩ := (check_eq_ok_iff ..).mp h
  exact hslot

/-! ### From the root to the block -/

/-- The script of `a₁` holds no marker, and the roots of both proofs are read from it at two
positions near its start. -/
def ReadTwice (a₁ a₂ : AuxProof) (x₁ x₂ : Hash256) : Prop :=
  Commitment.Unmarked a₁.script ∧ ∃ c₁ c₂,
    Commitment.read a₁.script (a₁.committedRoot x₁) a₁.chainBranch.height = .ok c₁ ∧
    Commitment.read a₁.script (a₂.committedRoot x₂) a₂.chainBranch.height = .ok c₂ ∧
    c₁.offset ≠ c₂.offset ∧ c₁.offset ≤ 20 ∧ c₂.offset ≤ 20

/-- Accepted proofs of one script hold for one block hash, or messages clash, or the script is read
twice. -/
theorem binding_of_script_eq (hscript : a₁.script = a₂.script)
    (h₁ : a₁.check x₁ chainId params = .ok ()) (h₂ : a₂.check x₂ chainId params = .ok ()) :
    x₁ = x₂ ∨ ClashAmong (a₁.chainMessages x₁ ++ a₂.chainMessages x₂) ∨ ReadTwice a₁ a₂ x₁ x₂ := by
  obtain ⟨c₁, hc₁, hslot₁⟩ := exists_commits_of_check h₁
  obtain ⟨c₂, hc₂, hslot₂⟩ := exists_commits_of_check h₂
  have hread₁ := (a₁.read_eq_ok_iff_commits x₁).mpr hc₁
  have hread₂ := (a₂.read_eq_ok_iff_commits x₂).mpr hc₂
  rw [← hscript] at hread₂
  -- both commitments are written in the script of the first proof
  have hwritten₂ := hc₂
  rw [Commits, ← hscript] at hwritten₂
  rcases hc₁.eq_or_unmarked hwritten₂ with rfl | ⟨hnone, hoffsets⟩
  · rcases leaf_binding hc₁ hc₂ hslot₁ hslot₂ with hx | hclash
    · exact Or.inl hx
    · exact Or.inr (Or.inl hclash)
  · exact Or.inr (Or.inr ⟨hnone, c₁, c₂, hread₁, hread₂, hoffsets⟩)

/-- **One parent block works for one block of a chain.**  If two proofs whose parents have one
Merkle root are accepted, they hold for the same block hash, or two different messages among those
hashed in the two checks have one hash, or the coinbase script has no marker and is read twice;
with a marker only the first two are left.  The scripts are as long as a byte string in memory can
be: their lengths are words of 64 bits. -/
theorem check_binds (hroot : a₁.parent.merkleRoot = a₂.parent.merkleRoot)
    (hlen₁ : a₁.script.length < 2 ^ 64) (hlen₂ : a₂.script.length < 2 ^ 64)
    (h₁ : a₁.check x₁ chainId params = .ok ()) (h₂ : a₂.check x₂ chainId params = .ok ()) :
    (x₁ = x₂ ∨ ClashAmong (a₁.messages x₁ ++ a₂.messages x₂) ∨ ReadTwice a₁ a₂ x₁ x₂) ∧
      ((∃ i, Commitment.marker.OccursAt a₁.script i) →
        x₁ = x₂ ∨ ClashAmong (a₁.messages x₁ ++ a₂.messages x₂)) := by
  have hbinds :
      x₁ = x₂ ∨ ClashAmong (a₁.messages x₁ ++ a₂.messages x₂) ∨ ReadTwice a₁ a₂ x₁ x₂ := by
    rcases coinbase_binding hroot h₁ h₂ with hstripped | hclash
    · have hscript := script_binding ((check_eq_ok_iff ..).mp h₁).1
        ((check_eq_ok_iff ..).mp h₂).1 hlen₁ hlen₂ hstripped
      rcases binding_of_script_eq hscript h₁ h₂ with hx | hclash | htwice
      · exact Or.inl hx
      · exact Or.inr (Or.inl (hclash.append_mono (List.subset_append_right _ _)
          (List.subset_append_right _ _)))
      · exact Or.inr (Or.inr htwice)
    · exact Or.inr (Or.inl (hclash.append_mono (List.subset_append_left _ _)
        (List.subset_append_left _ _)))
  refine ⟨hbinds, fun ⟨i, hi⟩ => ?_⟩
  rcases hbinds with hx | hclash | ⟨hnone, -⟩
  · exact Or.inl hx
  · exact Or.inr hclash
  · exact absurd hi (hnone i)

/-- A coinbase whose script spells a commitment to the zero root at its start, and another one
eight bytes later that overlaps it. -/
def overlappingCoinbase : Transaction where
  version := 1
  inputs :=
    [⟨.null, List.replicate 32 0 ++ [1, 0, 0, 0, 0, 0, 0, 0, 1, 0, 0, 0, 0, 0, 0, 0], 0, []⟩]
  outputs := []
  lockTime := 0

/-- A proof of height 0 with that coinbase. -/
def overlappingProof : AuxProof where
  coinbase := overlappingCoinbase
  parentHash := .zero
  coinbaseBranch := {}
  chainBranch := {}
  parent := ⟨0, .zero, overlappingCoinbase.txid, 0, 0x207fffff, 2⟩

/-- Without a marker the same proof is accepted for both block hashes that its script spells. -/
theorem overlappingProof_binds :
    overlappingProof.check .zero 42 (.regtest 42) = .ok () ∧
      overlappingProof.check (.ofNat (2 ^ 56)) 42 (.regtest 42) = .ok () ∧
      (Hash256.zero = .ofNat (2 ^ 56) ∨
        ClashAmong
          (overlappingProof.messages .zero ++ overlappingProof.messages (.ofNat (2 ^ 56))) ∨
        ReadTwice overlappingProof overlappingProof .zero (.ofNat (2 ^ 56))) := by
  have h₁ : overlappingProof.check .zero 42 (.regtest 42) = .ok () := by decide +kernel
  have h₂ : overlappingProof.check (.ofNat (2 ^ 56)) 42 (.regtest 42) = .ok () := by
    decide +kernel
  exact ⟨h₁, h₂, (check_binds rfl (by decide) (by decide) h₁ h₂).1⟩

end MergedMining.AuxProof
