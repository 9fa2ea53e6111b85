import MergedMining.Proofs.MergedHeader.RoundTrip
import MergedMining.Proofs.Transaction.Canonical

/-!
# Headers have one spelling

Headers travel between peers that do not trust each other, so nobody on the way may be able to
change the bytes of a header and leave the header as it is.  What a reader accepts is what would be
written for the header it gives, down to the last count; so the bytes and the header determine each
other.  The layout under which a whole input is read only tells whether it is accepted: accepted
under two layouts, it is one header.

## Main results

* `AuxProof.canonical_read` — what is read as a proof is what would be written for it.
* `MergedHeader.canonical_read` — and so for a header, whose flag says what is attached.
* `MergedHeader.write_undoes_read` — the bytes that read as a header, and what follows for two inputs
  that do.
-/

namespace MergedMining

open Wire (Canonical andThen_eq_ok_iff value_eq_ok_iff)

/-- Bytes spell one value for a reader. -/
theorem Wire.Spells.unique {α : Type} {reader : Wire.Reader α} {bs : Bytes} {x y : α}
    (hx : Wire.Spells reader bs x) (hy : Wire.Spells reader bs y) : x = y := by
  have hread := hx.reads []
  rw [hy.reads [], Except.ok.injEq, Prod.mk.injEq] at hread
  exact hread.1.symm

theorem BlockHeader.canonical_read : Canonical read write fun _ => True := by
  intro data header rest h
  rw [read_eq, andThen_eq_ok_iff] at h
  obtain ⟨version, data₁, hversion, h⟩ := h
  obtain ⟨prev, data₂, hprev, h⟩ := andThen_eq_ok_iff.mp h
  obtain ⟨merkleRoot, data₃, hroot, h⟩ := andThen_eq_ok_iff.mp h
  obtain ⟨time, data₄, htime, h⟩ := andThen_eq_ok_iff.mp h
  obtain ⟨bits, data₅, hbits, h⟩ := andThen_eq_ok_iff.mp h
  obtain ⟨nonce, data₆, hnonce, h⟩ := andThen_eq_ok_iff.mp h
  obtain ⟨rfl, rfl⟩ := value_eq_ok_iff.mp h
  refine ⟨trivial, ?_⟩
  rw [Wire.eq_of_uint32_eq_ok hversion, Wire.eq_of_hash_eq_ok hprev, Wire.eq_of_hash_eq_ok hroot,
    Wire.eq_of_uint32_eq_ok htime, Wire.eq_of_uint32_eq_ok hbits, Wire.eq_of_uint32_eq_ok hnonce,
    write]
  simp only [List.append_assoc]

/-! ### Proofs -/

namespace AuxProof

/-- What can be written and is read back. -/
def Fit (proof : AuxProof) : Prop := proof.Sized ∧ proof.coinbase.WithinLimit

/-- **A proof has one spelling.** -/
theorem canonical_read : Canonical read write Fit := by
  intro data proof rest h
  rw [read_eq, andThen_eq_ok_iff] at h
  obtain ⟨coinbase, data₁, hcoinbase, h⟩ := h
  obtain ⟨parentHash, data₂, hhash, h⟩ := andThen_eq_ok_iff.mp h
  obtain ⟨coinbaseBranch, data₃, hcoinbaseBranch, h⟩ := andThen_eq_ok_iff.mp h
  obtain ⟨chainBranch, data₄, hchainBranch, h⟩ := andThen_eq_ok_iff.mp h
  obtain ⟨parent, data₅, hparent, h⟩ := andThen_eq_ok_iff.mp h
  obtain ⟨rfl, rfl⟩ := value_eq_ok_iff.mp h
  obtain ⟨⟨hsized, hlimit⟩, rfl⟩ := Transaction.canonical_read hcoinbase
  obtain ⟨hlen, rfl⟩ := Merkle.Branch.canonical_read hcoinbaseBranch
  obtain ⟨hlen', rfl⟩ := Merkle.Branch.canonical_read hchainBranch
  obtain ⟨-, rfl⟩ := BlockHeader.canonical_read hparent
  refine ⟨⟨⟨hsized, hlen, hlen'⟩, hlimit⟩, ?_⟩
  rw [Wire.eq_of_hash_eq_ok hhash, write]
  simp only [List.append_assoc]

theorem eq_of_write_eq {proof proof' : AuxProof} (hfit : proof.Fit) (hfit' : proof'.Fit)
    (h : proof.write = proof'.write) : proof = proof' := by
  have hspells := spells_write hfit.1 hfit.2
  rw [h] at hspells
  exact hspells.unique (spells_write hfit'.1 hfit'.2)

end AuxProof

/-! ### Headers -/

namespace MergedHeader

variable {layout : Version.Layout} {h h' : MergedHeader} {data rest : Bytes}

/-- **A header has one spelling**, and a proof is read behind it exactly if its flag says so. -/
theorem canonical_read (layout : Version.Layout) :
    Canonical (read layout) write fun h => h.Agrees layout ∧ h.Sized ∧ h.WithinLimit := by
  intro data h rest hread
  rw [read_eq, andThen_eq_ok_iff] at hread
  obtain ⟨header, middle, hheader, hread⟩ := hread
  obtain ⟨-, rfl⟩ := BlockHeader.canonical_read hheader
  rw [Version.Layout.decode_merged] at hread
  cases hflag : header.version.toNat.testBit layout.flagBit with
  | true =>
    rw [if_pos hflag, andThen_eq_ok_iff] at hread
    obtain ⟨proof, data₁, hproof, hvalue⟩ := hread
    obtain ⟨rfl, rfl⟩ := value_eq_ok_iff.mp hvalue
    obtain ⟨hfit, rfl⟩ := AuxProof.canonical_read hproof
    refine ⟨⟨hflag.symm, ?_, ?_⟩, (List.append_assoc ..).symm⟩
    · rintro proof' ⟨⟩
      exact hfit.1
    · rintro proof' ⟨⟩
      exact hfit.2
  | false =>
    rw [if_neg (by rw [hflag]; decide)] at hread
    obtain ⟨rfl, rfl⟩ := value_eq_ok_iff.mp hread
    refine ⟨⟨hflag.symm, ?_, ?_⟩, rfl⟩
    · rintro proof' ⟨⟩
    · rintro proof' ⟨⟩

/-- The bytes that read as a header. -/
theorem read_eq_ok_iff :
    read layout data = .ok (h, rest) ↔
      data = h.write ++ rest ∧ h.Agrees layout ∧ h.Sized ∧ h.WithinLimit := by
  constructor
  · intro hread
    obtain ⟨hfit, hdata⟩ := canonical_read layout hread
    exact ⟨hdata, hfit⟩
  · rintro ⟨rfl, hagrees, hsized, hlimit⟩
    exact (spells_write hsized hlimit hagrees).reads rest

theorem read_of_ofBytes (hbytes : ofBytes layout data = .ok h) :
    read layout data = .ok (h, []) := by
  unfold ofBytes Wire.entire at hbytes
  cases hread : read layout data with
  | error e => rw [hread] at hbytes; cases hbytes
  | ok taken =>
    obtain ⟨h', rest⟩ := taken
    rw [hread] at hbytes
    change (if rest.isEmpty = true then Except.ok h' else .error Wire.Error.trailingBytes) = _ at hbytes
    by_cases hrest : rest.isEmpty = true
    · rw [if_pos hrest] at hbytes
      cases hbytes
      rw [List.isEmpty_iff.mp hrest]
    · rw [if_neg hrest] at hbytes
      cases hbytes

theorem eq_write_of_ofBytes (hbytes : ofBytes layout data = .ok h) :
    data = h.write ∧ h.Sized ∧ h.WithinLimit := by
  obtain ⟨hdata, -, hsized, hlimit⟩ := read_eq_ok_iff.mp (read_of_ofBytes hbytes)
  rw [List.append_nil] at hdata
  exact ⟨hdata, hsized, hlimit⟩

/-- What is attached to a header is all that stands behind its eighty bytes. -/
theorem write_eq_append (h : MergedHeader) :
    h.write = h.header.write ++ h.proof.elim [] AuxProof.write := by
  unfold write
  cases h.proof with
  | none => exact (List.append_nil _).symm
  | some proof => rfl

/-- Headers are determined by what is written for them, whatever their flags say: the first eighty
bytes are the header, and no proof is spelled by no bytes. -/
theorem eq_of_write_eq (hsized : h.Sized) (hlimit : h.WithinLimit) (hsized' : h'.Sized)
    (hlimit' : h'.WithinLimit) (hwrite : h.write = h'.write) : h = h' := by
  obtain ⟨header, proof⟩ := h
  obtain ⟨header', proof'⟩ := h'
  rw [write_eq_append, write_eq_append] at hwrite
  have hlen : header.write.length = header'.write.length := by
    rw [BlockHeader.length_write, BlockHeader.length_write]
  obtain ⟨hheader, hattached⟩ := List.append_inj hwrite hlen
  have hspells := BlockHeader.spells_write header
  rw [hheader] at hspells
  obtain rfl : header = header' := hspells.unique (BlockHeader.spells_write header')
  cases proof with
  | none =>
    cases proof' with
    | none => rfl
    | some proof' => exact absurd hattached.symm proof'.write_ne_nil
  | some proof =>
    cases proof' with
    | none => exact absurd hattached proof.write_ne_nil
    | some proof' =>
      rw [AuxProof.eq_of_write_eq ⟨hsized _ rfl, hlimit _ rfl⟩ ⟨hsized' _ rfl, hlimit' _ rfl⟩
        hattached]

/-- **Writing undoes reading.**  A header is read from the front of an input exactly if the input
starts with what is written for it, a proof being attached exactly if the flag's bit is set, and its
counts, lengths and witnesses are within their bounds.  So no two inputs read as one header, under
whatever layouts, and one input that reads under two layouts gives one header. -/
theorem write_undoes_read :
    (∀ (layout : Version.Layout) (data : Bytes) (h : MergedHeader) (rest : Bytes),
      read layout data = .ok (h, rest) ↔
        data = h.write ++ rest ∧ h.Agrees layout ∧ h.Sized ∧ h.WithinLimit) ∧
    (∀ (layout₁ layout₂ : Version.Layout) (data₁ data₂ : Bytes) (h : MergedHeader),
      ofBytes layout₁ data₁ = .ok h → ofBytes layout₂ data₂ = .ok h → data₁ = data₂) ∧
    ∀ (layout₁ layout₂ : Version.Layout) (data : Bytes) (h₁ h₂ : MergedHeader),
      ofBytes layout₁ data = .ok h₁ → ofBytes layout₂ data = .ok h₂ → h₁ = h₂ := by
  refine ⟨fun layout data h rest => read_eq_ok_iff, ?_, ?_⟩
  · intro layout₁ layout₂ data₁ data₂ h hbytes₁ hbytes₂
    rw [(eq_write_of_ofBytes hbytes₁).1, (eq_write_of_ofBytes hbytes₂).1]
  · intro layout₁ layout₂ data h₁ h₂ hbytes₁ hbytes₂
    obtain ⟨hdata₁, hsized₁, hlimit₁⟩ := eq_write_of_ofBytes hbytes₁
    obtain ⟨hdata₂, hsized₂, hlimit₂⟩ := eq_write_of_ofBytes hbytes₂
    exact eq_of_write_eq hsized₁ hlimit₁ hsized₂ hlimit₂ (hdata₁.symm.trans hdata₂)

/-- A header whose coinbase has a witness, in front of other bytes, and alone under two layouts whose
chain ids differ in width. -/
theorem witnessed_one_spelling :
    (read .standard (witnessed.write ++ [1, 2]) = .ok (witnessed, [1, 2]) ∧
      witnessed.Agrees .standard) ∧
    ofBytes .standard witnessed.write = .ok witnessed ∧
    ∃ h, ofBytes ⟨8, 20, by decide, by decide⟩ witnessed.write = .ok h ∧ witnessed = h := by
  obtain ⟨hread, -, hsame⟩ := write_undoes_read
  have hfront : read .standard (witnessed.write ++ [1, 2]) = .ok (witnessed, [1, 2]) := by rfl
  have hstandard : ofBytes .standard witnessed.write = .ok witnessed := by rfl
  have hwide : ofBytes ⟨8, 20, by decide, by decide⟩ witnessed.write = .ok witnessed := by rfl
  exact ⟨⟨hfront, ((hread _ _ _ _).mp hfront).2.1⟩, hstandard,
    witnessed, hwide, hsame _ _ _ _ _ hstandard hwide⟩

end MergedHeader

end MergedMining
