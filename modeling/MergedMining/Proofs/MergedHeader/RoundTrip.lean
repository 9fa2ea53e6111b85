import MergedMining.MergedHeader
import MergedMining.Proofs.Merkle.Wire
import MergedMining.Proofs.Transaction
import MergedMining.Proofs.Version.Fields

/-!
# Reading written headers back

Header, coinbase, branches and parent header stand one behind the other without the length of the
whole, and only the flag in the version tells whether a proof follows.  Where the flag says what is
attached, a written header reads back as itself, and what follows it stays unread.  Where it does
not, reading fails: a proof that is announced and missing ends the input too early, and one that is
not announced is left over.

A written header is also exact as an input of its own: cut at any place it ends too early, and
whatever follows it is left over.

## Main definitions

* `MergedHeader.Sized`, `MergedHeader.WithinLimit` — the proof can be written and read.
* `MergedHeader.Agrees` — a proof is attached exactly if the version announces one.

## Main results

* `MergedHeader.spells_write` — such a header frames itself.
* `MergedHeader.read_undoes_write` — headers read back, alone and in a stream, if flag and proof
  agree, and fail to be read if they do not.
* `MergedHeader.written_exact` — a written header that is cut short or followed by more is refused,
  each with its own error.
-/

namespace MergedMining

open Wire (Spells andThen value)

namespace BlockHeader

theorem read_eq : read = andThen Wire.uint32 fun version => andThen Wire.hash fun prev =>
    andThen Wire.hash fun merkleRoot => andThen Wire.uint32 fun time =>
    andThen Wire.uint32 fun bits => andThen Wire.uint32 fun nonce =>
    value ⟨version, prev, merkleRoot, time, bits, nonce⟩ := rfl

theorem spells_write (header : BlockHeader) : Spells read header.write header := by
  rw [read_eq, write]
  simp only [List.append_assoc]
  exact (Wire.spells_uint32 _).andThen ((Wire.spells_hash _).andThen ((Wire.spells_hash _).andThen
    ((Wire.spells_uint32 _).andThen ((Wire.spells_uint32 _).andThen
      ((Wire.spells_uint32 _).map _)))))

end BlockHeader

namespace AuxProof

/-- Lists and byte strings of a proof are as long as they can be in memory. -/
structure Sized (proof : AuxProof) : Prop where
  /-- The counts and lengths of the coinbase. -/
  coinbase : proof.coinbase.Sized
  /-- The count of the coinbase branch. -/
  coinbaseBranch : proof.coinbaseBranch.hashes.length < 2 ^ 64
  /-- The count of the chain branch. -/
  chainBranch : proof.chainBranch.hashes.length < 2 ^ 64

variable {proof : AuxProof}

theorem read_eq : read = andThen Transaction.read fun coinbase => andThen Wire.hash fun parentHash =>
    andThen Merkle.Branch.read fun coinbaseBranch => andThen Merkle.Branch.read fun chainBranch =>
    andThen BlockHeader.read fun parent =>
    value ⟨coinbase, parentHash, coinbaseBranch, chainBranch, parent⟩ := rfl

/-- **A proof frames itself.** -/
theorem spells_write (hsized : proof.Sized) (hlimit : proof.coinbase.WithinLimit) :
    Spells read proof.write proof := by
  rw [read_eq, write]
  simp only [List.append_assoc]
  exact (Transaction.spells_write hsized.coinbase hlimit).andThen ((Wire.spells_hash _).andThen
    ((Merkle.Branch.spells_write hsized.coinbaseBranch).andThen
      ((Merkle.Branch.spells_write hsized.chainBranch).andThen
        ((BlockHeader.spells_write _).map _))))

theorem write_ne_nil (proof : AuxProof) : proof.write ≠ [] := by
  have hparent := proof.parent.length_write
  rw [← List.length_pos_iff, write, List.length_append]
  omega

theorem read_nil : read [] = .error .endOfInput := rfl

end AuxProof

namespace MergedHeader

/-- Lists and byte strings of the proof, if any, are as long as they can be in memory. -/
def Sized (h : MergedHeader) : Prop := ∀ proof, h.proof = some proof → proof.Sized

/-- No witness in the coinbase of the proof, if any, takes more bytes than a reader allows. -/
def WithinLimit (h : MergedHeader) : Prop :=
  ∀ proof, h.proof = some proof → proof.coinbase.WithinLimit

/-- A proof is attached exactly if the flag's bit is set in the version. -/
def Agrees (layout : Version.Layout) (h : MergedHeader) : Prop :=
  h.proof.isSome = h.header.version.toNat.testBit layout.flagBit

instance (layout : Version.Layout) (h : MergedHeader) : Decidable (h.Agrees layout) :=
  inferInstanceAs (Decidable (_ = _))

variable {layout : Version.Layout} {h : MergedHeader}

theorem read_eq (layout : Version.Layout) : read layout =
    andThen BlockHeader.read fun header rest =>
      if (layout.decode header.version).merged then
        andThen AuxProof.read (fun proof => value ⟨header, some proof⟩) rest
      else value ⟨header, none⟩ rest := rfl

theorem write_ne_nil (h : MergedHeader) : h.write ≠ [] := by
  have hheader := h.header.length_write
  rw [← List.length_pos_iff, write]
  cases h.proof <;> simp only [List.length_append] <;> omega

/-- **A header frames itself** if its flag says what is attached. -/
theorem spells_write (hsized : h.Sized) (hlimit : h.WithinLimit) (hagrees : h.Agrees layout) :
    Spells (read layout) h.write h := by
  obtain ⟨header, proof⟩ := h
  rw [Agrees, ← Version.Layout.decode_merged] at hagrees
  rw [read_eq, write]
  cases proof with
  | none =>
    rw [← List.append_nil (BlockHeader.write _)]
    refine (BlockHeader.spells_write header).andThen ?_
    simp only [← hagrees, Option.isSome_none, Bool.false_eq_true, if_false]
    exact .value _
  | some proof =>
    refine (BlockHeader.spells_write header).andThen ?_
    simp only [← hagrees, Option.isSome_some, if_true]
    exact (AuxProof.spells_write (hsized proof rfl) (hlimit proof rfl)).map _

/-- Whatever stands behind a header is read as its proof if the flag's bit is set, and left unread
otherwise. -/
theorem read_header_append (layout : Version.Layout) (header : BlockHeader) (rest : Bytes) :
    read layout (header.write ++ rest) =
      if header.version.toNat.testBit layout.flagBit then
        andThen AuxProof.read (fun proof => value ⟨header, some proof⟩) rest
      else .ok (⟨header, none⟩, rest) := by
  rw [read_eq, andThen, (BlockHeader.spells_write header).reads,
    ← Version.Layout.decode_merged]
  rfl

/-- A proof that is announced and missing ends the input too early. -/
theorem ofBytes_write_of_missing (hnone : h.proof = none) (hdisagrees : ¬ h.Agrees layout) :
    ofBytes layout h.write = .error .endOfInput := by
  have hflag : h.header.version.toNat.testBit layout.flagBit = true := by
    rw [Agrees, hnone] at hdisagrees
    exact Bool.eq_true_of_not_eq_false fun hclear => hdisagrees hclear.symm
  have hread : read layout (h.header.write ++ []) = .error .endOfInput := by
    rw [read_header_append, if_pos hflag, andThen, AuxProof.read_nil]
    rfl
  rw [List.append_nil] at hread
  rw [ofBytes, Wire.entire, write, hnone, hread]
  rfl

/-- A proof that is not announced is left over. -/
theorem ofBytes_write_of_unannounced {proof : AuxProof} (hproof : h.proof = some proof)
    (hdisagrees : ¬ h.Agrees layout) : ofBytes layout h.write = .error .trailingBytes := by
  have hflag : ¬ h.header.version.toNat.testBit layout.flagBit = true := by
    rw [Agrees, hproof] at hdisagrees
    exact fun hset => hdisagrees hset.symm
  have hread : read layout (h.header.write ++ proof.write) =
      .ok (⟨h.header, none⟩, proof.write) := by
    rw [read_header_append, if_neg hflag]
  have hleft : ¬ proof.write.isEmpty = true := by
    rw [List.isEmpty_iff]
    exact proof.write_ne_nil
  rw [ofBytes, Wire.entire, write, hproof, hread]
  exact if_neg hleft

/-- **Reading undoes writing** for headers whose flag says what is attached: whatever follows stays
unread, and headers written one behind the other read back as their list.  Where the flag says
something else, reading the header back fails. -/
theorem read_undoes_write (layout : Version.Layout) :
    (∀ h : MergedHeader, h.Sized → h.WithinLimit → h.Agrees layout →
      ∀ tail, read layout (h.write ++ tail) = .ok (h, tail)) ∧
    (∀ hs : List MergedHeader, (∀ h ∈ hs, h.Sized ∧ h.WithinLimit ∧ h.Agrees layout) →
      Wire.untilEnd (read layout) (hs.flatMap write) = .ok hs) ∧
    ∀ h : MergedHeader, ¬ h.Agrees layout →
      (h.proof = none → ofBytes layout h.write = .error .endOfInput) ∧
      (h.proof ≠ none → ofBytes layout h.write = .error .trailingBytes) := by
  refine ⟨?_, ?_, ?_⟩
  · intro h hsized hlimit hagrees tail
    exact (spells_write hsized hlimit hagrees).reads tail
  · intro hs hall
    refine Wire.untilEnd_flatMap fun h hmem => ?_
    obtain ⟨hsized, hlimit, hagrees⟩ := hall h hmem
    exact ⟨spells_write hsized hlimit hagrees, h.write_ne_nil⟩
  · intro h hdisagrees
    refine ⟨fun hnone => ofBytes_write_of_missing hnone hdisagrees, fun hsome => ?_⟩
    obtain ⟨proof, hproof⟩ := Option.ne_none_iff_exists'.mp hsome
    exact ofBytes_write_of_unannounced hproof hdisagrees

/-- A flagged header with a proof whose coinbase has a witness. -/
def witnessed : MergedHeader :=
  ⟨⟨0x2a0100, .zero, .zero, 0, 0x207fffff, 0⟩,
    some ⟨⟨1, [⟨.null, [0x51], 0, [[7]]⟩], [⟨0, [0x6a]⟩], 0⟩, .zero, ⟨[.zero], 0⟩, {},
      ⟨0, .zero, .zero, 0, 0x207fffff, 0⟩⟩⟩

/-- It reads back from a longer input and, written twice, as a list; under a layout with the flag
elsewhere its proof is left over, and without its proof the input ends too early. -/
theorem witnessed_round_trip :
    (witnessed.Sized ∧ witnessed.WithinLimit ∧ witnessed.Agrees .standard) ∧
      read .standard (witnessed.write ++ [1, 2]) = .ok (witnessed, [1, 2]) ∧
      Wire.untilEnd (read .standard) ([witnessed, witnessed].flatMap write) =
        .ok [witnessed, witnessed] ∧
      ofBytes ⟨0, 16, by decide, by decide⟩ witnessed.write = .error .trailingBytes ∧
      ofBytes .standard witnessed.detach.2.write = .error .endOfInput := by
  have hsized : witnessed.Sized := by
    rintro proof ⟨⟩
    exact ⟨⟨by decide, by decide, by decide, by decide⟩, by decide, by decide⟩
  have hlimit : witnessed.WithinLimit := by
    rintro proof ⟨⟩
    exact List.forall_mem_singleton.mpr (by decide)
  have hagrees : witnessed.Agrees .standard := by decide
  obtain ⟨hread, hstream, hmissing⟩ := read_undoes_write .standard
  obtain ⟨-, -, hleft⟩ := read_undoes_write ⟨0, 16, by decide, by decide⟩
  refine ⟨⟨hsized, hlimit, hagrees⟩, hread _ hsized hlimit hagrees _, hstream _ ?_, ?_, ?_⟩
  · intro h hmem
    obtain rfl : h = witnessed := by simpa using hmem
    exact ⟨hsized, hlimit, hagrees⟩
  · exact (hleft witnessed (by decide)).2 (by decide)
  · exact (hmissing witnessed.detach.2 (by decide)).1 rfl

/-- **A written header is exact** if its flag says what is attached: nothing short of it is enough,
be it empty, the bare header or cut inside a count, a hash or a witness, and nothing behind it goes
unnoticed. -/
theorem written_exact (hsized : h.Sized) (hlimit : h.WithinLimit) (hagrees : h.Agrees layout) :
    ofBytes layout h.write = .ok h ∧
      (∀ count < h.write.length, ofBytes layout (h.write.take count) = .error .endOfInput) ∧
      ∀ tail, tail ≠ [] → ofBytes layout (h.write ++ tail) = .error .trailingBytes := by
  have hspells : Spells (read layout) h.write h := spells_write hsized hlimit hagrees
  refine ⟨hspells.entire_self, ?_, ?_⟩
  · intro count hcount
    exact hspells.entire_take hcount
  · intro tail htail
    exact hspells.entire_append htail

theorem witnessed_fits :
    witnessed.Sized ∧ witnessed.WithinLimit ∧ witnessed.Agrees .standard := by
  refine ⟨?_, ?_, by decide⟩
  · rintro proof ⟨⟩
    exact ⟨⟨by decide, by decide, by decide, by decide⟩, by decide, by decide⟩
  · rintro proof ⟨⟩
    exact List.forall_mem_singleton.mpr (by decide)

/-- The header with its proof is cut to nothing, behind its own eighty bytes and before its last
byte, and followed by a zero. -/
theorem witnessed_exact :
    (witnessed.Sized ∧ witnessed.WithinLimit ∧ witnessed.Agrees .standard) ∧
      ofBytes .standard [] = .error .endOfInput ∧
      ofBytes .standard witnessed.header.write = .error .endOfInput ∧
      ofBytes .standard witnessed.write.dropLast = .error .endOfInput ∧
      ofBytes .standard (witnessed.write ++ [0]) = .error .trailingBytes := by
  obtain ⟨hsized, hlimit, hagrees⟩ := witnessed_fits
  have hlength : 80 < witnessed.write.length := by
    have hproof := List.length_pos_iff.mpr (AuxProof.write_ne_nil (witnessed.proof.get rfl))
    have hwhole : witnessed.write = witnessed.header.write ++ (witnessed.proof.get rfl).write := rfl
    have hheader := witnessed.header.length_write
    rw [hwhole, List.length_append]
    omega
  obtain ⟨-, hcut, hmore⟩ := written_exact hsized hlimit hagrees
  refine ⟨⟨hsized, hlimit, hagrees⟩, hcut 0 (by omega), ?_, ?_, hmore [0] (by decide)⟩
  · exact hcut 80 hlength
  · rw [List.dropLast_eq_take]
    exact hcut _ (by omega)

end MergedHeader

end MergedMining
