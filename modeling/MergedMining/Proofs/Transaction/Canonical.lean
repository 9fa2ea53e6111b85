import MergedMining.Proofs.Transaction
import MergedMining.Proofs.Wire.Canonical

/-!
# Transactions have one spelling

A transaction could be spelled in two forms.  Readers leave no choice between them: the form with
witnesses is refused where no input has one, unless there are no inputs at all, and then it is the
only form, since a count of zero is the marker.

## Main results

* `Witness.of_readElements_eq_ok` — a witness is read within its limit, and as it is written.
* `Transaction.canonical_read` — what is read as a transaction is what would be written for it.
-/

namespace MergedMining

open Wire (Canonical andThen_eq_ok_iff value_eq_ok_iff)

namespace TxIn

/-- An input is read without its witness. -/
theorem canonical_read :
    Canonical read write fun input => input.witness = [] ∧ input.script.length < 2 ^ 64 := by
  intro data input rest h
  rw [read_eq, andThen_eq_ok_iff] at h
  obtain ⟨txid, data₁, htxid, h⟩ := h
  obtain ⟨vout, data₂, hvout, h⟩ := andThen_eq_ok_iff.mp h
  obtain ⟨script, data₃, hscript, h⟩ := andThen_eq_ok_iff.mp h
  obtain ⟨sequence, data₄, hsequence, h⟩ := andThen_eq_ok_iff.mp h
  obtain ⟨rfl, rfl⟩ := value_eq_ok_iff.mp h
  obtain ⟨hlen, rfl⟩ := Wire.canonical_readBytes hscript
  refine ⟨⟨rfl, hlen⟩, ?_⟩
  rw [Wire.eq_of_hash_eq_ok htxid, Wire.eq_of_uint32_eq_ok hvout,
    Wire.eq_of_uint32_eq_ok hsequence, write]
  simp only [List.append_assoc]

/-- An input is written without its witness. -/
theorem writeList_stripped (inputs : List TxIn) :
    Wire.writeList write (inputs.map stripped) = Wire.writeList write inputs := by
  unfold Wire.writeList
  rw [List.length_map, List.flatMap_map]
  rfl

end TxIn

namespace TxOut

theorem canonical_read : Canonical read write (·.script.length < 2 ^ 64) := by
  intro data output rest h
  rw [read_eq, andThen_eq_ok_iff] at h
  obtain ⟨amount, data₁, hamount, h⟩ := h
  obtain ⟨script, data₂, hscript, h⟩ := andThen_eq_ok_iff.mp h
  obtain ⟨rfl, rfl⟩ := value_eq_ok_iff.mp h
  obtain ⟨hlen, rfl⟩ := Wire.canonical_readBytes hscript
  refine ⟨hlen, ?_⟩
  rw [Wire.eq_of_uint64_eq_ok hamount, write]
  simp only [List.append_assoc]

end TxOut

/-! ### Witnesses -/

namespace Witness

/-- Elements are read as they are written, and while they stay within the limit: by induction on
how many there are, with the bytes used so far. -/
theorem of_readElements_eq_ok {total count : Nat} :
    ∀ {used : Nat} {data rest : Bytes} {elements : List Bytes},
      readElements total count used data = .ok (elements, rest) →
      elements.length = count ∧ data = elements.flatMap Wire.writeBytes ++ rest ∧
        (used ≤ Wire.witnessLimit →
          used + (elements.flatMap Wire.writeBytes).length ≤ Wire.witnessLimit) := by
  induction count with
  | zero =>
    intro used data rest elements h
    cases h
    exact ⟨rfl, rfl, id⟩
  | succ count ih =>
    intro used data rest elements h
    rw [readElements_succ, andThen_eq_ok_iff] at h
    obtain ⟨length, data₁, hlength, h⟩ := h
    by_cases hover : used + length + Wire.VarInt.size length > Wire.witnessLimit
    · rw [if_pos hover] at h
      cases h
    rw [if_neg hover, andThen_eq_ok_iff] at h
    obtain ⟨element, data₂, htake, h⟩ := h
    obtain ⟨elements', data₃, helements, h⟩ := andThen_eq_ok_iff.mp h
    obtain ⟨rfl, rfl⟩ := value_eq_ok_iff.mp h
    obtain ⟨-, rfl⟩ := Wire.VarInt.canonical_read hlength
    obtain ⟨rfl, rfl⟩ := Wire.canonical_take length htake
    obtain ⟨hlen, rfl, hlimit⟩ := ih helements
    rw [List.flatMap_cons, List.length_append, length_writeBytes]
    refine ⟨by rw [List.length_cons, hlen], ?_, fun _ => ?_⟩
    · rw [Wire.writeBytes, List.append_assoc, List.append_assoc]
      rfl
    · have hlimit := hlimit (by omega)
      omega

theorem canonical_read :
    Canonical read write fun elements =>
      (elements.flatMap Wire.writeBytes).length ≤ Wire.witnessLimit := by
  intro data elements rest h
  rw [read_eq, andThen_eq_ok_iff] at h
  obtain ⟨count, middle, hcount, h⟩ := h
  by_cases hover : count > Wire.witnessLimit
  · rw [if_pos hover] at h
    cases h
  rw [if_neg hover] at h
  obtain ⟨-, rfl⟩ := Wire.VarInt.canonical_read hcount
  obtain ⟨rfl, rfl, hlimit⟩ := of_readElements_eq_ok h
  refine ⟨?_, ?_⟩
  · have hlimit := hlimit (Nat.zero_le _)
    omega
  · rw [write, Wire.writeList, List.append_assoc]

/-- One witness is read for each input; nothing else about the inputs changes. -/
theorem of_readEach_eq_ok {inputs : List TxIn} :
    ∀ {data rest : Bytes} {outs : List TxIn}, readEach inputs data = .ok (outs, rest) →
      outs.map TxIn.stripped = inputs.map TxIn.stripped ∧
        (∀ input ∈ outs,
          (input.witness.flatMap Wire.writeBytes).length ≤ Wire.witnessLimit) ∧
        data = outs.flatMap (fun input => write input.witness) ++ rest := by
  induction inputs with
  | nil =>
    intro data rest outs h
    cases h
    exact ⟨rfl, fun input hinput => absurd hinput List.not_mem_nil, rfl⟩
  | cons input inputs ih =>
    intro data rest outs h
    rw [readEach_cons, andThen_eq_ok_iff] at h
    obtain ⟨witness, data₁, hwitness, h⟩ := h
    obtain ⟨outs', data₂, houts, h⟩ := andThen_eq_ok_iff.mp h
    obtain ⟨rfl, rfl⟩ := value_eq_ok_iff.mp h
    obtain ⟨hlimit, rfl⟩ := canonical_read hwitness
    obtain ⟨hstripped, hlimits, rfl⟩ := ih houts
    refine ⟨?_, List.forall_mem_cons.mpr ⟨hlimit, hlimits⟩, ?_⟩
    · rw [List.map_cons, List.map_cons, hstripped]
      rfl
    · rw [List.flatMap_cons, List.append_assoc]

end Witness

/-! ### The two forms -/

namespace Transaction

/-- What can be written and is read back. -/
def Fit (tx : Transaction) : Prop := tx.Sized ∧ tx.WithinLimit

/-- The count and the lengths of inputs are those of the inputs without their witnesses. -/
theorem sized_of_stripped_eq {inputs outs : List TxIn}
    (hstripped : outs.map TxIn.stripped = inputs.map TxIn.stripped)
    (hcount : inputs.length < 2 ^ 64)
    (hlen : ∀ input ∈ inputs, input.script.length < 2 ^ 64) :
    outs.length < 2 ^ 64 ∧ ∀ input ∈ outs, input.script.length < 2 ^ 64 := by
  constructor
  · have hlength := congrArg List.length hstripped
    rw [List.length_map, List.length_map] at hlength
    rwa [hlength]
  · intro out hout
    have hmem : out.stripped ∈ inputs.map TxIn.stripped :=
      hstripped ▸ List.mem_map_of_mem hout
    obtain ⟨input, hinput, heq⟩ := List.mem_map.mp hmem
    have hscript : input.stripped.script = out.stripped.script := congrArg TxIn.script heq
    change input.script = out.script at hscript
    exact hscript ▸ hlen input hinput

/-- The form with witnesses is read only where it is the one that would be written. -/
theorem of_readWitnessForm_eq_ok {version : UInt32} {data rest : Bytes} {tx : Transaction}
    (h : readWitnessForm version data = .ok (tx, rest)) :
    tx.Fit ∧ Bytes.ofUInt32 version ++ (0 :: data) = tx.write ++ rest := by
  rw [readWitnessForm_eq, andThen_eq_ok_iff] at h
  obtain ⟨flag, data₁, hflag, h⟩ := h
  by_cases hone : flag = 1
  case neg =>
    rw [if_neg hone] at h
    cases h
  rw [if_pos hone, andThen_eq_ok_iff] at h
  obtain ⟨inputs, data₂, hinputs, h⟩ := h
  obtain ⟨outputs, data₃, houtputs, h⟩ := andThen_eq_ok_iff.mp h
  obtain ⟨outs, data₄, houts, h⟩ := andThen_eq_ok_iff.mp h
  by_cases hmissing : (!outs.isEmpty && outs.all (·.witness.isEmpty)) = true
  case pos =>
    rw [if_pos hmissing] at h
    cases h
  rw [if_neg hmissing, andThen_eq_ok_iff] at h
  obtain ⟨lockTime, data₅, hlockTime, h⟩ := h
  obtain ⟨rfl, rfl⟩ := value_eq_ok_iff.mp h
  obtain ⟨⟨hcount, hlen⟩, rfl⟩ := TxIn.canonical_read.readList hinputs
  obtain ⟨⟨hcount', hlen'⟩, rfl⟩ := TxOut.canonical_read.readList houtputs
  obtain ⟨hstripped, hlimit, rfl⟩ := Witness.of_readEach_eq_ok houts
  obtain ⟨hsize, hsizes⟩ := sized_of_stripped_eq hstripped hcount fun input hinput =>
    (hlen input hinput).2
  refine ⟨⟨⟨hsize, hsizes, hcount', hlen'⟩, hlimit⟩, ?_⟩
  -- the witnesses that are there are the reason to write this form
  have hform : hasWitnessForm ⟨version, outs, outputs, lockTime⟩ = true := by
    rw [← Bool.not_eq_false', ← noWitnesses_test]
    exact Bool.eq_false_iff.mpr hmissing
  have hwritten : Wire.writeList TxIn.write inputs = Wire.writeList TxIn.write outs := by
    rw [← TxIn.writeList_stripped, ← hstripped, TxIn.writeList_stripped]
  rw [write, if_pos hform, Wire.eq_of_byte_eq_ok hflag, hone, hwritten,
    Wire.eq_of_uint32_eq_ok hlockTime]
  simp only [List.append_assoc, List.cons_append, List.nil_append]

/-- Without witnesses and with inputs the plain form is the one that is written. -/
theorem plain_of_inputs (tx : Transaction) (hne : tx.inputs.isEmpty = false)
    (hwitness : ∀ input ∈ tx.inputs, input.witness = []) : tx.hasWitnessForm = false := by
  refine Bool.or_eq_false_iff.mpr ⟨hne, List.any_eq_false.mpr fun input hinput => ?_⟩
  rw [hwitness input hinput]
  decide

/-- **A transaction has one spelling**: what is read as a transaction is what would be written for
it, in the form that would be chosen. -/
theorem canonical_read : Canonical read write Fit := by
  intro data tx rest h
  rw [read_eq, andThen_eq_ok_iff] at h
  obtain ⟨version, data₁, hversion, h⟩ := h
  obtain ⟨inputs, data₂, hinputs, hbody⟩ := andThen_eq_ok_iff.mp h
  obtain ⟨⟨hcount, hfit⟩, rfl⟩ := TxIn.canonical_read.readList hinputs
  rw [Wire.eq_of_uint32_eq_ok hversion]
  cases hempty : inputs.isEmpty with
  | true =>
    -- a count of zero is the marker of the form with witnesses
    obtain rfl : inputs = [] := List.isEmpty_iff.mp hempty
    exact of_readWitnessForm_eq_ok hbody
  | false =>
    rw [hempty, if_neg Bool.false_ne_true, andThen_eq_ok_iff] at hbody
    obtain ⟨outputs, data₃, houtputs, htail⟩ := hbody
    obtain ⟨lockTime, data₄, hlockTime, hvalue⟩ := andThen_eq_ok_iff.mp htail
    obtain ⟨rfl, rfl⟩ := value_eq_ok_iff.mp hvalue
    obtain ⟨⟨hcount', hlen'⟩, rfl⟩ := TxOut.canonical_read.readList houtputs
    have hwitness : ∀ input ∈ inputs, input.witness = [] := fun input hinput =>
      (hfit input hinput).1
    have hform := plain_of_inputs ⟨version, inputs, outputs, lockTime⟩ hempty hwitness
    refine ⟨⟨⟨hcount, fun input hinput => (hfit input hinput).2, hcount', hlen'⟩, ?_⟩, ?_⟩
    · intro input hinput
      rw [hwitness input hinput]
      exact Nat.zero_le _
    · rw [write, if_neg (by rw [hform]; decide), writeStripped, Wire.eq_of_uint32_eq_ok hlockTime]
      simp only [List.append_assoc]

end Transaction

end MergedMining
