import MergedMining.Proofs.Wire.Framing
import MergedMining.Transaction

/-!
# Transactions frame themselves

A transaction has two forms on the wire.  The one without witnesses starts with the count of its
inputs; the other one has a zero in this place, which no transaction in the first form has, and its
witnesses behind the outputs.  Either way reading gives back the transaction that was written, if
the elements of each witness stay within the limit of a reader.

## Main definitions

* `Transaction.Sized` — counts and lengths are words of 64 bits.
* `Transaction.WithinLimit` — no witness takes more bytes than a reader allows.

## Main results

* `Transaction.spells_write` — a transaction frames itself.
-/

namespace MergedMining

open Wire (Spells andThen value)

namespace TxIn

/-- An input without its witness. -/
def stripped (input : TxIn) : TxIn := { input with witness := [] }

theorem read_eq : read = andThen Wire.hash fun txid => andThen Wire.uint32 fun vout =>
    andThen Wire.readBytes fun script => andThen Wire.uint32 fun sequence =>
    value ⟨⟨txid, vout⟩, script, sequence, []⟩ := rfl

theorem spells_write {input : TxIn} (hlen : input.script.length < 2 ^ 64) :
    Spells read input.write input.stripped := by
  rw [read_eq, write, List.append_assoc, List.append_assoc]
  exact (Wire.spells_hash _).andThen ((Wire.spells_uint32 _).andThen
    ((Wire.spells_writeBytes hlen).andThen ((Wire.spells_uint32 _).map _)))

end TxIn

namespace TxOut

theorem read_eq : read = andThen Wire.uint64 fun amount => andThen Wire.readBytes fun script =>
    Wire.value ⟨amount, script⟩ := rfl

theorem spells_write {output : TxOut} (hlen : output.script.length < 2 ^ 64) :
    Spells read output.write output := by
  rw [read_eq, write]
  exact (Wire.spells_uint64 _).andThen ((Wire.spells_writeBytes hlen).map _)

end TxOut

/-! ### Witnesses -/

namespace Witness

theorem readElements_succ (total count used : Nat) :
    readElements total (count + 1) used = andThen Wire.VarInt.read fun length rest =>
      if used + length + Wire.VarInt.size length > Wire.witnessLimit then
        .error (.oversized
          (min (4 * total + (used + length + Wire.VarInt.size length)) (UInt64.size - 1)))
      else andThen (Wire.take length) (fun element =>
        andThen (readElements total count (used + length + Wire.VarInt.size length))
          fun elements => value (element :: elements)) rest := rfl

/-- The bytes that are counted against the limit are those that are written. -/
theorem length_writeBytes (element : Bytes) :
    (Wire.writeBytes element).length =
      element.length + Wire.VarInt.size element.length := by
  rw [Wire.writeBytes, List.length_append, Wire.VarInt.length_write, Nat.add_comm]

/-- The elements are taken one by one while the bytes used up stay within the limit. -/
theorem spells_elements {elements : List Bytes} (total : Nat) {used : Nat}
    (hlimit : used + (elements.flatMap Wire.writeBytes).length ≤ Wire.witnessLimit) :
    Spells (readElements total elements.length used) (elements.flatMap Wire.writeBytes)
      elements := by
  induction elements generalizing used with
  | nil => exact .value []
  | cons element elements ih =>
    rw [List.flatMap_cons, List.length_append, length_writeBytes] at hlimit
    have hlen : element.length < 2 ^ 64 := by
      rw [Wire.witnessLimit] at hlimit
      omega
    have hwithin : ¬ used + element.length + Wire.VarInt.size element.length >
        Wire.witnessLimit := by omega
    rw [List.length_cons, readElements_succ, List.flatMap_cons, Wire.writeBytes,
      List.append_assoc]
    refine (Wire.VarInt.spells_write hlen).andThen ?_
    simp only [if_neg hwithin]
    exact (Wire.spells_take rfl).andThen ((ih (by omega)).map (element :: ·))

theorem read_eq : read = andThen Wire.VarInt.read fun count rest =>
    if count > Wire.witnessLimit then .error (.oversized count)
    else readElements count count 0 rest := rfl

/-- Each element takes a byte at least. -/
theorem length_le_length_flatMap (elements : List Bytes) :
    elements.length ≤ (elements.flatMap Wire.writeBytes).length := by
  induction elements with
  | nil => exact Nat.le_refl 0
  | cons element elements ih =>
    have hpos := Wire.VarInt.size_pos element.length
    rw [List.flatMap_cons, List.length_append, length_writeBytes, List.length_cons]
    omega

theorem spells_write {elements : List Bytes}
    (hlimit : (elements.flatMap Wire.writeBytes).length ≤ Wire.witnessLimit) :
    Spells read (write elements) elements := by
  have hcount : elements.length ≤ Wire.witnessLimit :=
    Nat.le_trans (length_le_length_flatMap elements) hlimit
  have hlen : elements.length < 2 ^ 64 := Nat.lt_of_le_of_lt hcount (by decide)
  rw [read_eq, write, Wire.writeList]
  refine (Wire.VarInt.spells_write hlen).andThen ?_
  simp only [if_neg (Nat.not_lt_of_le hcount)]
  exact spells_elements _ (by rwa [Nat.zero_add])

theorem readEach_cons (input : TxIn) (inputs : List TxIn) :
    readEach (input :: inputs) = andThen read fun witness => andThen (readEach inputs)
      fun inputs => value ({ input with witness } :: inputs) := rfl

/-- The witnesses are given back to the inputs they were stripped from. -/
theorem spells_each {inputs : List TxIn}
    (hlimit : ∀ input ∈ inputs,
      (input.witness.flatMap Wire.writeBytes).length ≤ Wire.witnessLimit) :
    Spells (readEach (inputs.map TxIn.stripped))
      (inputs.flatMap fun input => write input.witness) inputs := by
  induction inputs with
  | nil => exact .value []
  | cons input inputs ih =>
    obtain ⟨hinput, hinputs⟩ := List.forall_mem_cons.mp hlimit
    rw [List.map_cons, readEach_cons, List.flatMap_cons]
    exact (spells_write hinput).andThen ((ih hinputs).map (input :: ·))

end Witness

/-! ### The two forms -/

namespace Transaction

/-- Lists and byte strings are as long as they can be in memory: their counts and lengths are words
of 64 bits. -/
structure Sized (tx : Transaction) : Prop where
  /-- The count of inputs. -/
  inputs : tx.inputs.length < 2 ^ 64
  /-- The lengths of the unlocking scripts. -/
  unlocking : ∀ input ∈ tx.inputs, input.script.length < 2 ^ 64
  /-- The count of outputs. -/
  outputs : tx.outputs.length < 2 ^ 64
  /-- The lengths of the locking scripts. -/
  locking : ∀ output ∈ tx.outputs, output.script.length < 2 ^ 64

/-- The elements of each witness, with their lengths in front, take no more bytes than a reader
allows. -/
def WithinLimit (tx : Transaction) : Prop :=
  ∀ input ∈ tx.inputs, (input.witness.flatMap Wire.writeBytes).length ≤ Wire.witnessLimit

variable {tx : Transaction}

theorem Sized.spells_inputs (hsized : tx.Sized) :
    Spells (Wire.readList TxIn.read) (Wire.writeList TxIn.write tx.inputs)
      (tx.inputs.map TxIn.stripped) :=
  .list hsized.inputs fun input hinput => TxIn.spells_write (hsized.unlocking input hinput)

theorem Sized.spells_outputs (hsized : tx.Sized) :
    Spells (Wire.readList TxOut.read) (Wire.writeList TxOut.write tx.outputs) tx.outputs :=
  .list_self hsized.outputs fun output houtput => TxOut.spells_write (hsized.locking output houtput)

/-- The test for witnesses that are announced and missing. -/
theorem noWitnesses_test (tx : Transaction) :
    (!tx.inputs.isEmpty && tx.inputs.all (·.witness.isEmpty)) = !tx.hasWitnessForm := by
  rw [hasWitnessForm, Bool.not_or, List.all_eq_not_any_not]

theorem readWitnessForm_eq (version : UInt32) :
    readWitnessForm version = andThen Wire.byte fun flag rest =>
      if flag = 1 then
        andThen (Wire.readList TxIn.read) (fun inputs =>
          andThen (Wire.readList TxOut.read) fun outputs =>
          andThen (Witness.readEach inputs) fun inputs rest =>
            if !inputs.isEmpty && inputs.all (·.witness.isEmpty) then .error .noWitnesses
            else andThen Wire.uint32 (fun lockTime =>
              value ⟨version, inputs, outputs, lockTime⟩) rest) rest
      else .error (.unknownFlag flag) := rfl

/-- What follows the zero in place of the inputs' count. -/
theorem spells_witnessForm (hsized : tx.Sized) (hlimit : tx.WithinLimit)
    (hform : tx.hasWitnessForm = true) :
    Spells (readWitnessForm tx.version)
      ([1] ++ (Wire.writeList TxIn.write tx.inputs ++ (Wire.writeList TxOut.write tx.outputs ++
        (tx.inputs.flatMap (fun input => Witness.write input.witness) ++
          Bytes.ofUInt32 tx.lockTime)))) tx := by
  rw [readWitnessForm_eq]
  refine (Wire.spells_byte 1).andThen ?_
  simp only [if_true]
  refine hsized.spells_inputs.andThen (hsized.spells_outputs.andThen
    ((Witness.spells_each hlimit).andThen ?_))
  simp only [noWitnesses_test, hform, Bool.not_true, Bool.false_eq_true, if_false]
  exact (Wire.spells_uint32 _).map _

theorem read_eq : read = andThen Wire.uint32 fun version =>
    andThen (Wire.readList TxIn.read) fun inputs rest =>
      if inputs.isEmpty then readWitnessForm version rest
      else andThen (Wire.readList TxOut.read) (fun outputs => andThen Wire.uint32 fun lockTime =>
        value ⟨version, inputs, outputs, lockTime⟩) rest := rfl

/-- The marker of the witness form reads as the count of no inputs. -/
theorem spells_noInputs : Spells (Wire.readList TxIn.read) [0] [] := by
  have hspells : Spells (Wire.readList TxIn.read) (Wire.writeList TxIn.write []) [] :=
    .list_self (by decide) fun _ h => absurd h List.not_mem_nil
  exact hspells

/-- Without the witness form there are inputs, and nothing is lost with their witnesses. -/
theorem map_stripped_of_plain (hform : tx.hasWitnessForm = false) :
    tx.inputs.map TxIn.stripped = tx.inputs ∧ tx.inputs.isEmpty = false := by
  obtain ⟨hempty, hany⟩ := Bool.or_eq_false_iff.mp hform
  refine ⟨(List.map_congr_left fun input hinput => ?_).trans (List.map_id _), hempty⟩
  have hwitness : input.witness = [] := by
    simpa using List.any_eq_false.mp hany input hinput
  rw [TxIn.stripped, ← hwitness, id]

/-- **A transaction frames itself**, in either form. -/
theorem spells_write (hsized : tx.Sized) (hlimit : tx.WithinLimit) :
    Spells read tx.write tx := by
  rw [read_eq, write]
  cases hform : tx.hasWitnessForm with
  | true =>
    simp only [if_true, List.append_assoc]
    -- the first of the two bytes in front of the inputs reads as the count of no inputs
    exact (Wire.spells_uint32 _).andThen
      (spells_noInputs.andThen (spells_witnessForm hsized hlimit hform))
  | false =>
    obtain ⟨hstripped, hinputs⟩ := map_stripped_of_plain hform
    rw [if_neg Bool.false_ne_true, writeStripped, List.append_assoc, List.append_assoc]
    refine (Wire.spells_uint32 _).andThen (hsized.spells_inputs.andThen ?_)
    simp only [hstripped, hinputs, Bool.false_eq_true, if_false]
    exact hsized.spells_outputs.andThen ((Wire.spells_uint32 _).map _)

end Transaction

end MergedMining
