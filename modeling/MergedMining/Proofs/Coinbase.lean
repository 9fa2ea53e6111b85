import MergedMining.Proofs.Wire.Counted
import MergedMining.Transaction

/-!
# The bytes of a coinbase

The id of a transaction covers its form without witnesses.  For a transaction with a single input,
as a coinbase is, that form determines the input's script, and it is longer than the two hashes
that make up an inner node of a tree.

## Main results

* `Transaction.script_eq_of_writeStripped_eq` — two such transactions of the same form carry the
  same script.
* `Transaction.add_length_le_length_writeStripped` — how long the form is at least.
-/

namespace MergedMining.Transaction

variable {tx tx' : Transaction} {input input' : TxIn}

/-- What stands in front of the script: the version, the count of inputs and the outpoint. -/
def frontOf (tx : Transaction) (input : TxIn) : Bytes :=
  Bytes.ofUInt32 tx.version ++ (Wire.VarInt.write 1 ++
    (input.previous.txid.bytes ++ Bytes.ofUInt32 input.previous.vout))

/-- What stands behind the script: the sequence number, the outputs and the lock time. -/
def backOf (tx : Transaction) (input : TxIn) : Bytes :=
  Bytes.ofUInt32 input.sequence ++ (Wire.writeList TxOut.write tx.outputs ++
    Bytes.ofUInt32 tx.lockTime)

@[simp] theorem length_frontOf (tx : Transaction) (input : TxIn) :
    (tx.frontOf input).length = 41 := by
  have hcount : (Wire.VarInt.write 1).length = 1 := rfl
  simp only [frontOf, List.length_append, Bytes.length_ofUInt32, input.previous.txid.length_bytes,
    hcount]

theorem writeStripped_of_single (h : tx.inputs = [input]) :
    tx.writeStripped = tx.frontOf input ++ (Wire.writeBytes input.script ++ tx.backOf input) := by
  simp only [writeStripped, h, Wire.writeList, List.length_singleton, List.flatMap_cons,
    List.flatMap_nil, TxIn.write, frontOf, backOf, List.append_assoc, List.append_nil]

/-- The form is longer than the script by a count, an outpoint and three words at least. -/
theorem add_length_le_length_writeStripped (h : tx.inputs = [input]) :
    49 + input.script.length ≤ tx.writeStripped.length := by
  simp only [writeStripped_of_single h, List.length_append, length_frontOf, Wire.writeBytes, backOf,
    Bytes.length_ofUInt32]
  omega

/-- **The form of a transaction determines the script** of its single input, if the lengths of the
scripts fit into their length fields. -/
theorem script_eq_of_writeStripped_eq (h : tx.inputs = [input]) (h' : tx'.inputs = [input'])
    (hlen : input.script.length < 2 ^ 64) (hlen' : input'.script.length < 2 ^ 64)
    (heq : tx.writeStripped = tx'.writeStripped) : input.script = input'.script := by
  rw [writeStripped_of_single h, writeStripped_of_single h'] at heq
  have hscript := (List.append_inj heq (by rw [length_frontOf, length_frontOf])).2
  exact (Wire.writeBytes_append_inj hlen hlen' hscript).1

end MergedMining.Transaction
