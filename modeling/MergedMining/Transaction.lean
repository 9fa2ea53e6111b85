import MergedMining.Wire.VarInt

/-!
# Transactions

Transactions with their wire format and their id.  Witnesses travel behind the outputs and are
announced by a marker in place of the inputs' count; the id does not cover them.

## Main definitions

* `Transaction` — inputs, outputs, version and lock time.
* `Transaction.write`, `Transaction.read` — the wire format.
* `Transaction.txid` — the hash of a transaction without its witnesses.
* `Transaction.isCoinbase` — whether a transaction spends nothing.
-/

namespace MergedMining

/-- Names an output of an earlier transaction. -/
structure OutPoint where
  /-- The transaction's id. -/
  txid : Hash256
  /-- The output's position. -/
  vout : UInt32
  deriving DecidableEq

/-- The outpoint that names no output: zero bytes and the largest position. -/
def OutPoint.null : OutPoint := ⟨.zero, 0xffffffff⟩

/-- An input. -/
structure TxIn where
  /-- The output that is spent. -/
  previous : OutPoint
  /-- The unlocking script. -/
  script : Bytes
  /-- The sequence number. -/
  sequence : UInt32
  /-- The witness elements. -/
  witness : List Bytes
  deriving DecidableEq

/-- An output. -/
structure TxOut where
  /-- The amount. -/
  value : UInt64
  /-- The locking script. -/
  script : Bytes
  deriving DecidableEq

/-- A transaction. -/
structure Transaction where
  /-- The version. -/
  version : UInt32
  /-- The inputs. -/
  inputs : List TxIn
  /-- The outputs. -/
  outputs : List TxOut
  /-- The lock time. -/
  lockTime : UInt32
  deriving DecidableEq

namespace TxIn

/-- An input without its witness. -/
def write (input : TxIn) : Bytes :=
  input.previous.txid.bytes ++ Bytes.ofUInt32 input.previous.vout ++
    Wire.writeBytes input.script ++ Bytes.ofUInt32 input.sequence

/-- Reads an input; its witness is empty so far. -/
def read : Wire.Reader TxIn := fun data => do
  let (txid, rest) ← Wire.hash data
  let (vout, rest) ← Wire.uint32 rest
  let (script, rest) ← Wire.readBytes rest
  let (sequence, rest) ← Wire.uint32 rest
  return (⟨⟨txid, vout⟩, script, sequence, []⟩, rest)

end TxIn

namespace TxOut

/-- An output. -/
def write (output : TxOut) : Bytes :=
  Bytes.ofUInt64 output.value ++ Wire.writeBytes output.script

/-- Reads an output. -/
def read : Wire.Reader TxOut := fun data => do
  let (value, rest) ← Wire.uint64 data
  let (script, rest) ← Wire.readBytes rest
  return (⟨value, script⟩, rest)

end TxOut

/-! ### Witnesses -/

namespace Witness

/-- The witness elements behind their count. -/
def write (elements : List Bytes) : Bytes := Wire.writeList Wire.writeBytes elements

/-- Reads `count` elements of a witness of `total`, `used` bytes of which are already taken.  An
element that would take the witness over its limit is refused before its bytes are read; the size
it asks for includes four bytes of bookkeeping per element, in 64-bit arithmetic. -/
def readElements (total : Nat) : (count used : Nat) → Wire.Reader (List Bytes)
  | 0, _, data => .ok ([], data)
  | count + 1, used, data => do
      let (length, rest) ← Wire.VarInt.read data
      let needed := used + length + Wire.VarInt.size length
      if needed > Wire.witnessLimit then
        throw (.oversized (min (4 * total + needed) (UInt64.size - 1)))
      else
        let (element, rest) ← Wire.take length rest
        let (elements, rest) ← readElements total count needed rest
        return (element :: elements, rest)

/-- Reads a witness within its limits. -/
def read : Wire.Reader (List Bytes) := fun data => do
  let (count, rest) ← Wire.VarInt.read data
  if count > Wire.witnessLimit then throw (.oversized count)
  else readElements count count 0 rest

/-- Reads one witness for each of the inputs. -/
def readEach : List TxIn → Wire.Reader (List TxIn)
  | [], data => .ok ([], data)
  | input :: inputs, data => do
      let (witness, rest) ← read data
      let (inputs, rest) ← readEach inputs rest
      return ({ input with witness } :: inputs, rest)

end Witness

namespace Transaction

/-- Whether the witness form is written: if some input has a witness, and also if there are no
inputs, whose count would otherwise read as the marker. -/
def hasWitnessForm (tx : Transaction) : Bool :=
  tx.inputs.isEmpty || tx.inputs.any (!·.witness.isEmpty)

/-- The form without witnesses. -/
def writeStripped (tx : Transaction) : Bytes :=
  Bytes.ofUInt32 tx.version ++ Wire.writeList TxIn.write tx.inputs ++
    Wire.writeList TxOut.write tx.outputs ++ Bytes.ofUInt32 tx.lockTime

/-- The wire format. -/
def write (tx : Transaction) : Bytes :=
  if tx.hasWitnessForm then
    Bytes.ofUInt32 tx.version ++ [0, 1] ++ Wire.writeList TxIn.write tx.inputs ++
      Wire.writeList TxOut.write tx.outputs ++
      tx.inputs.flatMap (fun input => Witness.write input.witness) ++ Bytes.ofUInt32 tx.lockTime
  else tx.writeStripped

/-- Reads what follows the marker: flag, inputs, outputs, witnesses and lock time. -/
def readWitnessForm (version : UInt32) : Wire.Reader Transaction := fun data => do
  let (flag, rest) ← Wire.byte data
  if flag = 1 then
    let (inputs, rest) ← Wire.readList TxIn.read rest
    let (outputs, rest) ← Wire.readList TxOut.read rest
    let (inputs, rest) ← Witness.readEach inputs rest
    if !inputs.isEmpty && inputs.all (·.witness.isEmpty) then throw .noWitnesses
    else
      let (lockTime, rest) ← Wire.uint32 rest
      return (⟨version, inputs, outputs, lockTime⟩, rest)
  else throw (.unknownFlag flag)

/-- Reads a transaction in either form. -/
def read : Wire.Reader Transaction := fun data => do
  let (version, rest) ← Wire.uint32 data
  let (inputs, rest) ← Wire.readList TxIn.read rest
  if inputs.isEmpty then readWitnessForm version rest
  else
    let (outputs, rest) ← Wire.readList TxOut.read rest
    let (lockTime, rest) ← Wire.uint32 rest
    return (⟨version, inputs, outputs, lockTime⟩, rest)

/-- The id of a transaction: the hash of the form without witnesses. -/
def txid (tx : Transaction) : Hash256 := .ofMessage tx.writeStripped

/-- Whether a transaction has a single input that names no output. -/
def isCoinbase (tx : Transaction) : Bool :=
  match tx.inputs with
  | [input] => input.previous == .null
  | _ => false

end Transaction

end MergedMining
