import MergedMining.Bytes

/-!
# Scripts

Scripts that only push data, as coinbase scripts do.
-/

namespace MergedMining.Script

/-- The instruction that pushes `data`: a length of as few bytes as it needs, with an opcode in
front of it from 76 bytes on. -/
def push (data : Bytes) : Bytes :=
  let n := data.length
  (if n < 0x4c then [UInt8.ofNat n]
   else if n < 0x100 then 0x4c :: Bytes.ofNatLE 1 n
   else if n < 0x10000 then 0x4d :: Bytes.ofNatLE 2 n
   else 0x4e :: Bytes.ofNatLE 4 n) ++ data

/-- The script that pushes each of `items` in turn. -/
def pushes (items : List Bytes) : Bytes := items.flatMap push

end MergedMining.Script
