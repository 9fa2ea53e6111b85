import MergedMining.Hash256

/-!
# Compact targets and proof of work

A target is a 256-bit number that a hash must not exceed.  Headers carry it as a 32-bit word: a size
in bytes, a sign bit, and the three leading bytes.  Words that spell no usable target are refused,
each for its first fault.

## Main definitions

* `Target.ofCompact` — the number a word expands to, with all the losses of 256-bit arithmetic.
* `Target.decode` — the target of a word that spells one.
* `Work.check` — whether a hash meets a target that is not easier than a limit.
-/

namespace MergedMining

/-- Why a compact word spells no usable target. -/
inductive TargetError where
  /-- The sign bit is set. -/
  | negative (bits : UInt32)
  /-- The number needs more than 256 bits. -/
  | overflow (bits : UInt32)
  /-- The number is zero. -/
  | zero (bits : UInt32)
  /-- The target is easier than the limit. -/
  | aboveLimit (bits limit : UInt32)
  deriving DecidableEq, Repr

/-- The wording of an error. -/
def TargetError.message : TargetError → String
  | .negative bits => "compact target " ++ Hex.word bits ++ " is negative"
  | .overflow bits => "compact target " ++ Hex.word bits ++ " overflows 256 bits"
  | .zero bits => "compact target " ++ Hex.word bits ++ " is zero"
  | .aboveLimit bits limit =>
      "compact target " ++ Hex.word bits ++ " is easier than pow limit " ++ Hex.word limit

namespace Target

/-- How many bits a target has. -/
def width : Nat := 256

/-- The size of a compact word: how many bytes the number takes. -/
def size (bits : UInt32) : Nat := bits.toNat / 0x1000000

/-- The sign bit of a compact word. -/
def isNegative (bits : UInt32) : Bool := bits.toNat / 0x800000 % 2 = 1

/-- The leading bytes of a compact word without the sign bit. -/
def mantissa (bits : UInt32) : Nat := bits.toNat % 0x800000

/-- The leading bytes as far as the size keeps them: below three bytes the last ones are cut off. -/
def leading (bits : UInt32) : Nat :=
  if size bits ≤ 3 then mantissa bits / 2 ^ (8 * (3 - size bits)) else mantissa bits

/-- The number a compact word expands to in 256-bit arithmetic.  The sign bit counts as a leading
bit, and gives zero where it survives; the shift wraps around at 256, and high bits are lost. -/
def ofCompact (bits : UInt32) : Nat :=
  let kept := bits.toNat % 0x1000000
  let (word, shift) :=
    if size bits ≤ 3 then (kept / 2 ^ (8 * (3 - size bits)), 0) else (kept, 8 * (size bits - 3))
  if word > 0x7fffff then 0 else word * 2 ^ (shift % width) % 2 ^ width

/-- The target of a compact word.  Zero is found before a set sign bit, and that before a number
of more than 256 bits. -/
def decode (bits : UInt32) : Except TargetError Nat :=
  let word := leading bits
  if word = 0 then .error (.zero bits)
  else if isNegative bits then .error (.negative bits)
  else if size bits > 34 ∨ (word > 0xff ∧ size bits > 33) ∨ (word > 0xffff ∧ size bits > 32) then
    .error (.overflow bits)
  else .ok (ofCompact bits)

/-- The thirty-two bytes of a target, most significant first. -/
def bytes (target : Nat) : Bytes := (Bytes.ofNatLE 32 target).reverse

end Target

/-- Why a hash is no proof of work. -/
inductive WorkError where
  /-- The word spells no usable target. -/
  | invalidTarget (error : TargetError)
  /-- The hash is above the target. -/
  | targetNotMet (hash : Hash256) (bits : UInt32)
  deriving DecidableEq

/-- The wording of an error. -/
def WorkError.message : WorkError → String
  | .invalidTarget error => "invalid target: " ++ error.message
  | .targetNotMet hash bits =>
      "hash " ++ hash.display ++ " doesn't meet target " ++ Hex.word bits

/-- Whether a hash, read as a number, is at most the target. -/
def Hash256.meets (hash : Hash256) (target : Nat) : Bool := hash.toNat ≤ target

/-- Checks that `hash` meets the target of `bits`, which must not be easier than that of `limit`.
The limit is expanded without being judged. -/
def Work.check (hash : Hash256) (bits limit : UInt32) : Except WorkError Unit :=
  match Target.decode bits with
  | .error error => .error (.invalidTarget error)
  | .ok target =>
      if target > Target.ofCompact limit then .error (.invalidTarget (.aboveLimit bits limit))
      else if hash.meets target then .ok ()
      else .error (.targetNotMet hash bits)

end MergedMining
