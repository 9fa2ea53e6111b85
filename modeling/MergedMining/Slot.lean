import MergedMining.Power

/-!
# Slots of the merge-mining tree

Many chains can be mined together: the parent block commits to a tree with one leaf per chain.
Which leaf a chain has to take follows from its id and a nonce the miner picks, so that one tree
never has room for two blocks of one chain.

## Main definitions

* `slot` — the leaf a chain takes in a tree of a given height.
-/

namespace MergedMining

/-- The number that tells merge-mined chains apart. -/
abbrev ChainId := UInt32

/-- One step of a linear congruential generator on 32-bit words. -/
def Slot.mix (r : UInt32) : UInt32 := r * 1103515245 + 12345

/-- The leaf that chain `chainId` takes in a tree of `height` levels under `nonce`.  From 32 levels
on there are more leaves than words, and the mixed word itself is the answer. -/
def slot (nonce : UInt32) (chainId : ChainId) (height : Nat) : UInt32 :=
  let mixed := Slot.mix (Slot.mix nonce + chainId)
  if height < 32 then mixed % UInt32.ofNat (2 ^ height) else mixed

end MergedMining
