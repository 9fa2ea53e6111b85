import Mathlib.Algebra.Order.Floor.Div
import Mathlib.Algebra.Order.Ring.Nat
import Mathlib.Order.Bounds.Defs
import MergedMining.Proofs.Merkle.Opening

/-!
# The levels of a tree

A tree over `n` leaves has `⌈n / 2 ^ l⌉` nodes on its level `l`, and each of them is named by level
and position: it joins the two nodes below it, or the last one with itself.  Opening a leaf builds
one level after the other and forgets the one below.  Here the levels it passes are shown to be
those of the tree, so that the branch it puts together holds the neighbours on the way from the leaf
to the root, and every leaf is opened to the same root.

## Main definitions

* `Merkle.width`, `Merkle.node`, `Merkle.neighbour` — the nodes of a tree by level and position.
* `Merkle.nodes` — a whole level.
* `Merkle.Opens` — opening a leaf round by round, while more than one node is left.

## Main results

* `Merkle.levelAbove_nodes` — joining the nodes of a level gives those of the next.
* `Merkle.openFrom_nodes` — what is collected on the way up from a node.
* `Merkle.opens_nodes`, `Merkle.Opens.unique` — the rounds end, and they end with the root.
* `Merkle.tree_opened` — every leaf is opened to the root of the tree.
-/

namespace MergedMining.Merkle

/-- How many nodes a tree has at a level: its leaves over `2 ^ level`, rounded up. -/
def width (leaves level : Nat) : Nat := leaves ⌈/⌉ 2 ^ level

/-- The node of a tree at a level and a position.  It joins the two nodes below it; at an odd end
there is only one, which is joined with itself. -/
def node (leaves : List Hash256) : (level position : Nat) → Hash256
  | 0, position => leaves.getD position .zero
  | level + 1, position =>
      Hash256.join (node leaves level (2 * position))
        (if 2 * position + 1 < width leaves.length level then node leaves level (2 * position + 1)
          else node leaves level (2 * position))

/-- What a node is joined with: the node at the other position of its pair, or itself if there is
none. -/
def neighbour (leaves : List Hash256) (level position : Nat) : Hash256 :=
  if position ^^^ 1 < width leaves.length level then node leaves level (position ^^^ 1)
  else node leaves level position

/-- The nodes of a level from left to right. -/
def nodes (leaves : List Hash256) (level : Nat) : List Hash256 :=
  (List.range (width leaves.length level)).map (node leaves level)

/-- The neighbours on the way up from a node through `height` levels, lowest first. -/
def path (leaves : List Hash256) (level position height : Nat) : List Hash256 :=
  (List.range height).map fun k => neighbour leaves (level + k) (position / 2 ^ k)

/-- The branch of a leaf: the neighbours on its way up to the root. -/
def branchOf (leaves : List Hash256) (index : UInt32) : Branch :=
  ⟨path leaves 0 index.toNat (treeHeight leaves.length), index⟩

/-- The root of a tree: the only node at its height. -/
def treeRoot (leaves : List Hash256) : Hash256 := node leaves (treeHeight leaves.length) 0

/-- Opening a leaf round by round.  As long as a level has more than one node, the neighbour of the
node at the position is put down, and the next round is one level above, at half the position.  The
node that is left is the root. -/
inductive Opens : (level : List Hash256) → (position : Nat) → (siblings : List Hash256) →
    (root : Hash256) → Prop
  | last (root : Hash256) : Opens [root] 0 [] root
  | round {level : List Hash256} {position : Nat} {node : Hash256} {siblings : List Hash256}
      {root : Hash256} (hmore : 1 < level.length) (hnode : level[position]? = some node)
      (habove : Opens (levelAbove level) (position / 2) siblings root) :
      Opens level position (level.getD (position ^^^ 1) node :: siblings) root

/-! ### Widths -/

@[simp] theorem width_zero (leaves : Nat) : width leaves 0 = leaves := by
  rw [width, Nat.pow_zero, ceilDiv_one]

theorem width_le_iff {leaves level count : Nat} :
    width leaves level ≤ count ↔ leaves ≤ 2 ^ level * count :=
  ceilDiv_le_iff_le_mul (Nat.two_pow_pos level)

/-- Each level has half as many nodes as the one below, rounded up. -/
theorem width_succ (leaves level : Nat) :
    width leaves (level + 1) = (width leaves level + 1) / 2 := by
  refine eq_of_forall_ge_iff fun count => ?_
  have hbelow : width leaves (level + 1) ≤ count ↔ width leaves level ≤ 2 * count := by
    rw [width_le_iff, width_le_iff, Nat.pow_succ, Nat.mul_assoc]
  rw [hbelow]
  omega

theorem width_pos {leaves : Nat} (h : 0 < leaves) (level : Nat) : 0 < width leaves level := by
  by_contra hzero
  have hle := width_le_iff.mp (Nat.le_of_not_lt hzero)
  omega

theorem isLeast_treeHeight (leaves : Nat) :
    IsLeast {height | leaves ≤ 2 ^ height} (treeHeight leaves) := by
  refine ⟨le_two_pow_treeHeight leaves, fun height (hroom : leaves ≤ 2 ^ height) => ?_⟩
  unfold treeHeight
  by_cases h : leaves ≤ 1
  · rw [if_pos h]
    exact Nat.zero_le height
  · rw [if_neg h]
    exact (Nat.log2_lt (by omega)).mpr (by omega)

theorem width_treeHeight {leaves : Nat} (h : 0 < leaves) :
    width leaves (treeHeight leaves) = 1 := by
  have hroom : width leaves (treeHeight leaves) ≤ 1 := by
    rw [width_le_iff, Nat.mul_one]
    exact le_two_pow_treeHeight leaves
  have hpos := width_pos h (treeHeight leaves)
  omega

/-- Below the height there are more nodes than one. -/
theorem one_lt_width {leaves level : Nat} (h : level < treeHeight leaves) :
    1 < width leaves level := by
  by_contra hone
  have hle := width_le_iff.mp (Nat.le_of_not_lt hone)
  rw [Nat.mul_one] at hle
  exact Nat.not_le_of_lt h ((isLeast_treeHeight leaves).2 hle)

/-! ### Levels -/

@[simp] theorem length_nodes (leaves : List Hash256) (level : Nat) :
    (nodes leaves level).length = width leaves.length level := by
  rw [nodes, List.length_map, List.length_range]

theorem getElem?_nodes {leaves : List Hash256} {level position : Nat}
    (h : position < width leaves.length level) :
    (nodes leaves level)[position]? = some (node leaves level position) := by
  rw [nodes, List.getElem?_map, List.getElem?_range h]
  rfl

theorem nodes_of_width_eq_one {leaves : List Hash256} {level : Nat}
    (h : width leaves.length level = 1) : nodes leaves level = [node leaves level 0] := by
  rw [nodes, h]
  rfl

theorem getD_nodes {leaves : List Hash256} {level position : Nat} (instead : Hash256) :
    (nodes leaves level).getD position instead =
      if position < width leaves.length level then node leaves level position else instead := by
  rw [List.getD_eq_getElem?_getD]
  by_cases h : position < width leaves.length level
  · rw [if_pos h, getElem?_nodes h, Option.getD_some]
  · rw [if_neg h, List.getElem?_eq_none (by rw [length_nodes]; exact Nat.le_of_not_lt h),
      Option.getD_none]

theorem nodes_zero (leaves : List Hash256) : nodes leaves 0 = leaves := by
  refine List.ext_getElem (by rw [length_nodes, width_zero]) fun position _ hleaf => ?_
  rw [← List.getD_eq_getElem _ .zero, getD_nodes, width_zero, if_pos hleaf, node,
    List.getD_eq_getElem _ _ hleaf]

theorem siblingAt_nodes {leaves : List Hash256} {level position : Nat}
    (h : position < width leaves.length level) :
    siblingAt (nodes leaves level) position = neighbour leaves level position := by
  rw [siblingAt, getD_nodes, getD_nodes, if_pos h, neighbour]

/-- **Joining the nodes of a level gives those of the next**, one for every pair: its left node is
joined with its neighbour. -/
theorem levelAbove_nodes (leaves : List Hash256) (level : Nat) :
    levelAbove (nodes leaves level) = nodes leaves (level + 1) := by
  have hlength : (levelAbove (nodes leaves level)).length = (nodes leaves (level + 1)).length := by
    rw [length_levelAbove, length_nodes, length_nodes, width_succ]
  refine List.ext_getElem? fun position => ?_
  by_cases h : position < width leaves.length (level + 1)
  · have hleft : 2 * position < width leaves.length level := by
      rw [width_succ] at h
      omega
    have heven : (2 * position) ^^^ 1 = 2 * position + 1 := Nat.xor_one_of_even (even_two_mul _)
    have hjoined := getElem?_levelAbove (nodes leaves level) (getElem?_nodes hleft)
    rw [Nat.mul_div_cancel_left _ (by decide), siblingAt_nodes hleft, step,
      if_neg (by omega), neighbour, heven] at hjoined
    rw [hjoined, getElem?_nodes h, node]
  · rw [← length_nodes] at h
    rw [List.getElem?_eq_none (Nat.le_of_not_lt h),
      List.getElem?_eq_none (hlength ▸ Nat.le_of_not_lt h)]

/-! ### Opening -/

section

variable {leaves : List Hash256}

/-- One level up, the way from a node goes on from half its position. -/
theorem path_succ (level position height : Nat) :
    path leaves level position (height + 1) =
      neighbour leaves level position :: path leaves (level + 1) (position / 2) height := by
  have hstep : ∀ k, neighbour leaves (level + (k + 1)) (position / 2 ^ (k + 1)) =
      neighbour leaves (level + 1 + k) (position / 2 / 2 ^ k) := fun k => by
    rw [Nat.div_div_eq_div_mul, ← Nat.pow_succ', Nat.add_right_comm, Nat.add_assoc]
  rw [path, List.range_succ_eq_map, List.map_cons, List.map_map, Nat.pow_zero, Nat.div_one]
  exact congrArg _ (List.map_congr_left fun k _ => hstep k)

theorem half_lt_width {level position : Nat} (h : position < width leaves.length level) :
    position / 2 < width leaves.length (level + 1) := by
  rw [width_succ]
  omega

/-- **What is collected on the way up**, by induction on the levels left: the neighbours of the node
and of those above it.  The way ends at the only node of its last level. -/
theorem openFrom_nodes : ∀ (height level position : Nat),
    position < width leaves.length level → width leaves.length (level + height) = 1 →
    openFrom height (nodes leaves level) position =
      (path leaves level position height, node leaves (level + height) 0) := by
  intro height
  induction height with
  | zero =>
    intro level position _ htop
    rw [Nat.add_zero] at htop
    rw [openFrom, nodes_of_width_eq_one htop]
    rfl
  | succ height ih =>
    intro level position hposition htop
    have hup : level + (height + 1) = level + 1 + height := by omega
    rw [hup] at htop ⊢
    rw [openFrom, levelAbove_nodes, ih _ _ (half_lt_width hposition) htop,
      siblingAt_nodes hposition, path_succ]

/-- Of three leaves the third one has no neighbour, and is joined with itself. -/
example (first second third : Hash256) :
    openFrom 2 [first, second, third] 2 =
      ([third, Hash256.join first second],
        Hash256.join (Hash256.join first second) (Hash256.join third third)) := rfl

/-- **The rounds end with the root**: each but the last level has more nodes than one, and the
position is always one of the level. -/
theorem opens_nodes : ∀ (height level position : Nat),
    position < width leaves.length level → width leaves.length (level + height) = 1 →
    (∀ k < height, 1 < width leaves.length (level + k)) →
    Opens (nodes leaves level) position (path leaves level position height)
      (node leaves (level + height) 0) := by
  intro height
  induction height with
  | zero =>
    intro level position hposition htop _
    rw [Nat.add_zero] at htop ⊢
    have hzero : position = 0 := by omega
    rw [nodes_of_width_eq_one htop, hzero]
    exact .last _
  | succ height ih =>
    intro level position hposition htop hmore
    have hup : level + (height + 1) = level + 1 + height := by omega
    rw [hup] at htop ⊢
    have habove := ih (level + 1) (position / 2) (half_lt_width hposition) htop fun k hk => by
      rw [Nat.add_right_comm, Nat.add_assoc]
      exact hmore (k + 1) (Nat.succ_lt_succ hk)
    rw [← levelAbove_nodes] at habove
    have hround := Opens.round (by rw [length_nodes]; exact hmore 0 (Nat.succ_pos height))
      (getElem?_nodes hposition) habove
    rw [path_succ, neighbour]
    rwa [getD_nodes] at hround

/-- There is one way through the rounds: as long as there are more nodes than one no round is the
last, and the only node of a level is no pair. -/
theorem Opens.unique {level : List Hash256} {position : Nat} {siblings siblings' : List Hash256}
    {root root' : Hash256} (h : Opens level position siblings root)
    (h' : Opens level position siblings' root') : siblings' = siblings ∧ root' = root := by
  induction h generalizing siblings' with
  | last root =>
    cases h' with
    | last => exact ⟨rfl, rfl⟩
    | round hmore => exact absurd hmore (Nat.lt_irrefl 1)
  | round hmore hnode habove ih =>
    cases h' with
    | last => exact absurd hmore (Nat.lt_irrefl 1)
    | round hmore' hnode' habove' =>
      obtain ⟨rfl, rfl⟩ := ih habove'
      rw [hnode, Option.some.injEq] at hnode'
      exact ⟨by rw [hnode'], rfl⟩

theorem width_top {index : UInt32} (hindex : index.toNat < leaves.length) :
    width leaves.length (0 + treeHeight leaves.length) = 1 := by
  rw [Nat.zero_add]
  exact width_treeHeight (Nat.zero_lt_of_lt hindex)

/-- What opening a leaf gives, node by node. -/
theorem open?_eq_some_iff {index : UInt32} {b : Branch} {root : Hash256} :
    open? leaves index = some (b, root) ↔
      index.toNat < leaves.length ∧ b = branchOf leaves index ∧ root = treeRoot leaves := by
  by_cases hindex : index.toNat < leaves.length
  · have hopen := openFrom_nodes _ 0 index.toNat (by rwa [width_zero]) (width_top hindex)
    rw [nodes_zero, Nat.zero_add] at hopen
    rw [open?, if_pos hindex, hopen, Option.some.injEq, Prod.mk.injEq, eq_comm,
      eq_comm (b := root)]
    exact (and_iff_right hindex).symm
  · rw [open?, if_neg hindex]
    exact iff_of_false (fun h => by cases h) fun h => hindex h.1

theorem opens_iff {index : UInt32} (hindex : index.toNat < leaves.length)
    {siblings : List Hash256} {root : Hash256} :
    Opens leaves index.toNat siblings root ↔
      siblings = (branchOf leaves index).hashes ∧ root = treeRoot leaves := by
  have hopens := opens_nodes _ 0 index.toNat (by rwa [width_zero]) (width_top hindex) fun k hk => by
    rw [Nat.zero_add]
    exact one_lt_width hk
  rw [nodes_zero, Nat.zero_add] at hopens
  constructor
  · intro h
    exact hopens.unique h
  · rintro ⟨rfl, rfl⟩
    exact hopens

@[simp] theorem height_branchOf (index : UInt32) :
    (branchOf leaves index).height = treeHeight leaves.length := by
  rw [Branch.height, branchOf, path, List.length_map, List.length_range]

theorem rootOf_branchOf {index : UInt32} (hindex : index.toNat < leaves.length) :
    (branchOf leaves index).rootOf leaves[index.toNat] = treeRoot leaves := by
  obtain ⟨b, root, hopen, -, hroot⟩ := exists_open? (List.getElem?_eq_getElem hindex)
  obtain ⟨-, rfl, rfl⟩ := open?_eq_some_iff.mp hopen
  exact hroot

end

/-- **Every leaf is opened to the root of the tree.**  The height of the tree is the least that has
room for all leaves, and its root the node at that height.  At each position the rounds end, and
only with that root and the siblings of one branch, in which the neighbour of the node on each level
stands.  The branch leads the leaf to the root. -/
theorem tree_opened (leaves : List Hash256) :
    ∃ height, IsLeast {h | leaves.length ≤ 2 ^ h} height ∧
      ∀ (index : UInt32) (hindex : index.toNat < leaves.length),
        ∃ b, open? leaves index = some (b, node leaves height 0) ∧
          (∀ siblings root, Opens leaves index.toNat siblings root ↔
            siblings = b.hashes ∧ root = node leaves height 0) ∧
          b.index = index ∧ index.toNat < 2 ^ height ∧ b.height = height ∧
          (∀ level < height,
            b.hashes[level]? = some (neighbour leaves level (index.toNat >>> level))) ∧
          b.rootOf leaves[index.toNat] = node leaves height 0 := by
  refine ⟨treeHeight leaves.length, isLeast_treeHeight _, fun index hindex => ?_⟩
  have hopen := open?_eq_some_iff.mpr ⟨hindex, rfl, rfl⟩
  have hroom := Nat.lt_of_lt_of_le hindex (le_two_pow_treeHeight leaves.length)
  refine ⟨branchOf leaves index, hopen, fun siblings root => opens_iff hindex, rfl, hroom,
    height_branchOf index, fun level hlevel => ?_, rootOf_branchOf hindex⟩
  rw [branchOf, path, List.getElem?_map, List.getElem?_range hlevel, Option.map_some,
    Nat.zero_add, Nat.shiftRight_eq_div_pow]

/-- A tree whose last leaf has no neighbour on two levels. -/
def fiveLeaves : List Hash256 := (List.range 5).map .ofNat

theorem fiveLeaves_opened :
    (4 : UInt32).toNat < fiveLeaves.length ∧
      ∃ b, open? fiveLeaves 4 = some (b, node fiveLeaves 3 0) ∧ b.height = 3 ∧
        b.hashes[1]? = some (node fiveLeaves 1 2) ∧
        b.rootOf (.ofNat 4) = node fiveLeaves 3 0 := by
  have hindex : (4 : UInt32).toNat < fiveLeaves.length := by decide
  obtain ⟨height, hleast, hopened⟩ := tree_opened fiveLeaves
  have hheight : height = 3 := hleast.unique (isLeast_treeHeight 5)
  subst hheight
  obtain ⟨b, hopen, -, -, -, hthree, hlevels, hroot⟩ := hopened 4 hindex
  exact ⟨hindex, b, hopen, hthree, hlevels 1 (by decide), hroot⟩

end MergedMining.Merkle
