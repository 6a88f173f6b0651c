import FleetMatch.Proofs.Index.Representation
import Mathlib.Algebra.Order.Floor.Div
import Mathlib.Algebra.Order.Ring.Nat
import Mathlib.GroupTheory.GroupAction.Ring
import Mathlib.Order.Bounds.Basic

/-!
# How balanced a tree is

A tree is halved again and again until its parts fit into leaves, the left half being the smaller one.  So
the number of entries alone decides how many leaves there are and how deep they lie, and the halves are so
nearly equal that no two leaves are more than one level apart.

* `Tree.leavesFrom`, `Tree.leaves`: the leaves of a tree with their levels; a tree that is a leaf is at
  level zero.
* `Tree.Halved`: a tree whose parts are halved exactly as long as they do not fit into a leaf;
  `grow_halved` — all trees are grown so.
* `Halved.level_le`, `Halved.le_level`, `Halved.depth_le`, `Halved.lt_depth` — how deep leaves lie, told
  from how often the number of entries can be halved.
* `Halved.length_leaf`, `Halved.le_leaves_mul`, `Halved.leaves_mul_le` — how much leaves hold, and so how
  many there are.
* `Tree.Balanced`, `Index.built_index_balanced` — the closed forms of all statistics of an index.
-/

set_option autoImplicit false

namespace FleetMatch

namespace Tree

/-- The leaves of a tree at some level, each with its own level and its entries. -/
def leavesFrom (level : ℕ) : Tree → List (ℕ × List Entry)
  | .leaf entries _ => [(level, entries)]
  | .node left right _ => left.leavesFrom (level + 1) ++ right.leavesFrom (level + 1)

/-- The leaves of a tree, each with its level and its entries. -/
def leaves (t : Tree) : List (ℕ × List Entry) := t.leavesFrom 0

theorem length_leavesFrom (t : Tree) (level : ℕ) : (t.leavesFrom level).length = t.shape.leaves := by
  induction t generalizing level with
  | leaf entries box => rfl
  | node left right box ihl ihr => simp only [leavesFrom, shape, List.length_append, ihl, ihr]

theorem le_of_mem_leavesFrom {t : Tree} {level : ℕ} {leaf : ℕ × List Entry}
    (held : leaf ∈ t.leavesFrom level) : level ≤ leaf.1 := by
  induction t generalizing level with
  | leaf entries box => rw [List.mem_singleton.1 held]
  | node left right box ihl ihr =>
    rcases List.mem_append.1 held with held | held
    · exact Nat.le_of_succ_le (ihl held)
    · exact Nat.le_of_succ_le (ihr held)

theorem depth_pos (t : Tree) : 0 < t.shape.depth := by
  cases t with
  | leaf entries box => exact Nat.one_pos
  | node left right box => exact Nat.succ_pos _

/-- Every pair of halves joins two trees to one. -/
theorem nodes_add_one (t : Tree) : t.shape.nodes + 1 = 2 * t.shape.leaves := by
  induction t with
  | leaf entries box => rfl
  | node left right box ihl ihr =>
    simp only [shape]
    omega

/-! ## Halving until it fits -/

/-- A tree of so many entries.  What fits into a leaf is one, and what does not is halved, the left half
being the smaller one. -/
inductive Halved (capacity : ℕ) : ℕ → Tree → Prop
  | leaf {xs : List Entry} {box : Region} (fits : xs.length ≤ capacity) :
      Halved capacity xs.length (.leaf xs box)
  | node {n : ℕ} {left right : Tree} {box : Region} (large : capacity < n)
      (smaller : Halved capacity (n / 2) left) (greater : Halved capacity (n - n / 2) right) :
      Halved capacity n (.node left right box)

/-- **Trees are halved exactly as long as they do not fit into a leaf.** -/
theorem grow_halved (halving : Halving) (capacity : LeafCapacity) (depth : ℕ) (xs : List Entry)
    (nonempty : xs ≠ []) :
    Halved capacity.entries xs.length (grow halving capacity depth xs nonempty) := by
  fun_induction grow halving capacity depth xs nonempty with
  | case1 depth xs nonempty fits =>
    obtain ⟨first, rest, listed, leaf⟩ := leafOf_eq xs nonempty
    have length := (perm_ascending xs).length_eq
    rw [listed] at length
    rw [leaf, ← length]
    exact .leaf (length ▸ fits)
  | case2 depth xs nonempty large _ lengthLeft lengthRight ihl ihr =>
    rw [lengthLeft] at ihl
    rw [lengthRight] at ihr
    exact .node (not_le.1 large) ihl ihr

variable {capacity n d level : ℕ} {t : Tree} {leaf : ℕ × List Entry}

/-! ## Levels -/

theorem two_pow_succ_mul (d capacity : ℕ) : 2 ^ (d + 1) * capacity = 2 * (2 ^ d * capacity) := by
  rw [pow_succ, mul_comm (2 ^ d) 2, mul_assoc]

theorem le_two_pow_mul (d capacity : ℕ) : capacity ≤ 2 ^ d * capacity :=
  Nat.le_mul_of_pos_left capacity (Nat.two_pow_pos d)

/-- What fits after so many halvings has no leaf below that level. -/
theorem Halved.level_le (h : Halved capacity n t) (fits : n ≤ 2 ^ d * capacity)
    (held : leaf ∈ t.leavesFrom level) : leaf.1 ≤ level + d := by
  induction h generalizing d level with
  | leaf =>
    rw [List.mem_singleton.1 held]
    exact Nat.le_add_right level d
  | node large _ _ ihl ihr =>
    cases d with
    | zero => omega
    | succ d =>
      rw [two_pow_succ_mul] at fits
      rcases List.mem_append.1 held with held | held
      · have := ihl (d := d) (by omega) held
        omega
      · have := ihr (d := d) (by omega) held
        omega

/-- What fills leaves after so many halvings has no leaf above that level. -/
theorem Halved.le_level (h : Halved capacity n t) (pos : 0 < capacity) (fills : 2 ^ d * capacity ≤ n)
    (held : leaf ∈ t.leavesFrom level) : level + d ≤ leaf.1 := by
  induction h generalizing d level with
  | leaf fits =>
    cases d with
    | zero => exact le_of_mem_leavesFrom held
    | succ d =>
      rw [two_pow_succ_mul] at fills
      have some := le_two_pow_mul d capacity
      omega
  | node large _ _ ihl ihr =>
    cases d with
    | zero => exact le_of_mem_leavesFrom held
    | succ d =>
      rw [two_pow_succ_mul] at fills
      rcases List.mem_append.1 held with held | held
      · have := ihl (d := d) (by omega) held
        omega
      · have := ihr (d := d) (by omega) held
        omega

theorem Halved.depth_le (h : Halved capacity n t) (fits : n ≤ 2 ^ d * capacity) : t.shape.depth ≤ d + 1 := by
  induction h generalizing d with
  | leaf => exact Nat.le_add_left 1 d
  | node large _ _ ihl ihr =>
    cases d with
    | zero => omega
    | succ d =>
      rw [two_pow_succ_mul] at fits
      have left := ihl (d := d) (by omega)
      have right := ihr (d := d) (by omega)
      simp only [shape]
      omega

/-- What does not fit after so many halvings has a leaf below that level. -/
theorem Halved.lt_depth (h : Halved capacity n t) (large : 2 ^ d * capacity < n) : d + 1 < t.shape.depth := by
  induction h generalizing d with
  | leaf fits =>
    have some := le_two_pow_mul d capacity
    omega
  | @node n left right box _ _ _ _ ihr =>
    simp only [shape]
    cases d with
    | zero =>
      have := right.depth_pos
      omega
    | succ d =>
      rw [two_pow_succ_mul] at large
      have := ihr (d := d) (by omega)
      omega

/-! ## Leaves -/

/-- No leaf holds more than fits, nor less than half of what just does not fit if there was that much. -/
theorem Halved.length_leaf (h : Halved capacity n t) (held : leaf ∈ t.leavesFrom level) :
    leaf.2.length ≤ capacity ∧ ((capacity + 1) / 2 ≤ n → (capacity + 1) / 2 ≤ leaf.2.length) := by
  induction h generalizing level with
  | leaf fits =>
    rw [List.mem_singleton.1 held]
    exact ⟨fits, id⟩
  | node large _ _ ihl ihr =>
    rcases List.mem_append.1 held with held | held
    · obtain ⟨most, least⟩ := ihl held
      exact ⟨most, fun _ => least (by omega)⟩
    · obtain ⟨most, least⟩ := ihr held
      exact ⟨most, fun _ => least (by omega)⟩

theorem Halved.le_leaves_mul (h : Halved capacity n t) : n ≤ t.shape.leaves * capacity := by
  induction h with
  | leaf fits => rwa [shape, one_mul]
  | node _ _ _ ihl ihr =>
    rw [shape, add_mul]
    omega

theorem Halved.leaves_mul_le (h : Halved capacity n t) (enough : (capacity + 1) / 2 ≤ n) :
    t.shape.leaves * ((capacity + 1) / 2) ≤ n := by
  induction h with
  | leaf => rwa [shape, one_mul]
  | node large _ _ ihl ihr =>
    have left := ihl (by omega)
    have right := ihr (by omega)
    rw [shape, add_mul]
    omega

/-! ## Statistics -/

/-- How a tree of `n` entries is balanced, whose leaves hold at most `capacity` of them: its deepest leaves
lie at the level after which the halves of halves fit. -/
structure Balanced (n capacity levels : ℕ) (t : Tree) : Prop where
  /-- So often have `n` entries to be halved until they fit. -/
  least : IsLeast {d | n ⌈/⌉ 2 ^ d ≤ capacity} levels
  depth : t.shape.depth = levels + 1
  leaves : t.shape.leaves = t.leaves.length
  nodes : t.shape.nodes = 2 * t.shape.leaves - 1
  /-- All leaves lie at the deepest level or at the one above. -/
  level : ∀ leaf ∈ t.leaves, leaf.1 = levels ∨ leaf.1 + 1 = levels
  /-- If all entries fit there is nothing above the leaf. -/
  single : n ≤ capacity → ∀ leaf ∈ t.leaves, leaf.1 = 0
  /-- Otherwise leaves are filled to half at least. -/
  filled : capacity < n → ∀ leaf ∈ t.leaves,
    (capacity + 1) / 2 ≤ leaf.2.length ∧ leaf.2.length ≤ capacity
  /-- And so many of them there are. -/
  count : capacity < n →
    n ⌈/⌉ capacity ≤ t.shape.leaves ∧ t.shape.leaves ≤ n / ((capacity + 1) / 2)

theorem ceilDiv_two_pow_le (n d capacity : ℕ) : n ⌈/⌉ 2 ^ d ≤ capacity ↔ n ≤ 2 ^ d * capacity :=
  ceilDiv_le_iff_le_mul (Nat.two_pow_pos d)

/-- There is a number of halvings after which all entries fit. -/
theorem exists_isLeast_levels (n : ℕ) (pos : 0 < capacity) :
    ∃ levels, IsLeast {d | n ⌈/⌉ 2 ^ d ≤ capacity} levels := by
  have fits : ∃ d, n ⌈/⌉ 2 ^ d ≤ capacity := by
    refine ⟨n, (ceilDiv_two_pow_le n n capacity).2 ?_⟩
    calc n
      _ ≤ 2 ^ n := Nat.lt_two_pow_self.le
      _ ≤ 2 ^ n * capacity := Nat.le_mul_of_pos_right _ pos
  exact ⟨Nat.find fits, Nat.find_spec fits, fun _ hd => Nat.find_min' fits hd⟩

/-- **A tree that is halved until it fits is balanced.** -/
theorem Halved.balanced (h : Halved capacity n t) (pos : 0 < capacity) {levels : ℕ}
    (least : IsLeast {d | n ⌈/⌉ 2 ^ d ≤ capacity} levels) : Balanced n capacity levels t := by
  have fits : n ≤ 2 ^ levels * capacity := (ceilDiv_two_pow_le n levels capacity).1 least.1
  have large : ∀ d < levels, 2 ^ d * capacity < n := by
    intro d hd
    by_contra small
    exact absurd (least.2 ((ceilDiv_two_pow_le n d capacity).2 (not_lt.1 small))) (not_le.2 hd)
  constructor
  case least => exact least
  case depth =>
    refine le_antisymm (h.depth_le fits) ?_
    cases levels with
    | zero => exact t.depth_pos
    | succ d => exact h.lt_depth (large d (Nat.lt_succ_self d))
  case leaves => exact (t.length_leavesFrom 0).symm
  case nodes =>
    have := t.nodes_add_one
    omega
  case level =>
    intro leaf held
    have deepest := h.level_le fits held
    cases levels with
    | zero => omega
    | succ d =>
      have := h.le_level pos (large d (Nat.lt_succ_self d)).le held
      omega
  case single =>
    intro few leaf held
    have := h.level_le (d := 0) (by omega) held
    omega
  case filled =>
    intro many leaf held
    obtain ⟨most, least⟩ := h.length_leaf held
    exact ⟨least (by omega), most⟩
  case count =>
    intro many
    constructor
    · rw [ceilDiv_le_iff_le_mul pos, mul_comm]
      exact h.le_leaves_mul
    · rw [Nat.le_div_iff_mul_le (by omega)]
      exact h.leaves_mul_le (by omega)

end Tree

/-! ## Indexes -/

namespace Index

/-- **The statistics of an index.**  Every roster that passes the check has an index that counts its
clients and whose tree is balanced, with the statistics that follow from the number of clients and the
capacity of leaves; they are all zero without clients. -/
theorem built_index_balanced (halving : Halving) (config : IndexConfig) {roster : Roster}
    (accepted : roster.check = .ok ()) :
    ∃ ix, buildBy? halving config roster = .ok ix ∧ ix.size = roster.length ∧
      (roster ≠ [] → ∃ tree levels, ix.tree? = some tree ∧ ix.shape = tree.shape ∧
        tree.Balanced roster.length config.capacity.entries levels) ∧
      (roster = [] → ix.shape = ⟨0, 0, 0⟩) ∧
      ∀ metric, (empty metric).shape = ⟨0, 0, 0⟩ ∧ (empty metric).size = 0 := by
  refine ⟨_, buildBy?_of_check halving config accepted, rfl, ?_, ?_, fun _ => ⟨rfl, rfl⟩⟩
  · intro nonempty
    have some : roster.entries ≠ [] := fun none => nonempty ((Roster.entries_eq_nil_iff roster).1 none)
    have halved := Tree.grow_halved halving config.capacity 0 roster.entries some
    rw [Roster.length_entries] at halved
    obtain ⟨levels, least⟩ := Tree.exists_isLeast_levels roster.length config.capacity.pos
    refine ⟨Tree.grow halving config.capacity 0 roster.entries some, levels, ?_, ?_,
      halved.balanced config.capacity.pos least⟩
    · rw [treeOf?, dif_neg some]
    · simp only [shape, treeOf?, dif_neg some, Option.map_some, Option.getD_some]
  · rintro rfl
    rfl

/-- Three clients in leaves of one client each: after the first halving the left half is a leaf, and the
right half is halved once more. -/
theorem corners_balanced : Roster.corners.check = .ok () ∧
    ∃ ix, buildBy? Halving.sorting ⟨.euclidean, .ofNat 1⟩ Roster.corners = .ok ix ∧ ix.size = 3 ∧
      ix.shape = ⟨3, 5, 3⟩ := by
  obtain ⟨ix, built, size, balanced, -⟩ :=
    built_index_balanced Halving.sorting ⟨.euclidean, .ofNat 1⟩ Roster.check_corners
  obtain ⟨tree, levels, -, shape, balance⟩ := balanced (List.cons_ne_nil _ _)
  have two : IsLeast {d | 3 ⌈/⌉ 2 ^ d ≤ 1} 2 := by
    refine ⟨by decide, fun d fits => ?_⟩
    by_contra early
    rcases (by omega : d = 0 ∨ d = 1) with rfl | rfl <;> exact absurd fits (by decide)
  have deepest : levels = 2 := balance.least.unique two
  have depth : tree.shape.depth = 3 := by rw [balance.depth, deepest]
  have leaves : tree.shape.leaves = 3 := by
    obtain ⟨least, most⟩ := balance.count (by decide)
    exact Nat.le_antisymm most least
  have nodes : tree.shape.nodes = 5 := by rw [balance.nodes, leaves]
  refine ⟨Roster.check_corners, ix, built, size, ?_⟩
  have whole : tree.shape = ⟨tree.shape.depth, tree.shape.nodes, tree.shape.leaves⟩ := rfl
  rw [shape, whole, depth, nodes, leaves]

end Index

end FleetMatch
