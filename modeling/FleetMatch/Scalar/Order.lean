/-!
# Comparing and bounding scalars

* `Comparable`: numbers with the two comparisons `le` and `lt`.  On `Float` both are false as soon
  as an operand is not a number.
* `Comparable.clamp?`: the nearest value of a closed interval, `none` where the interval is empty
  or has an end that is not a number.
* `Scalar.rankLE`, `Scalar.rankLT`: the order by which distances are ranked.  It is total: a value
  that is not a number stands above all others and is equal to itself, and the two zeros are equal.
* `Scalar.totalKey`: the order by which a split compares coordinates.  It tells the two zeros apart.
* `Scalar.rank`: the place of a number in the order of ranking, as three integers.  `le_iff`, `lt_iff`,
  `beq_iff` and `rankLE_eq` read all comparisons off the ranks, so the laws of the order
  (`rankLE_trans`, `rankLE_total`) are those of integers.
-/

namespace FleetMatch

/-- Numbers that can be compared. -/
class Comparable (R : Type) where
  /-- The first number is at most the second. -/
  le : R → R → Bool
  /-- The first number is below the second. -/
  lt : R → R → Bool

instance : Comparable Float where
  le a b := decide (a ≤ b)
  lt a b := decide (a < b)

namespace Comparable

variable {R : Type} [Comparable R]

/-- The value of the interval from `lo` to `hi` that is nearest to `x`; undefined where the
interval is empty.  A value that is not a number stays as it is. -/
def clamp? (x lo hi : R) : Option R :=
  if le lo hi then some (if lt x lo then lo else if lt hi x then hi else x) else none

/-- `x` lies between `lo` and `hi`, both ends included. -/
def between (lo hi x : R) : Bool := le lo x && le x hi

end Comparable

namespace Scalar

/-- The smaller of two numbers; the other one when one is not a number. -/
def smaller (a b : Float) : Float := if a.isNaN then b else if b < a then b else a

/-- The greater of two numbers; the other one when one is not a number. -/
def greater (a b : Float) : Float := if a.isNaN then b else if a < b then b else a

/-- `a` ranks at or before `b`. -/
def rankLE (a b : Float) : Bool := b.isNaN || decide (a ≤ b)

/-- `a` ranks strictly before `b`. -/
def rankLT (a b : Float) : Bool := !rankLE b a

/-- The place of a number in the order that runs over all bit patterns: negative numbers by
falling magnitude, `-0`, `0`, then positive numbers. -/
def totalKey (x : Float) : UInt64 :=
  let signBit : UInt64 := 0x8000000000000000
  if x.toBits < signBit then x.toBits + signBit else ~~~x.toBits

/-! ## Ranks -/

open Float.Model

attribute [local instance] lexOrd

/-- Where an unpacked number stands: its class, then its exponent and its mantissa, both turned over
under a negative sign.  What is not a number stands above all classes. -/
def level : UnpackedFloat → Int × Int × Int
  | .infinity .negative => (-2, 0, 0)
  | .finite .negative m e _ => (-1, -e, -m)
  | .zero _ => (0, 0, 0)
  | .finite .positive m e _ => (1, e, m)
  | .infinity .positive => (2, 0, 0)
  | .notANumber => (3, 0, 0)

/-- The place of a number in the order of ranking. -/
def rank (x : Float) : Int × Int × Int := level x.toModel.unpack

theorem compare_neg (a b : Int) : compare (-a) (-b) = (compare a b).swap := by
  rcases Int.lt_trichotomy a b with h | h | h
  · rw [Int.compare_eq_lt.2 h, Int.compare_eq_gt.2 (Int.neg_lt_neg h)]; rfl
  · subst h; simp
  · rw [Int.compare_eq_gt.2 h, Int.compare_eq_lt.2 (Int.neg_lt_neg h)]; rfl

theorem compare_cast (m n : Nat) : compare (m : Int) n = compare m n := by
  rcases Nat.lt_trichotomy m n with h | h | h
  · rw [Nat.compare_eq_lt.2 h, Int.compare_eq_lt.2 (by omega)]
  · subst h; simp
  · rw [Nat.compare_eq_gt.2 h, Int.compare_eq_gt.2 (by omega)]

/-- Unpacked numbers are compared by their levels, unless one of them is not a number. -/
theorem compare_unpacked (a b : UnpackedFloat) :
    a.compare b = if a.isNaN || b.isNaN then none else some (compare (level a) (level b)) := by
  rcases a with (_ | _) | _ | _ | ⟨_ | _, m, e, hm⟩ <;>
    rcases b with (_ | _) | _ | _ | ⟨_ | _, m', e', hm'⟩ <;>
    try rfl
  · show some ((compare e e').then (compare m m')).swap =
      some ((compare (-e) (-e')).then (compare (-(m : Int)) (-(m' : Int))))
    rw [compare_neg, compare_neg, compare_cast, Ordering.swap_then]
  · show some ((compare e e').then (compare m m')) =
      some ((compare e e').then (compare (m : Int) (m' : Int)))
    rw [compare_cast]

theorem level_isLE_top (u : UnpackedFloat) : (compare (level u) (3, 0, 0)).isLE = true := by
  rcases u with (_ | _) | _ | _ | ⟨_ | _, m, e, hm⟩ <;> rfl

theorem top_isLE_level (u : UnpackedFloat) : (compare (3, 0, 0) (level u)).isLE = u.isNaN := by
  rcases u with (_ | _) | _ | _ | ⟨_ | _, m, e, hm⟩ <;> rfl

theorem isNaN_unpacked (u : UnpackedFloat) : u.isNaN = decide (level u = (3, 0, 0)) := by
  rcases u with (_ | _) | _ | _ | ⟨_ | _, m, e, hm⟩ <;> rfl

theorem isFinite_unpacked (u : UnpackedFloat) :
    u.isFinite = (decide (-2 < (level u).1) && decide ((level u).1 < 2)) := by
  rcases u with (_ | _) | _ | _ | ⟨_ | _, m, e, hm⟩ <;> rfl

theorem isNaN_iff (x : Float) : x.isNaN = true ↔ rank x = (3, 0, 0) := by
  show x.toModel.unpack.isNaN = true ↔ rank x = (3, 0, 0)
  rw [isNaN_unpacked, decide_eq_true_eq]
  rfl

theorem isFinite_iff (x : Float) : x.isFinite = true ↔ -2 < (rank x).1 ∧ (rank x).1 < 2 := by
  show x.toModel.unpack.isFinite = true ↔ -2 < (rank x).1 ∧ (rank x).1 < 2
  rw [isFinite_unpacked, Bool.and_eq_true, decide_eq_true_eq, decide_eq_true_eq]
  rfl

theorem isNaN_of_isFinite {x : Float} (h : x.isFinite = true) : x.isNaN = false := by
  have below := ((isFinite_iff x).1 h).2
  cases hx : x.isNaN with
  | false => rfl
  | true =>
    rw [(isNaN_iff x).1 hx] at below
    exact absurd below (by decide)

theorem le_iff_compare (x y : Float) :
    x ≤ y ↔ (x.toModel.unpack.compare y.toModel.unpack).any (·.isLE) = true :=
  decide_eq_true_iff

theorem lt_iff_compare (x y : Float) :
    x < y ↔ (x.toModel.unpack.compare y.toModel.unpack == some .lt) = true :=
  decide_eq_true_iff

theorem le_iff (x y : Float) :
    x ≤ y ↔ x.isNaN = false ∧ y.isNaN = false ∧ (compare (rank x) (rank y)).isLE = true := by
  rw [le_iff_compare, compare_unpacked]
  show _ ↔ x.toModel.unpack.isNaN = false ∧ y.toModel.unpack.isNaN = false ∧
    (compare (level x.toModel.unpack) (level y.toModel.unpack)).isLE = true
  cases x.toModel.unpack.isNaN <;> cases y.toModel.unpack.isNaN <;> simp

theorem lt_iff (x y : Float) :
    x < y ↔ x.isNaN = false ∧ y.isNaN = false ∧ compare (rank x) (rank y) = .lt := by
  rw [lt_iff_compare, compare_unpacked]
  show _ ↔ x.toModel.unpack.isNaN = false ∧ y.toModel.unpack.isNaN = false ∧
    compare (level x.toModel.unpack) (level y.toModel.unpack) = .lt
  cases x.toModel.unpack.isNaN <;> cases y.toModel.unpack.isNaN <;> simp

theorem beq_iff (x y : Float) :
    (x == y) = true ↔ x.isNaN = false ∧ y.isNaN = false ∧ rank x = rank y := by
  show (x.toModel.unpack.compare y.toModel.unpack == some .eq) = true ↔
    x.toModel.unpack.isNaN = false ∧ y.toModel.unpack.isNaN = false ∧
      level x.toModel.unpack = level y.toModel.unpack
  rw [compare_unpacked]
  cases x.toModel.unpack.isNaN <;> cases y.toModel.unpack.isNaN <;> simp

/-! ## Comparisons -/

theorem le_trans {x y z : Float} (hxy : x ≤ y) (hyz : y ≤ z) : x ≤ z := by
  rw [le_iff] at *
  exact ⟨hxy.1, hyz.2.1, Std.TransOrd.isLE_trans hxy.2.2 hyz.2.2⟩

theorem le_refl {x : Float} (hx : x.isNaN = false) : x ≤ x :=
  (le_iff x x).2 ⟨hx, hx, by rw [Std.ReflOrd.compare_self]; rfl⟩

theorem le_of_lt {x y : Float} (h : x < y) : x ≤ y := by
  obtain ⟨hx, hy, h⟩ := (lt_iff x y).1 h
  exact (le_iff x y).2 ⟨hx, hy, by rw [h]; rfl⟩

theorem le_of_not_lt {x y : Float} (hx : x.isNaN = false) (hy : y.isNaN = false) (h : ¬ y < x) :
    x ≤ y := by
  rw [lt_iff] at h
  rw [le_iff]
  refine ⟨hx, hy, ?_⟩
  rw [Std.OrientedOrd.eq_swap (a := rank x)]
  cases hc : compare (rank y) (rank x) with
  | lt => exact absurd ⟨hy, hx, hc⟩ h
  | eq => rfl
  | gt => rfl

theorem not_le_of_lt {x y : Float} (h : x < y) : ¬ y ≤ x := by
  obtain ⟨-, -, h⟩ := (lt_iff x y).1 h
  rw [le_iff, Std.OrientedOrd.eq_swap (a := rank y), h]
  simp

theorem not_le_of_lt_of_rankLE {x y z : Float} (hxy : x < y) (hyz : rankLE y z = true) :
    ¬ z ≤ x := by
  intro hzx
  have hz := ((le_iff z x).1 hzx).1
  rw [rankLE, hz, Bool.false_or] at hyz
  exact not_le_of_lt hxy (le_trans (of_decide_eq_true hyz) hzx)

theorem le_of_rankLE_of_le {x y z : Float} (hxy : rankLE x y = true) (hyz : y ≤ z) : x ≤ z := by
  have hy := ((le_iff y z).1 hyz).1
  rw [rankLE, hy, Bool.false_or] at hxy
  exact le_trans (of_decide_eq_true hxy) hyz

theorem beq_refl {x : Float} (hx : x.isNaN = false) : (x == x) = true := (beq_iff x x).2 ⟨hx, hx, rfl⟩

/-- Two numbers are equal if neither is below the other; the zeros are. -/
theorem beq_iff_le {x y : Float} : (x == y) = true ↔ x ≤ y ∧ y ≤ x := by
  rw [beq_iff, le_iff, le_iff]
  constructor
  · rintro ⟨hx, hy, same⟩
    rw [same, Std.ReflOrd.compare_self]
    exact ⟨⟨hx, hy, rfl⟩, hy, hx, rfl⟩
  · rintro ⟨⟨hx, hy, below⟩, -, -, above⟩
    exact ⟨hx, hy, Std.LawfulEqOrd.eq_of_compare (Std.OrientedCmp.isLE_antisymm below above)⟩

theorem isFinite_of_beq {x y : Float} (h : (x == y) = true) (hx : x.isFinite = true) :
    y.isFinite = true := by
  rw [isFinite_iff] at *
  rw [← ((beq_iff x y).1 h).2.2]
  exact hx

theorem smaller_eq_or (a b : Float) : smaller a b = a ∨ smaller a b = b := by
  unfold smaller
  split
  · exact .inr rfl
  · split
    · exact .inr rfl
    · exact .inl rfl

theorem greater_eq_or (a b : Float) : greater a b = a ∨ greater a b = b := by
  unfold greater
  split
  · exact .inr rfl
  · split
    · exact .inr rfl
    · exact .inl rfl

theorem smaller_le {a b : Float} (ha : a.isNaN = false) (hb : b.isNaN = false) :
    smaller a b ≤ a ∧ smaller a b ≤ b := by
  rw [smaller, ha]
  by_cases h : b < a
  · simp only [h, Bool.false_eq_true, if_true, if_false]
    exact ⟨le_of_lt h, le_refl hb⟩
  · simp only [h, Bool.false_eq_true, if_false]
    exact ⟨le_refl ha, le_of_not_lt ha hb h⟩

theorem le_greater {a b : Float} (ha : a.isNaN = false) (hb : b.isNaN = false) :
    a ≤ greater a b ∧ b ≤ greater a b := by
  rw [greater, ha]
  by_cases h : a < b
  · simp only [h, Bool.false_eq_true, if_true, if_false]
    exact ⟨le_of_lt h, le_refl hb⟩
  · simp only [h, Bool.false_eq_true, if_false]
    exact ⟨le_refl ha, le_of_not_lt hb ha h⟩

/-- An interval whose ends are in order clamps every number. -/
theorem clamp?_of_le {lo hi : Float} (x : Float) (order : lo ≤ hi) :
    ∃ y, Comparable.clamp? x lo hi = some y := by
  have inOrder : Comparable.le lo hi = true := decide_eq_true order
  simp [Comparable.clamp?, inOrder]

theorem between_iff (lo hi x : Float) : Comparable.between lo hi x = true ↔ lo ≤ x ∧ x ≤ hi := by
  simp [Comparable.between, Comparable.le]

/-! ## The order of ranking -/

theorem rankLE_eq (x y : Float) : rankLE x y = (compare (rank x) (rank y)).isLE := by
  cases hy : y.isNaN with
  | true =>
    rw [rankLE, hy, (isNaN_iff y).1 hy]
    exact (level_isLE_top x.toModel.unpack).symm
  | false =>
    rw [rankLE, hy, Bool.false_or]
    cases hx : x.isNaN with
    | true =>
      have above : (compare (rank x) (rank y)).isLE = false := by
        rw [(isNaN_iff x).1 hx]
        exact (top_isLE_level y.toModel.unpack).trans hy
      rw [above, decide_eq_false_iff_not, le_iff]
      rintro ⟨number, -, -⟩
      exact absurd (number.symm.trans hx) (by decide)
    | false =>
      rw [Bool.eq_iff_iff, decide_eq_true_eq, le_iff]
      exact ⟨fun h => h.2.2, fun h => ⟨hx, hy, h⟩⟩

theorem rankLT_eq (x y : Float) : rankLT x y = (compare (rank x) (rank y) == .lt) := by
  rw [rankLT, rankLE_eq, Std.OrientedOrd.eq_swap (a := rank y)]
  cases compare (rank x) (rank y) <;> rfl

theorem rankLE_refl (x : Float) : rankLE x x = true := by
  rw [rankLE_eq, Std.ReflOrd.compare_self]; rfl

theorem rankLE_trans {x y z : Float} (hxy : rankLE x y = true) (hyz : rankLE y z = true) :
    rankLE x z = true := by
  rw [rankLE_eq] at *
  exact Std.TransOrd.isLE_trans hxy hyz

theorem rankLE_total (x y : Float) : rankLE x y = true ∨ rankLE y x = true := by
  rw [rankLE_eq, rankLE_eq, Std.OrientedOrd.eq_swap (a := rank y)]
  cases compare (rank x) (rank y) <;> simp

theorem rankLE_of_rankLT {x y : Float} (h : rankLT x y = true) : rankLE x y = true := by
  rcases rankLE_total x y with hxy | hyx
  · exact hxy
  · simp [rankLT, hyx] at h

theorem rankLT_of_rankLE_of_rankLT {x y z : Float} (hxy : rankLE x y = true)
    (hyz : rankLT y z = true) : rankLT x z = true := by
  cases hzx : rankLE z x with
  | false => simp [rankLT, hzx]
  | true => simp [rankLT, rankLE_trans hzx hxy] at hyz

theorem rankLT_of_rankLT_of_rankLE {x y z : Float} (hxy : rankLT x y = true)
    (hyz : rankLE y z = true) : rankLT x z = true := by
  cases hzx : rankLE z x with
  | false => simp [rankLT, hzx]
  | true => simp [rankLT, rankLE_trans hyz hzx] at hxy

end Scalar

end FleetMatch
