import FleetMatch.Distance.GreatCircle
import Mathlib.Analysis.SpecialFunctions.Complex.Arg
import Mathlib.Analysis.SpecialFunctions.Trigonometric.Inverse

/-!
# The great-circle bound over the real numbers

The formulas of great circles are read here with real sines, cosines and roots.  Distances grow as the
cosine of the angle between two points falls.  Along a circle of latitude and along a meridian it changes
like the cosine of the way from one place, and on a stretch of a turn beside that place a cosine is
greatest at an end.  This leaves the points that the bound of a box compares.

The bound counts longitudes along a line.  It is the least distance for queries and boxes in the usual
ranges, where no way is longer than a turn.

* `haversine_eq`, `distance_le_of_cosine` — the order of distances is the reverse order of cosines.
* `cos_radians_le` — on a stretch of a turn without zero inside, a cosine is at most that of an end.
* `Clamps.abs_sub_le` — clamping finds the nearest number of an interval.
* `cosine_meridian` — along a meridian the cosine is that of the way to the closest latitude.
* `meridianBound?_isLeast` — the bound of a meridian is the least distance to its stretch.
* `side_nearer` — beside a box, some point of a side meridian is nearer than any point of the box.
* `bound?_isLeast` — the bound of a box is the least distance to its points.
-/

set_option autoImplicit false

namespace FleetMatch

open Real

/-! ## Real numbers -/

noncomputable instance : Comparable ℝ where
  le a b := decide (a ≤ b)
  lt a b := decide (a < b)

/-- Real numbers.  An angle lies above minus a half turn and reaches up to a half turn. -/
noncomputable instance : Trigonometric ℝ where
  zero := 0
  half := 0.5
  one := 1
  two := 2.0
  degree := π / 180
  radian := 180 / π
  sqrt := Real.sqrt
  sin := Real.sin
  cos := Real.cos
  arcsin := Real.arcsin
  angle y x := Complex.arg ⟨x, y⟩
  smaller := min
  least a b c := min (min a b) c

namespace GreatCircle

/-- A number of degrees in radians. -/
noncomputable def radians (x : ℝ) : ℝ := x * (π / 180)

theorem radians_sub (x y : ℝ) : radians (x - y) = radians x - radians y := by
  unfold radians
  ring

theorem radians_zero : radians 0 = 0 := zero_mul _

theorem radians_ninety : radians 90 = π / 2 := by
  unfold radians
  ring

theorem radians_turn : radians 360 = 2 * π := by
  unfold radians
  ring

theorem radians_mono {x y : ℝ} (h : x ≤ y) : radians x ≤ radians y :=
  mul_le_mul_of_nonneg_right h (by positivity)

theorem abs_radians (x : ℝ) : |radians x| = radians |x| := by
  have degree : 0 ≤ π / 180 := by positivity
  rw [radians, abs_mul, abs_of_nonneg degree, radians]

/-! ## Distances and cosines -/

/-- The cosine of the angle between two points. -/
noncomputable def cosine (a b : Point ℝ) : ℝ :=
  sin (radians a.y) * sin (radians b.y) +
    cos (radians a.y) * cos (radians b.y) * cos (radians (b.x - a.x))

theorem square_sin_half (x : ℝ) : square (sin (x * 0.5)) = (1 - cos x) / 2 := by
  have double : 2 * (x * 0.5) = x := by ring
  have half := sin_sq_eq_half_sub (x * 0.5)
  rw [double] at half
  show sin (x * 0.5) * sin (x * 0.5) = _
  rw [← sq, half]
  ring

theorem haversine_eq (a b : Point ℝ) : haversine a b = (1 - cosine a b) / 2 := by
  show square (sin (radians (b.y - a.y) * 0.5)) +
    cos (radians a.y) * cos (radians b.y) * square (sin (radians (b.x - a.x) * 0.5)) = _
  rw [square_sin_half, square_sin_half, radians_sub b.y a.y, cos_sub, cosine]
  ring

theorem distance_eq (radius : ℝ) (a b : Point ℝ) :
    distance radius a b = radius * (2 * arcsin √(min ((1 - cosine a b) / 2) 1)) := by
  have two : (2.0 : ℝ) = 2 := by norm_num
  rw [← haversine_eq, ← two]
  rfl

variable {radius : ℝ} {q p p' : Point ℝ}

/-- **The greater the cosine, the nearer the point.** -/
theorem distance_le_of_cosine (hr : 0 ≤ radius) (h : cosine q p' ≤ cosine q p) :
    distance radius q p ≤ distance radius q p' := by
  have less : min ((1 - cosine q p) / 2) 1 ≤ min ((1 - cosine q p') / 2) 1 := by
    apply min_le_min _ le_rfl
    linarith
  have angles := monotone_arcsin (sqrt_le_sqrt less)
  rw [distance_eq, distance_eq]
  apply mul_le_mul_of_nonneg_left _ hr
  linarith

theorem distance_nonneg (hr : 0 ≤ radius) (q p : Point ℝ) : 0 ≤ distance radius q p := by
  have angle := arcsin_nonneg.2 (sqrt_nonneg (min ((1 - cosine q p) / 2) 1))
  rw [distance_eq]
  positivity

theorem distance_of_cosine_eq_one (radius : ℝ) (h : cosine q p = 1) : distance radius q p = 0 := by
  rw [distance_eq, h]
  simp

theorem cosine_self (q : Point ℝ) : cosine q q = 1 := by
  have unit := sin_sq_add_cos_sq (radians q.y)
  rw [cosine, sub_self, radians_zero, cos_zero]
  linarith

/-! ## Stretches of a turn -/

/-- Within half a turn, the cosine falls away from zero. -/
theorem cos_radians_le_of_abs {x y : ℝ} (h : |x| ≤ |y|) (hy : |y| ≤ 180) :
    cos (radians y) ≤ cos (radians x) := by
  rw [← cos_abs (radians y), ← cos_abs (radians x), abs_radians, abs_radians]
  apply cos_le_cos_of_nonneg_of_le_pi _ _ (radians_mono h)
  · rw [← radians_zero]
    exact radians_mono (abs_nonneg x)
  · calc radians |y|
      _ ≤ radians 180 := radians_mono hy
      _ = π := by unfold radians; ring

theorem cos_radians_neg (x : ℝ) : cos (radians (-x)) = cos (radians x) := by
  rw [← cos_abs, abs_radians, abs_neg, ← abs_radians, cos_abs]

theorem cos_radians_turn_sub (x : ℝ) : cos (radians (360 - x)) = cos (radians x) := by
  rw [radians_sub, radians_turn, cos_two_pi_sub]

/-- From zero up to a full turn, a cosine is at most that of an end of the stretch. -/
theorem cos_radians_le_of_nonneg {a x b : ℝ} (ha : 0 ≤ a) (hax : a ≤ x) (hxb : x ≤ b)
    (hb : b ≤ 360) : cos (radians x) ≤ cos (radians a) ∨ cos (radians x) ≤ cos (radians b) := by
  -- Before half a turn the cosine has fallen since the near end, after it rises up to the far end.
  by_cases early : x ≤ 180
  · left
    apply cos_radians_le_of_abs
    · rw [abs_of_nonneg ha, abs_of_nonneg (ha.trans hax)]
      exact hax
    · rw [abs_of_nonneg (ha.trans hax)]
      exact early
  · right
    rw [not_le] at early
    rw [← cos_radians_turn_sub x, ← cos_radians_turn_sub b]
    apply cos_radians_le_of_abs
    · rw [abs_of_nonneg (by linarith), abs_of_nonneg (by linarith)]
      linarith
    · rw [abs_of_nonneg (by linarith)]
      linarith

/-- **On a stretch of a turn to one side of zero, a cosine is at most that of an end.** -/
theorem cos_radians_le {a x b : ℝ} (hax : a ≤ x) (hxb : x ≤ b)
    (side : 0 ≤ a ∧ b ≤ 360 ∨ b ≤ 0 ∧ -360 ≤ a) :
    cos (radians x) ≤ cos (radians a) ∨ cos (radians x) ≤ cos (radians b) := by
  rcases side with ⟨ha, hb⟩ | ⟨hb, ha⟩
  · exact cos_radians_le_of_nonneg ha hax hxb hb
  · rw [← cos_radians_neg a, ← cos_radians_neg x, ← cos_radians_neg b, or_comm]
    apply cos_radians_le_of_nonneg <;> linarith

theorem cos_radians_nonneg {x : ℝ} (low : -90 ≤ x) (high : x ≤ 90) : 0 ≤ cos (radians x) := by
  have half : |x| ≤ |(90 : ℝ)| := by
    rw [abs_of_nonneg (by norm_num : (0 : ℝ) ≤ 90)]
    exact abs_le.2 ⟨low, high⟩
  have least := cos_radians_le_of_abs half (by norm_num)
  rwa [radians_ninety, cos_pi_div_two] at least

/-! ## Clamping -/

/-- What clamping `x` to an interval gives: the end before which `x` stands, or `x` itself. -/
def Clamps (lo hi x y : ℝ) : Prop := y = lo ∧ x ≤ lo ∨ y = hi ∧ hi ≤ x ∨ y = x

theorem clamp?_eq {lo hi : ℝ} (x : ℝ) (order : lo ≤ hi) :
    ∃ y, Comparable.clamp? x lo hi = some y ∧ lo ≤ y ∧ y ≤ hi ∧ Clamps lo hi x y := by
  simp only [Comparable.clamp?, Comparable.le, Comparable.lt, order, decide_true, if_true,
    decide_eq_true_eq]
  refine ⟨_, rfl, ?_⟩
  by_cases below : x < lo
  · rw [if_pos below]
    exact ⟨le_rfl, order, .inl ⟨rfl, below.le⟩⟩
  · rw [if_neg below]
    rw [not_lt] at below
    by_cases above : hi < x
    · rw [if_pos above]
      exact ⟨order, le_rfl, .inr (.inl ⟨rfl, above.le⟩)⟩
    · rw [if_neg above]
      exact ⟨below, not_lt.1 above, .inr (.inr rfl)⟩

/-- No number of an interval is nearer than the one that clamping gives. -/
theorem Clamps.abs_sub_le {lo hi x y z : ℝ} (h : Clamps lo hi x y) (above : lo ≤ z)
    (below : z ≤ hi) : |y - x| ≤ |z - x| := by
  apply Set.abs_sub_left_of_mem_uIcc
  rcases h with ⟨rfl, side⟩ | ⟨rfl, side⟩ | rfl
  · exact Set.mem_uIcc_of_le side above
  · exact Set.mem_uIcc_of_ge below side
  · exact Set.left_mem_uIcc

/-! ## Meridians -/

/-- The direction in which the meridian `lon` comes nearest to `q`. -/
noncomputable def towards (q : Point ℝ) (lon : ℝ) : ℂ :=
  ⟨cos (radians q.y) * cos (radians (lon - q.x)), sin (radians q.y)⟩

theorem closestLatitude_eq (q : Point ℝ) (lon : ℝ) :
    closestLatitude q lon = Complex.arg (towards q lon) * (180 / π) := rfl

theorem radians_closestLatitude (q : Point ℝ) (lon : ℝ) :
    radians (closestLatitude q lon) = Complex.arg (towards q lon) := by
  rw [closestLatitude_eq, radians]
  field_simp

theorem abs_closestLatitude_le (q : Point ℝ) (lon : ℝ) : |closestLatitude q lon| ≤ 180 := by
  have degrees : 0 ≤ 180 / π := by positivity
  calc |closestLatitude q lon|
    _ = |Complex.arg (towards q lon)| * (180 / π) := by
      rw [closestLatitude_eq, abs_mul, abs_of_nonneg degrees]
    _ ≤ π * (180 / π) := mul_le_mul_of_nonneg_right (Complex.abs_arg_le_pi _) degrees
    _ = 180 := by field_simp

/-- **Along a meridian the cosine is that of the way to the closest latitude**, up to a factor. -/
theorem cosine_meridian (q : Point ℝ) (lon lat : ℝ) :
    cosine q ⟨lon, lat⟩ = ‖towards q lon‖ * cos (radians (lat - closestLatitude q lon)) := by
  have east : ‖towards q lon‖ * cos (Complex.arg (towards q lon)) =
      cos (radians q.y) * cos (radians (lon - q.x)) := Complex.norm_mul_cos_arg _
  have north : ‖towards q lon‖ * sin (Complex.arg (towards q lon)) = sin (radians q.y) :=
    Complex.norm_mul_sin_arg _
  calc cosine q ⟨lon, lat⟩
    _ = cos (radians q.y) * cos (radians (lon - q.x)) * cos (radians lat) +
        sin (radians q.y) * sin (radians lat) := by
      show sin (radians q.y) * sin (radians lat) +
        cos (radians q.y) * cos (radians lat) * cos (radians (lon - q.x)) = _
      ring
    _ = ‖towards q lon‖ * cos (radians (lat - closestLatitude q lon)) := by
      rw [← east, ← north, radians_sub, radians_closestLatitude, cos_sub]
      ring

/-- The distance to the point of a meridian at a latitude. -/
noncomputable def reach (radius : ℝ) (q : Point ℝ) (lon lat : ℝ) : ℝ := distance radius q ⟨lon, lat⟩

/-- **The nearest point of a stretch of a meridian** is at the closest latitude or at an end. -/
theorem meridian_nearer (hr : 0 ≤ radius) (q : Point ℝ) (lon : ℝ) {lo hi lat y : ℝ}
    (south : -90 ≤ lo) (north : hi ≤ 90) (above : lo ≤ lat) (below : lat ≤ hi)
    (clamped : Clamps lo hi (closestLatitude q lon) y) :
    reach radius q lon y ≤ reach radius q lon lat ∨ reach radius q lon lo ≤ reach radius q lon lat ∨
      reach radius q lon hi ≤ reach radius q lon lat := by
  have nearer {l : ℝ} (h : cos (radians (lat - closestLatitude q lon)) ≤
      cos (radians (l - closestLatitude q lon))) : reach radius q lon l ≤ reach radius q lon lat := by
    apply distance_le_of_cosine hr
    rw [cosine_meridian, cosine_meridian]
    exact mul_le_mul_of_nonneg_left h (norm_nonneg _)
  -- The closest latitude may lie beyond a pole, but no farther from the stretch than a turn.
  have range := abs_le.1 (abs_closestLatitude_le q lon)
  rcases clamped with ⟨-, side⟩ | ⟨-, side⟩ | inside
  · right
    refine (cos_radians_le ?_ ?_ (.inl ⟨?_, ?_⟩)).imp nearer nearer <;> linarith
  · right
    refine (cos_radians_le ?_ ?_ (.inr ⟨?_, ?_⟩)).imp nearer nearer <;> linarith
  · left
    apply nearer
    rw [inside, sub_self, radians_zero, cos_zero]
    exact cos_le_one _

/-- **The bound of a stretch of a meridian is the least distance to it**, wherever the query stands. -/
theorem meridianBound?_isLeast (hr : 0 ≤ radius) (q : Point ℝ) (lon : ℝ) {lo hi : ℝ}
    (south : -90 ≤ lo) (order : lo ≤ hi) (north : hi ≤ 90) :
    ∃ bound, meridianBound? radius q lon lo hi = some bound ∧
      IsLeast (reach radius q lon '' Set.Icc lo hi) bound := by
  obtain ⟨y, clamp, aboveY, belowY, clamped⟩ := clamp?_eq (closestLatitude q lon) order
  have bound : meridianBound? radius q lon lo hi =
      some (min (min (reach radius q lon y) (reach radius q lon lo)) (reach radius q lon hi)) := by
    unfold meridianBound?
    rw [clamp]
    rfl
  refine ⟨_, bound, ?_, ?_⟩
  · rcases min_choice (min (reach radius q lon y) (reach radius q lon lo)) (reach radius q lon hi)
      with e | e <;> rw [e]
    · rcases min_choice (reach radius q lon y) (reach radius q lon lo) with e | e <;> rw [e]
      · exact ⟨y, ⟨aboveY, belowY⟩, rfl⟩
      · exact ⟨lo, ⟨le_rfl, order⟩, rfl⟩
    · exact ⟨hi, ⟨order, le_rfl⟩, rfl⟩
  · rintro d ⟨lat, ⟨above, below⟩, rfl⟩
    rw [min_le_iff, min_le_iff, or_assoc]
    exact meridian_nearer hr q lon south north above below clamped

end GreatCircle

/-! ## Boxes -/

/-- The point lies in the usual ranges of longitudes and latitudes, poles and antimeridian included. -/
structure Point.IsGeographic (p : Point ℝ) : Prop where
  longitude : -180 ≤ p.x ∧ p.x ≤ 180
  latitude : -90 ≤ p.y ∧ p.y ≤ 90

/-- The sides of the box stand in order and in the usual ranges of longitudes and latitudes. -/
structure Box.IsGeographic (b : Box ℝ) : Prop where
  ordered : b.minX ≤ b.maxX ∧ b.minY ≤ b.maxY
  longitudes : -180 ≤ b.minX ∧ b.maxX ≤ 180
  latitudes : -90 ≤ b.minY ∧ b.maxY ≤ 90

namespace GreatCircle

variable {radius : ℝ} {q p : Point ℝ} {box : Box ℝ}

theorem containsX_iff {x : ℝ} : box.containsX x = true ↔ box.minX ≤ x ∧ x ≤ box.maxX := by
  simp [Box.containsX, Comparable.between, Comparable.le]

theorem contains_iff : box.contains p = true ↔
    (box.minX ≤ p.x ∧ p.x ≤ box.maxX) ∧ box.minY ≤ p.y ∧ p.y ≤ box.maxY := by
  simp [Box.contains, Box.containsX, Box.containsY, Comparable.between, Comparable.le]

/-- At one latitude, the greater the cosine of the way in longitude, the nearer the point. -/
theorem distance_le_of_longitude (hr : 0 ≤ radius) (hq : -90 ≤ q.y ∧ q.y ≤ 90)
    (hp : -90 ≤ p.y ∧ p.y ≤ 90) {lon : ℝ}
    (h : cos (radians (p.x - q.x)) ≤ cos (radians (lon - q.x))) :
    reach radius q lon p.y ≤ distance radius q p := by
  have factor : 0 ≤ cos (radians q.y) * cos (radians p.y) :=
    mul_nonneg (cos_radians_nonneg hq.1 hq.2) (cos_radians_nonneg hp.1 hp.2)
  apply distance_le_of_cosine hr
  exact add_le_add_right (mul_le_mul_of_nonneg_left h factor) _

theorem cosine_of_same_longitude (q : Point ℝ) (lat : ℝ) :
    cosine q ⟨q.x, lat⟩ = cos (radians (lat - q.y)) := by
  rw [radians_sub, cos_sub]
  show sin (radians q.y) * sin (radians lat) +
    cos (radians q.y) * cos (radians lat) * cos (radians (q.x - q.x)) = _
  rw [sub_self, radians_zero, cos_zero]
  ring

/-- **In the band of a box, the nearest point is on the meridian of the query.** -/
theorem band_isLeast (hr : 0 ≤ radius) (hq : q.IsGeographic) (hb : box.IsGeographic)
    (band : box.containsX q.x = true) :
    ∃ lat, Comparable.clamp? q.y box.minY box.maxY = some lat ∧
      IsLeast (distance radius q '' {p | box.contains p = true}) (reach radius q q.x lat) := by
  obtain ⟨lat, clamp, above, below, clamped⟩ := clamp?_eq q.y hb.ordered.2
  obtain ⟨south, north⟩ := hb.latitudes
  obtain ⟨low, high⟩ := hq.latitude
  refine ⟨lat, clamp, ⟨⟨q.x, lat⟩, contains_iff.2 ⟨containsX_iff.1 band, above, below⟩, rfl⟩, ?_⟩
  rintro d ⟨p, inside, rfl⟩
  obtain ⟨-, southP, northP⟩ := contains_iff.1 inside
  have onMeridian : reach radius q q.x p.y ≤ distance radius q p := by
    apply distance_le_of_longitude hr hq.latitude ⟨south.trans southP, northP.trans north⟩
    rw [sub_self, radians_zero, cos_zero]
    exact cos_le_one _
  have half : |p.y - q.y| ≤ 180 := abs_le.2 ⟨by linarith, by linarith⟩
  have clampedNearer : reach radius q q.x lat ≤ reach radius q q.x p.y := by
    apply distance_le_of_cosine hr
    rw [cosine_of_same_longitude, cosine_of_same_longitude]
    exact cos_radians_le_of_abs (clamped.abs_sub_le southP northP) half
  exact clampedNearer.trans onMeridian

/-- **Beside a box, a point of a side meridian is nearer** than a point of the box at its latitude. -/
theorem side_nearer (hr : 0 ≤ radius) (hq : q.IsGeographic) (hb : box.IsGeographic)
    (beside : ¬ box.containsX q.x = true) (inside : box.contains p = true) :
    reach radius q box.minX p.y ≤ distance radius q p ∨
      reach radius q box.maxX p.y ≤ distance radius q p := by
  obtain ⟨⟨west, east⟩, south, north⟩ := contains_iff.1 inside
  obtain ⟨lowX, highX⟩ := hb.longitudes
  obtain ⟨lowQ, highQ⟩ := hq.longitude
  have latitude : -90 ≤ p.y ∧ p.y ≤ 90 :=
    ⟨hb.latitudes.1.trans south, north.trans hb.latitudes.2⟩
  have nearer {lon : ℝ} (h : cos (radians (p.x - q.x)) ≤ cos (radians (lon - q.x))) :
      reach radius q lon p.y ≤ distance radius q p :=
    distance_le_of_longitude hr hq.latitude latitude h
  -- From the query, the whole box lies on one side and within one turn.
  have side : 0 ≤ box.minX - q.x ∧ box.maxX - q.x ≤ 360 ∨
      box.maxX - q.x ≤ 0 ∧ -360 ≤ box.minX - q.x := by
    rw [containsX_iff, not_and_or, not_le, not_le] at beside
    rcases beside with left | right
    · left
      constructor <;> linarith
    · right
      constructor <;> linarith
  refine (cos_radians_le ?_ ?_ side).imp nearer nearer <;> linarith

/-- **Beside a box, the nearest point is on a side meridian.** -/
theorem sides_isLeast (hr : 0 ≤ radius) (hq : q.IsGeographic) (hb : box.IsGeographic)
    (beside : ¬ box.containsX q.x = true) {west east : ℝ}
    (hw : IsLeast (reach radius q box.minX '' Set.Icc box.minY box.maxY) west)
    (he : IsLeast (reach radius q box.maxX '' Set.Icc box.minY box.maxY) east) :
    IsLeast (distance radius q '' {p | box.contains p = true}) (min west east) := by
  obtain ⟨⟨latW, atW, rfl⟩, leastW⟩ := hw
  obtain ⟨⟨latE, atE, rfl⟩, leastE⟩ := he
  constructor
  · rcases min_choice (reach radius q box.minX latW) (reach radius q box.maxX latE) with e | e
    · rw [e]
      exact ⟨⟨box.minX, latW⟩, contains_iff.2 ⟨⟨le_rfl, hb.ordered.1⟩, atW⟩, rfl⟩
    · rw [e]
      exact ⟨⟨box.maxX, latE⟩, contains_iff.2 ⟨⟨hb.ordered.1, le_rfl⟩, atE⟩, rfl⟩
  · rintro d ⟨p, inside, rfl⟩
    have latitude := (contains_iff.1 inside).2
    rw [min_le_iff]
    rcases side_nearer hr hq hb beside inside with h | h
    · exact .inl ((leastW ⟨p.y, latitude, rfl⟩).trans h)
    · exact .inr ((leastE ⟨p.y, latitude, rfl⟩).trans h)

theorem inside_isLeast (hr : 0 ≤ radius) (inside : box.contains q = true) :
    IsLeast (distance radius q '' {p | box.contains p = true}) 0 := by
  refine ⟨⟨q, inside, distance_of_cosine_eq_one radius (cosine_self q)⟩, ?_⟩
  rintro d ⟨p, -, rfl⟩
  exact distance_nonneg hr q p

/-- **The great-circle bound of a box is the least distance to its points**: a point of the box is as
near as the bound, none is nearer, and the bound is zero if the query lies in the box. -/
theorem bound?_isLeast (hr : 0 ≤ radius) (hq : q.IsGeographic) (hb : box.IsGeographic) :
    ∃ bound, bound? radius q box = some bound ∧
      IsLeast (distance radius q '' {p | box.contains p = true}) bound ∧
      (box.contains q = true → bound = 0) := by
  unfold bound?
  by_cases inside : box.contains q = true
  · rw [if_pos inside]
    exact ⟨0, rfl, inside_isLeast hr inside, fun _ => rfl⟩
  · have outside {bound : ℝ} : box.contains q = true → bound = 0 := fun h => absurd h inside
    rw [if_neg inside]
    by_cases band : box.containsX q.x = true
    · obtain ⟨lat, clamp, least⟩ := band_isLeast hr hq hb band
      rw [if_pos band, clamp]
      exact ⟨_, rfl, least, outside⟩
    · obtain ⟨south, north⟩ := hb.latitudes
      obtain ⟨west, ew, hw⟩ := meridianBound?_isLeast hr q box.minX south hb.ordered.2 north
      obtain ⟨east, ee, he⟩ := meridianBound?_isLeast hr q box.maxX south hb.ordered.2 north
      rw [if_neg band, ew, ee]
      exact ⟨_, rfl, sides_isLeast hr hq hb band hw he, outside⟩

/-- From the antimeridian, a box on the other side of it is at no distance. -/
theorem bound?_across_antimeridian :
    ∃ bound, Point.IsGeographic ⟨-180, 0⟩ ∧ Box.IsGeographic ⟨170, 180, -10, 10⟩ ∧
      bound? 6371000 ⟨-180, 0⟩ (⟨170, 180, -10, 10⟩ : Box ℝ) = some bound ∧ bound = 0 := by
  have hr : (0 : ℝ) ≤ 6371000 := by norm_num
  have hq : Point.IsGeographic ⟨-180, 0⟩ := by
    constructor <;> norm_num
  have hb : Box.IsGeographic ⟨170, 180, -10, 10⟩ := by
    constructor <;> norm_num
  obtain ⟨bound, e, least, -⟩ := bound?_isLeast hr hq hb
  refine ⟨bound, hq, hb, e, le_antisymm ?_ ?_⟩
  · have across : cosine ⟨-180, 0⟩ ⟨180, 0⟩ = 1 := by
      have turn : (180 : ℝ) - -180 = 360 := by norm_num
      simp [cosine, radians_zero, turn, radians_turn]
    rw [← distance_of_cosine_eq_one 6371000 across]
    apply least.2
    exact ⟨⟨180, 0⟩, contains_iff.2 (by norm_num), rfl⟩
  · obtain ⟨⟨p, -, hp⟩, -⟩ := least
    rw [← hp]
    exact distance_nonneg hr _ p

end GreatCircle

end FleetMatch
