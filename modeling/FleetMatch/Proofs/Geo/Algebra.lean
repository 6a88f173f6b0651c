import FleetMatch.Proofs.Geo.Extent
import FleetMatch.Proofs.Scalar.Clamping

/-!
# The algebra of boxes

A box that is tight around some places is the least of all boxes that contain them, and these places
tell all about it but the signs of its zeros.  A proper box is tight around two of its corners, so the
laws of growing boxes are laws of lists of places.

* `Region.Covers`: every place of a box lies in another one.
* `IsTight.covers_iff` — a tight box is the least one that contains its places.
* `IsTight.beq` — two boxes that are tight around the same places are equal up to the signs of zeros.
* `IsProper.isTight` — a proper box is tight around two of its corners.
* `exists_contains_of_intersects` — proper boxes that overlap share a place.
* `clamp?_isNearest` — clamping gives the nearest place of a box, axis by axis.
* `Laws`, `laws_of_isProper` — the laws of proper boxes, put together.
-/

set_option autoImplicit false

namespace FleetMatch

/-! ## One axis -/

namespace Scalar

variable {lo hi lo' hi' : Float} {xs ys : List Float}

/-- An extent lies within an interval if and only if its numbers do. -/
theorem Spans.within_iff (h : Spans lo hi xs) :
    (∀ x ∈ xs, Comparable.between lo' hi' x = true) ↔ lo' ≤ lo ∧ hi ≤ hi' := by
  constructor
  · intro within
    obtain ⟨x, hx, low⟩ := h.low
    obtain ⟨y, hy, high⟩ := h.high
    have above := ((between_iff lo' hi' x).1 (within x hx)).1
    have below := ((between_iff lo' hi' y).1 (within y hy)).2
    exact ⟨le_trans above (beq_iff_le.1 low).1, le_trans (beq_iff_le.1 high).2 below⟩
  · rintro ⟨low, high⟩ x hx
    obtain ⟨above, below⟩ := (between_iff lo hi x).1 (h.contains x hx)
    exact (between_iff lo' hi' x).2 ⟨le_trans low above, le_trans below high⟩

/-- Numbers have one extent, up to the signs of zeros. -/
theorem Spans.beq (h : Spans lo hi xs) (h' : Spans lo' hi' ys) (same : ∀ x, x ∈ xs ↔ x ∈ ys) :
    (lo == lo') = true ∧ (hi == hi') = true := by
  obtain ⟨low, high⟩ := h.within_iff.1 fun x hx => h'.contains x ((same x).1 hx)
  obtain ⟨low', high'⟩ := h'.within_iff.1 fun x hx => h.contains x ((same x).2 hx)
  exact ⟨beq_iff_le.2 ⟨low', low⟩, beq_iff_le.2 ⟨high, high'⟩⟩

theorem spans_ends (order : lo ≤ hi) : Spans lo hi [lo, hi] := by
  obtain ⟨hlo, hhi, -⟩ := (le_iff lo hi).1 order
  refine ⟨?_, ⟨lo, by simp, beq_refl hlo⟩, ⟨hi, by simp, beq_refl hhi⟩⟩
  intro x hx
  rw [between_iff]
  rcases List.mem_pair.1 hx with rfl | rfl
  · exact ⟨le_refl hlo, order⟩
  · exact ⟨order, le_refl hhi⟩

/-- Two intervals have a number in common if neither lies wholly before the other. -/
theorem exists_in_both (order : lo ≤ hi) (order' : lo' ≤ hi') (h : lo ≤ hi') (h' : lo' ≤ hi) :
    ∃ x, (lo ≤ x ∧ x ≤ hi) ∧ lo' ≤ x ∧ x ≤ hi' := by
  obtain ⟨left, right⟩ := le_greater ((le_iff lo hi).1 order).1 ((le_iff lo' hi').1 order').1
  refine ⟨greater lo lo', ⟨left, ?_⟩, right, ?_⟩
  · rcases greater_eq_or lo lo' with e | e <;> rw [e] <;> assumption
  · rcases greater_eq_or lo lo' with e | e <;> rw [e] <;> assumption

end Scalar

/-! ## Tight boxes are least -/

namespace Region

open Scalar

/-- Every place of the second box lies in the first one. -/
def Covers (c b : Region) : Prop := ∀ p : Place, b.contains p = true → c.contains p = true

variable {a b c : Region} {ps qs : List Place}

theorem beq_iff : (a == b) = true ↔ ((a.minX == b.minX) = true ∧ (a.maxX == b.maxX) = true) ∧
    (a.minY == b.minY) = true ∧ (a.maxY == b.maxY) = true := by
  show (a.minX == b.minX && (a.maxX == b.maxX && (a.minY == b.minY && a.maxY == b.maxY))) = true ↔ _
  simp [and_assoc]

/-- **A tight box is the least one that contains its places.** -/
theorem IsTight.covers_iff (h : IsTight b ps) : Covers c b ↔ ∀ p ∈ ps, c.contains p = true := by
  constructor
  · intro covers p hp
    exact covers p (h.contains p hp)
  · intro within p hp
    have longitudes : ∀ x ∈ ps.map Point.x, Comparable.between c.minX c.maxX x = true := by
      intro x hx
      obtain ⟨r, hr, rfl⟩ := List.mem_map.1 hx
      exact (between_iff _ _ _).2 (contains_iff.1 (within r hr)).1
    have latitudes : ∀ y ∈ ps.map Point.y, Comparable.between c.minY c.maxY y = true := by
      intro y hy
      obtain ⟨r, hr, rfl⟩ := List.mem_map.1 hy
      exact (between_iff _ _ _).2 (contains_iff.1 (within r hr)).2
    obtain ⟨west, east⟩ := h.longitudes.within_iff.1 longitudes
    obtain ⟨south, north⟩ := h.latitudes.within_iff.1 latitudes
    obtain ⟨⟨left, right⟩, below, above⟩ := contains_iff.1 hp
    exact contains_iff.2 ⟨⟨Scalar.le_trans west left, Scalar.le_trans right east⟩,
      Scalar.le_trans south below, Scalar.le_trans above north⟩

/-- **Boxes that are tight around the same places are equal**, up to the signs of zeros.  Neither the
order of the places counts nor how often they are listed. -/
theorem IsTight.beq (h : IsTight a ps) (h' : IsTight b qs) (same : ∀ p, p ∈ ps ↔ p ∈ qs) :
    (a == b) = true := by
  have longitudes : ∀ x, x ∈ ps.map Point.x ↔ x ∈ qs.map Point.x := by simp [same]
  have latitudes : ∀ y, y ∈ ps.map Point.y ↔ y ∈ qs.map Point.y := by simp [same]
  exact beq_iff.2 ⟨h.longitudes.beq h'.longitudes longitudes, h.latitudes.beq h'.latitudes latitudes⟩

/-! ## Growing boxes -/

/-- The two corners of a box that hold all its sides. -/
def corners (b : Region) : List Place := [⟨b.minX, b.minY⟩, ⟨b.maxX, b.maxY⟩]

/-- **A proper box is tight around two of its corners.** -/
theorem IsProper.isTight (h : b.IsProper) : IsTight b (corners b) :=
  ⟨spans_ends h.ordered.1, spans_ends h.ordered.2⟩

theorem IsProper.isFinite_corners (h : b.IsProper) : ∀ p ∈ corners b, p.isFinite = true := by
  obtain ⟨minX, maxX, minY, maxY⟩ := h.finite
  simp [corners, Place.isFinite, minX, maxX, minY, maxY]

theorem IsProper.isTight_expand (ha : a.IsProper) (hb : b.IsProper) :
    IsTight (expand a b) (corners a ++ corners b) :=
  Region.isTight_expand ha.isTight hb.isTight

theorem IsProper.expand (ha : a.IsProper) (hb : b.IsProper) : (expand a b).IsProper := by
  apply (ha.isTight_expand hb).isProper
  intro p hp
  rcases List.mem_append.1 hp with hp | hp
  · exact ha.isFinite_corners p hp
  · exact hb.isFinite_corners p hp

/-- **The box grown from two proper boxes is the least one above both.** -/
theorem covers_expand_iff (ha : a.IsProper) (hb : b.IsProper) :
    Covers c (expand a b) ↔ Covers c a ∧ Covers c b := by
  rw [(ha.isTight_expand hb).covers_iff, List.forall_mem_append, ha.isTight.covers_iff,
    hb.isTight.covers_iff]

theorem enclosing?_isTight (nonempty : ps ≠ []) (finite : ∀ p ∈ ps, p.isFinite = true) :
    ∃ box, enclosing? ps = some box ∧ IsTight box ps := by
  cases ps with
  | nil => exact absurd rfl nonempty
  | cons first rest => exact ⟨enclose first rest, rfl, isTight_enclose first rest finite⟩

/-! ## Overlaps -/

/-- **Proper boxes that overlap share a place.** -/
theorem exists_contains_of_intersects (ha : a.IsProper) (hb : b.IsProper)
    (overlap : a.intersects b = true) : ∃ p, a.contains p = true ∧ b.contains p = true := by
  obtain ⟨⟨⟨west, east⟩, south⟩, north⟩ := intersects_iff.1 overlap
  obtain ⟨x, inA, inB⟩ := exists_in_both ha.ordered.1 hb.ordered.1 west east
  obtain ⟨y, inA', inB'⟩ := exists_in_both ha.ordered.2 hb.ordered.2 south north
  exact ⟨⟨x, y⟩, contains_iff.2 ⟨inA, inA'⟩, contains_iff.2 ⟨inB, inB'⟩⟩

theorem intersects_comm : a.intersects b = b.intersects a := by
  rw [Bool.eq_iff_iff, intersects_iff, intersects_iff]
  tauto

/-! ## Clamping -/

/-- Of all places of a box, `c` is nearest to `q` on either axis, and it is `q` itself if that is one of
them. -/
structure IsNearest (b : Region) (q c : Place) : Prop where
  inside : b.contains c = true
  fixed_iff : (c == q) = true ↔ b.contains q = true
  nearest : ∀ p, b.contains p = true →
    |value c.x - value q.x| ≤ |value p.x - value q.x| ∧
      |value c.y - value q.y| ≤ |value p.y - value q.y|

/-- **Clamping gives the nearest place of a proper box.** -/
theorem clamp?_isNearest {q : Place} (h : b.IsProper) (finite : q.isFinite = true) :
    ∃ c, b.clamp? q = some c ∧ IsNearest b q c := by
  simp only [Place.isFinite, Bool.and_eq_true] at finite
  obtain ⟨x, clampX⟩ := Scalar.clamp?_of_le q.x h.ordered.1
  obtain ⟨y, clampY⟩ := Scalar.clamp?_of_le q.y h.ordered.2
  have nearX := Scalar.clamp?_isNearest (isNaN_of_isFinite finite.1) clampX
  have nearY := Scalar.clamp?_isNearest (isNaN_of_isFinite finite.2) clampY
  have clamped : b.clamp? q = some ⟨x, y⟩ := by simp [Box.clamp?, clampX, clampY]
  refine ⟨⟨x, y⟩, clamped, contains_iff.2 ⟨nearX.inside, nearY.inside⟩, ?_, ?_⟩
  · rw [contains_iff, ← nearX.fixed_iff, ← nearY.fixed_iff]
    show (x == q.x && y == q.y) = true ↔ _
    rw [Bool.and_eq_true]
  · intro p hp
    obtain ⟨⟨left, right⟩, below, above⟩ := contains_iff.1 hp
    exact ⟨nearX.nearest p.x left right, nearY.nearest p.y below above⟩

/-! ## The laws together -/

/-- The box is the least one that contains all places of a list. -/
structure IsHull (box : Region) (ps : List Place) : Prop where
  proper : box.IsProper
  contains : ∀ p ∈ ps, box.contains p = true
  covers_iff : ∀ c : Region, Covers c box ↔ ∀ p ∈ ps, c.contains p = true
  /-- Neither the order of the places counts nor how often they are listed. -/
  unordered : ∀ qs, (∀ p, p ∈ ps ↔ p ∈ qs) →
    ∃ box', enclosing? qs = some box' ∧ (box == box') = true

theorem enclosing?_isHull (nonempty : ps ≠ []) (finite : ∀ p ∈ ps, p.isFinite = true) :
    ∃ box, enclosing? ps = some box ∧ IsHull box ps := by
  obtain ⟨box, enclosed, tight⟩ := enclosing?_isTight nonempty finite
  refine ⟨box, enclosed, tight.isProper finite, tight.contains, fun c => tight.covers_iff, ?_⟩
  intro qs same
  have nonempty' : qs ≠ [] := by
    rintro rfl
    exact nonempty (List.eq_nil_iff_forall_not_mem.2 fun p hp => by simpa using (same p).1 hp)
  obtain ⟨box', enclosed', tight'⟩ :=
    enclosing?_isTight nonempty' fun p hp => finite p ((same p).2 hp)
  exact ⟨box', enclosed', tight.beq tight' same⟩

/-- The laws of two boxes. -/
structure Laws (a b : Region) : Prop where
  /-- Boxes overlap if and only if they share a place. -/
  intersects_iff : a.intersects b = true ↔ ∃ p, a.contains p = true ∧ b.contains p = true
  intersects_comm : a.intersects b = b.intersects a
  /-- A side in common is enough, on either axis. -/
  intersects_of_meridian : (a.maxX == b.minX) = true → a.minY ≤ b.maxY → b.minY ≤ a.maxY →
    a.intersects b = true
  intersects_of_parallel : (a.maxY == b.minY) = true → a.minX ≤ b.maxX → b.minX ≤ a.maxX →
    a.intersects b = true
  /-- The box grown from both is the least one above them. -/
  isProper_expand : (expand a b).IsProper
  covers_expand_iff : ∀ c : Region, Covers c (expand a b) ↔ Covers c a ∧ Covers c b
  expand_comm : (expand a b == expand b a) = true
  expand_assoc : ∀ c : Region, c.IsProper →
    (expand (expand a b) c == expand a (expand b c)) = true
  expand_self : (expand a a == a) = true
  /-- Finite places have a least box around them. -/
  enclosing : ∀ ps : List Place, ps ≠ [] → (∀ p ∈ ps, p.isFinite = true) →
    ∃ box, enclosing? ps = some box ∧ IsHull box ps
  /-- Every finite place has a nearest place in a box. -/
  clamp : ∀ q : Place, q.isFinite = true → ∃ c, a.clamp? q = some c ∧ IsNearest a q c

/-- **The laws of proper boxes.** -/
theorem laws_of_isProper (ha : a.IsProper) (hb : b.IsProper) : Laws a b := by
  have tight := ha.isTight_expand hb
  constructor
  case intersects_iff =>
    refine ⟨exists_contains_of_intersects ha hb, ?_⟩
    rintro ⟨p, inA, inB⟩
    exact intersects_of_contains inA inB
  case intersects_comm => exact intersects_comm
  case intersects_of_meridian =>
    intro meridian south north
    obtain ⟨before, behind⟩ := beq_iff_le.1 meridian
    have west := Scalar.le_trans (Scalar.le_trans ha.ordered.1 before) hb.ordered.1
    exact Region.intersects_iff.2 ⟨⟨⟨west, behind⟩, south⟩, north⟩
  case intersects_of_parallel =>
    intro parallel west east
    obtain ⟨before, behind⟩ := beq_iff_le.1 parallel
    have south := Scalar.le_trans (Scalar.le_trans ha.ordered.2 before) hb.ordered.2
    exact Region.intersects_iff.2 ⟨⟨⟨west, east⟩, south⟩, behind⟩
  case isProper_expand => exact ha.expand hb
  case covers_expand_iff => exact fun c => covers_expand_iff ha hb
  case expand_comm => exact tight.beq (hb.isTight_expand ha) fun p => by simp [or_comm]
  case expand_assoc =>
    intro c hc
    have left := Region.isTight_expand tight hc.isTight
    have right := Region.isTight_expand ha.isTight (hb.isTight_expand hc)
    exact left.beq right fun p => by simp
  case expand_self => exact (ha.isTight_expand ha).beq ha.isTight fun p => by simp
  case enclosing => exact fun ps => enclosing?_isHull
  case clamp => exact fun q => clamp?_isNearest ha

/-- Two boxes that touch in one corner, whose common side on the first axis is a zero of either sign. -/
theorem touching_laws : ∃ a b : Region, a = ⟨-1.5, 0.0, -1.0, 2.0⟩ ∧ b = ⟨-0.0, 3.0, 2.0, 1e300⟩ ∧
    a.IsProper ∧ b.IsProper ∧ Laws a b ∧ a.intersects b = true := by
  have left : IsProper ⟨-1.5, 0.0, -1.0, 2.0⟩ := by constructor <;> decide +kernel
  have right : IsProper ⟨-0.0, 3.0, 2.0, 1e300⟩ := by constructor <;> decide +kernel
  have laws := laws_of_isProper left right
  have corner : Box.contains ⟨-1.5, 0.0, -1.0, 2.0⟩ (⟨0.0, 2.0⟩ : Place) = true ∧
      Box.contains ⟨-0.0, 3.0, 2.0, 1e300⟩ (⟨0.0, 2.0⟩ : Place) = true := by
    constructor <;> decide +kernel
  exact ⟨_, _, rfl, rfl, left, right, laws, laws.intersects_iff.2 ⟨_, corner⟩⟩

end Region

end FleetMatch
