import FleetMatch.Geo.Box

/-!
# The extent of places

A box is tight around some places if it contains all of them and each of its sides runs through one
of them.  A search prunes by boxes, so all it relies on is here.

* `Scalar.Spans`: an interval is the extent of some numbers, one axis of a tight box.
* `Region.IsTight`, `Region.IsProper`: tight boxes, and boxes with finite sides in order.
* `intersects_of_contains` — two boxes that share a place overlap.
* `isTight_expand` — the least box above two tight boxes is tight around the places of both.
* `isTight_enclose` — the box that is grown place by place is tight.
* `IsTight.isProper` — a tight box around finite places is proper.
-/

set_option autoImplicit false

namespace FleetMatch

namespace Scalar

/-! ## One axis -/

/-- The interval from `lo` to `hi` contains all numbers, and its ends are among them up to the sign
of zero. -/
structure Spans (lo hi : Float) (xs : List Float) : Prop where
  contains : ∀ x ∈ xs, Comparable.between lo hi x = true
  low : ∃ x ∈ xs, (x == lo) = true
  high : ∃ x ∈ xs, (x == hi) = true

theorem spans_singleton {x : Float} (hx : x.isNaN = false) : Spans x x [x] := by
  refine ⟨?_, ⟨x, List.mem_singleton_self x, beq_refl hx⟩, ⟨x, List.mem_singleton_self x, beq_refl hx⟩⟩
  intro y hy
  rw [List.mem_singleton.1 hy]
  exact (between_iff x x x).2 ⟨le_refl hx, le_refl hx⟩

theorem Spans.isNaN_low {lo hi : Float} {xs : List Float} (h : Spans lo hi xs) :
    lo.isNaN = false := by
  obtain ⟨x, -, hx⟩ := h.low
  exact ((beq_iff x lo).1 hx).2.1

theorem Spans.isNaN_high {lo hi : Float} {xs : List Float} (h : Spans lo hi xs) :
    hi.isNaN = false := by
  obtain ⟨x, -, hx⟩ := h.high
  exact ((beq_iff x hi).1 hx).2.1

theorem Spans.append {lo hi lo' hi' : Float} {xs ys : List Float} (h : Spans lo hi xs)
    (h' : Spans lo' hi' ys) : Spans (smaller lo lo') (greater hi hi') (xs ++ ys) := by
  obtain ⟨lowLeft, lowRight⟩ := smaller_le h.isNaN_low h'.isNaN_low
  obtain ⟨highLeft, highRight⟩ := le_greater h.isNaN_high h'.isNaN_high
  refine ⟨?_, ?_, ?_⟩
  · intro x hx
    rw [between_iff]
    rcases List.mem_append.1 hx with hx | hx
    · obtain ⟨above, below⟩ := (between_iff lo hi x).1 (h.contains x hx)
      exact ⟨le_trans lowLeft above, le_trans below highLeft⟩
    · obtain ⟨above, below⟩ := (between_iff lo' hi' x).1 (h'.contains x hx)
      exact ⟨le_trans lowRight above, le_trans below highRight⟩
  · rcases smaller_eq_or lo lo' with e | e <;> rw [e]
    · obtain ⟨x, hx, hlo⟩ := h.low
      exact ⟨x, List.mem_append_left _ hx, hlo⟩
    · obtain ⟨x, hx, hlo⟩ := h'.low
      exact ⟨x, List.mem_append_right _ hx, hlo⟩
  · rcases greater_eq_or hi hi' with e | e <;> rw [e]
    · obtain ⟨x, hx, hhi⟩ := h.high
      exact ⟨x, List.mem_append_left _ hx, hhi⟩
    · obtain ⟨x, hx, hhi⟩ := h'.high
      exact ⟨x, List.mem_append_right _ hx, hhi⟩

theorem Spans.perm {lo hi : Float} {xs ys : List Float} (h : Spans lo hi xs) (same : xs.Perm ys) :
    Spans lo hi ys := by
  obtain ⟨x, hx, low⟩ := h.low
  obtain ⟨y, hy, high⟩ := h.high
  exact ⟨fun z hz => h.contains z (same.symm.subset hz), ⟨x, same.subset hx, low⟩,
    ⟨y, same.subset hy, high⟩⟩

/-- The ends of an extent are finite and in order, if the numbers are finite. -/
theorem Spans.ends {lo hi : Float} {xs : List Float} (h : Spans lo hi xs)
    (finite : ∀ x ∈ xs, x.isFinite = true) :
    lo.isFinite = true ∧ hi.isFinite = true ∧ lo ≤ hi := by
  obtain ⟨x, hx, low⟩ := h.low
  obtain ⟨y, hy, high⟩ := h.high
  obtain ⟨above, below⟩ := (between_iff lo hi x).1 (h.contains x hx)
  exact ⟨isFinite_of_beq low (finite x hx), isFinite_of_beq high (finite y hy), le_trans above below⟩

end Scalar

/-! ## Boxes -/

namespace Region

open Scalar

/-- All sides are finite and stand in order. -/
structure IsProper (b : Region) : Prop where
  finite : b.minX.isFinite = true ∧ b.maxX.isFinite = true ∧
    b.minY.isFinite = true ∧ b.maxY.isFinite = true
  ordered : b.minX ≤ b.maxX ∧ b.minY ≤ b.maxY

/-- The box is tight around some places: on either axis it is their extent. -/
structure IsTight (b : Region) (ps : List Place) : Prop where
  longitudes : Spans b.minX b.maxX (ps.map Point.x)
  latitudes : Spans b.minY b.maxY (ps.map Point.y)

variable {a b : Region} {ps qs : List Place}

theorem contains_iff {p : Place} :
    b.contains p = true ↔ (b.minX ≤ p.x ∧ p.x ≤ b.maxX) ∧ b.minY ≤ p.y ∧ p.y ≤ b.maxY := by
  simp [Box.contains, Box.containsX, Box.containsY, between_iff]

theorem intersects_iff : a.intersects b = true ↔
    ((a.minX ≤ b.maxX ∧ b.minX ≤ a.maxX) ∧ a.minY ≤ b.maxY) ∧ b.minY ≤ a.maxY := by
  simp [Box.intersects, Comparable.le]

/-- **Two boxes that share a place overlap**, whatever their sides are. -/
theorem intersects_of_contains {p : Place} (ha : a.contains p = true)
    (hb : b.contains p = true) : a.intersects b = true := by
  rw [contains_iff] at ha hb
  obtain ⟨⟨westA, eastA⟩, southA, northA⟩ := ha
  obtain ⟨⟨westB, eastB⟩, southB, northB⟩ := hb
  rw [intersects_iff]
  refine ⟨⟨⟨?_, ?_⟩, ?_⟩, ?_⟩
  · exact Scalar.le_trans westA eastB
  · exact Scalar.le_trans westB eastA
  · exact Scalar.le_trans southA northB
  · exact Scalar.le_trans southB northA

theorem IsTight.contains (h : IsTight b ps) : ∀ p ∈ ps, b.contains p = true := by
  intro p hp
  have hx := h.longitudes.contains p.x (List.mem_map_of_mem hp)
  have hy := h.latitudes.contains p.y (List.mem_map_of_mem hp)
  simp [Box.contains, Box.containsX, Box.containsY, hx, hy]

theorem IsTight.perm (h : IsTight b ps) (same : ps.Perm qs) : IsTight b qs :=
  ⟨h.longitudes.perm (same.map _), h.latitudes.perm (same.map _)⟩

theorem isTight_ofPoint {p : Place} (hp : p.isFinite = true) : IsTight (Box.ofPoint p) [p] := by
  simp only [Place.isFinite, Bool.and_eq_true] at hp
  exact ⟨spans_singleton (isNaN_of_isFinite hp.1), spans_singleton (isNaN_of_isFinite hp.2)⟩

/-- **The least box above two tight boxes is tight around the places of both.** -/
theorem isTight_expand (ha : IsTight a ps) (hb : IsTight b qs) : IsTight (expand a b) (ps ++ qs) := by
  constructor
  · rw [List.map_append]
    exact ha.longitudes.append hb.longitudes
  · rw [List.map_append]
    exact ha.latitudes.append hb.latitudes

theorem isTight_foldl_expandPoint (rest : List Place) (hb : IsTight b ps)
    (finite : ∀ p ∈ rest, p.isFinite = true) : IsTight (rest.foldl expandPoint b) (ps ++ rest) := by
  induction rest generalizing b ps with
  | nil => simpa using hb
  | cons p rest ih =>
    have grown : IsTight (expandPoint b p) (ps ++ [p]) :=
      isTight_expand hb (isTight_ofPoint (finite p List.mem_cons_self))
    have := ih grown fun r hr => finite r (List.mem_cons_of_mem p hr)
    rwa [List.append_assoc] at this

/-- **The box that is grown place by place is tight.** -/
theorem isTight_enclose (first : Place) (rest : List Place)
    (finite : ∀ p ∈ first :: rest, p.isFinite = true) :
    IsTight (enclose first rest) (first :: rest) :=
  isTight_foldl_expandPoint rest (isTight_ofPoint (finite first List.mem_cons_self))
    fun p hp => finite p (List.mem_cons_of_mem first hp)

theorem IsTight.isProper (h : IsTight b ps) (finite : ∀ p ∈ ps, p.isFinite = true) :
    b.IsProper := by
  have hx : ∀ x ∈ ps.map Point.x, x.isFinite = true := by
    intro x hx
    obtain ⟨p, hp, rfl⟩ := List.mem_map.1 hx
    have := finite p hp
    simp only [Place.isFinite, Bool.and_eq_true] at this
    exact this.1
  have hy : ∀ y ∈ ps.map Point.y, y.isFinite = true := by
    intro y hy
    obtain ⟨p, hp, rfl⟩ := List.mem_map.1 hy
    have := finite p hp
    simp only [Place.isFinite, Bool.and_eq_true] at this
    exact this.2
  obtain ⟨minX, maxX, orderedX⟩ := h.longitudes.ends hx
  obtain ⟨minY, maxY, orderedY⟩ := h.latitudes.ends hy
  exact ⟨⟨minX, maxX, minY, maxY⟩, orderedX, orderedY⟩

end Region

end FleetMatch
