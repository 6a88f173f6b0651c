import FleetMatch.Distance.Metric

/-!
# Great-circle distance

Longitudes `x` and latitudes `y` are in degrees.  The formulas are written once, over any numbers
with the operations of `Trigonometric`.

* `GreatCircle.distance`: the haversine formula on a sphere of a given radius.
* `GreatCircle.meridianBound?`: the least distance to a stretch of a meridian.  Along a meridian
  the cosine of the distance is a cosine of the latitude, so the least distance is reached at one
  latitude if it lies on the stretch, and at an end otherwise.
* `GreatCircle.bound?`: the least distance to a box.  Inside the band of the longitudes of the box
  the nearest point lies on the meridian of the query, elsewhere on one of the two side meridians.
-/

namespace FleetMatch

/-- Numbers with the operations of spherical trigonometry. -/
class Trigonometric (R : Type) extends Comparable R, Add R, Sub R, Mul R where
  /-- The numbers that the formulas mention. -/
  zero : R
  half : R
  one : R
  two : R
  /-- A degree in radians. -/
  degree : R
  /-- A radian in degrees. -/
  radian : R
  sqrt : R → R
  sin : R → R
  cos : R → R
  arcsin : R → R
  /-- The angle of the direction with the given ordinate and abscissa. -/
  angle : R → R → R
  /-- The smaller of two numbers. -/
  smaller : R → R → R
  /-- The least of three numbers. -/
  least : R → R → R → R

namespace GreatCircle

open Trigonometric

variable {R : Type} [Trigonometric R]

/-- The square of a number. -/
def square (x : R) : R := x * x

/-- The haversine of the angle between two points, which rounding may lift a little above one. -/
def haversine (a b : Point R) : R :=
  let deltaLat := (b.y - a.y) * (degree : R)
  let deltaLon := (b.x - a.x) * (degree : R)
  let latA := a.y * (degree : R)
  let latB := b.y * (degree : R)
  square (sin (deltaLat * half)) + cos latA * cos latB * square (sin (deltaLon * half))

/-- The length of the shorter great-circle arc between two points. -/
def distance (radius : R) (a b : Point R) : R :=
  radius * (two * arcsin (sqrt (smaller (haversine a b) one)))

/-- The latitude at which the meridian `lon` comes nearest to `q`, in degrees. -/
def closestLatitude (q : Point R) (lon : R) : R :=
  let phi := q.y * (degree : R)
  let deltaLon := (lon - q.x) * (degree : R)
  angle (sin phi) (cos phi * cos deltaLon) * (radian : R)

/-- The least distance from `q` to the meridian `lon` between two latitudes. -/
def meridianBound? (radius : R) (q : Point R) (lon minLat maxLat : R) : Option R := do
  let closest ← Comparable.clamp? (closestLatitude q lon) minLat maxLat
  let reach := fun lat => distance radius q ⟨lon, lat⟩
  return least (reach closest) (reach minLat) (reach maxLat)

/-- The least distance from `q` to the box. -/
def bound? (radius : R) (q : Point R) (box : Box R) : Option R :=
  if box.contains q then some zero
  else if box.containsX q.x then do
    let lat ← Comparable.clamp? q.y box.minY box.maxY
    return distance radius q ⟨q.x, lat⟩
  else do
    let west ← meridianBound? radius q box.minX box.minY box.maxY
    let east ← meridianBound? radius q box.maxX box.minY box.maxY
    return smaller west east

end GreatCircle

/-- The half circumference of the unit circle, to the nearest binary64 number. -/
def Scalar.pi : Float := 3.141592653589793

/-- Binary64 numbers.  The least of three numbers passes over what is not a number and is infinite
when nothing is left. -/
instance : Trigonometric Float where
  zero := 0.0
  half := 0.5
  one := 1.0
  two := 2.0
  degree := Scalar.pi / 180.0
  radian := 180.0 / Scalar.pi
  sqrt := Float.sqrt
  sin := Float.sin
  cos := Float.cos
  arcsin := Float.asin
  angle := Float.atan2
  smaller := Scalar.smaller
  least a b c := Scalar.smaller (Scalar.smaller (Scalar.smaller (1.0 / 0.0) a) b) c

/-- The mean radius of the earth in metres. -/
def GreatCircle.earthRadius : Float := 6371000.0

/-- Great-circle distances on a sphere of the given radius, in units of the radius. -/
def Metric.haversine (radius : Float) : Metric :=
  ⟨"haversine", GreatCircle.distance radius, GreatCircle.bound? radius⟩

end FleetMatch
