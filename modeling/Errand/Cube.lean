/-
Cubes: the integer coordinates of the grid, their face neighbours and the two ways of measuring how far apart they are.

Coordinates are 64-bit words. A neighbour whose coordinate would leave the words is left out, and the gap between two
cubes is summed with saturation, so neither operation wraps. `manhattan` is the exact gap over the integers.
-/
import Errand.Handle

namespace Errand

/-- coordinates of one cube of the grid -/
structure Cube where
  x : Int64
  y : Int64
  z : Int64
  deriving DecidableEq, Repr, Inhabited

instance : Ord Cube := ⟨compareLex (compareOn Cube.x) (compareLex (compareOn Cube.y) (compareOn Cube.z))⟩

instance : Std.TransOrd Cube :=
  inferInstanceAs (Std.TransCmp (compareLex (compareOn Cube.x) (compareLex (compareOn Cube.y) (compareOn Cube.z))))

instance : Std.LawfulEqOrd Cube where
  eq_of_compare {a b} h := by
    have h : (compare a.x b.x).then ((compare a.y b.y).then (compare a.z b.z)) = .eq := h
    obtain ⟨hx, h⟩ := Ordering.then_eq_eq.1 h
    obtain ⟨hy, hz⟩ := Ordering.then_eq_eq.1 h
    cases a; cases b
    cases Std.LawfulEqOrd.eq_of_compare hx
    cases Std.LawfulEqOrd.eq_of_compare hy
    cases Std.LawfulEqOrd.eq_of_compare hz
    rfl

namespace Cube

/-- the next coordinate down, unless it is the last -/
def below? (c : Int64) : Option Int64 := if c = Int64.minValue then none else some (c - 1)

/-- the next coordinate up, unless it is the last -/
def above? (c : Int64) : Option Int64 := if c = Int64.maxValue then none else some (c + 1)

/-- the cubes that share a face with this one: down and up in x, then in y, then in z -/
def adjacent (c : Cube) : List Cube :=
  [(below? c.x).map ({ c with x := · }), (above? c.x).map ({ c with x := · }),
   (below? c.y).map ({ c with y := · }), (above? c.y).map ({ c with y := · }),
   (below? c.z).map ({ c with z := · }), (above? c.z).map ({ c with z := · })].filterMap id

/-- the difference of two coordinates, which always fits an unsigned word -/
def gap (a b : Int64) : UInt64 := if a ≤ b then b.toUInt64 - a.toUInt64 else a.toUInt64 - b.toUInt64

/-- a sum that stops at the largest word -/
def saturatingAdd (a b : UInt64) : UInt64 := if a + b < a then UInt64.ofNat (UInt64.size - 1) else a + b

/-- this cube or one that shares a face with it -/
def touches (a b : Cube) : Bool :=
  saturatingAdd (saturatingAdd (gap a.x b.x) (gap a.y b.y)) (gap a.z b.z) ≤ 1

/-- the exact sum of the coordinates' differences -/
def manhattan (a b : Cube) : Nat :=
  (a.x.toInt - b.x.toInt).natAbs + (a.y.toInt - b.y.toInt).natAbs + (a.z.toInt - b.z.toInt).natAbs

/-- the exact square of the straight distance -/
def squaredDistance (a b : Cube) : Nat :=
  let dx := (a.x.toInt - b.x.toInt).natAbs
  let dy := (a.y.toInt - b.y.toInt).natAbs
  let dz := (a.z.toInt - b.z.toInt).natAbs
  dx * dx + dy * dy + dz * dz

def toFloat (c : Int64) : Float :=
  let size := c.toInt.natAbs.toUInt64.toFloat
  if c < 0 then -size else size

/-- the straight distance in floats: coordinates are rounded first, then subtracted, squared, summed and rooted -/
def distance (a b : Cube) : Float :=
  let dx := toFloat a.x - toFloat b.x
  let dy := toFloat a.y - toFloat b.y
  let dz := toFloat a.z - toFloat b.z
  (dx * dx + dy * dy + dz * dz).sqrt

def text (c : Cube) : String := s!"({c.x}, {c.y}, {c.z})"

end Cube

end Errand
