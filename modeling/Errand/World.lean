/-
Worlds: what can be asked about terrain, items and units, without changing any of it.

A world is the record of its answers. The order of its lists is its own; of several equally near entities the first
listed counts.
-/
import Errand.Value

namespace Errand

/-- the answers to all questions about the surroundings -/
structure World where
  inBounds : Cube → Bool
  /-- what fills a cube; nothing is known outside the bounds -/
  ground? : Cube → Option Ground
  units : List UnitId
  members : FactionId → List UnitId
  position? : UnitId → Option Cube
  faction? : UnitId → Option FactionId
  carries : UnitId → Bool
  isAlive : UnitId → Bool
  boulders : List Cube
  logs : List Cube
  workshops : List Cube

namespace World

/-- the face neighbours inside the bounds -/
def adjacent (w : World) (c : Cube) : List Cube := c.adjacent.filter w.inBounds

/-- units can stand on the cube, as far as the world knows -/
def isPassable (w : World) (c : Cube) : Bool := (w.ground? c).any (·.passable)

end World

/-- the candidate nearest to the origin; of equally near ones the first -/
def nearest? {α : Type} (origin : Cube) (candidates : List (α × Cube)) : Option α :=
  let nearer (best : Option (α × Cube)) (c : α × Cube) : Option (α × Cube) :=
    match best with
    | some b => if origin.distance c.2 ≥ origin.distance b.2 then some b else some c
    | none => some c
  (candidates.foldl nearer none).map (·.1)

end Errand
