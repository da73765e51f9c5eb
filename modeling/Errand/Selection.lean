/-
Selections: the unit and the position that a player had selected when a task was given.
-/
import Errand.Value

namespace Errand

/-- what was selected, if anything -/
structure Selection where
  unit? : Option UnitId := none
  position? : Option Cube := none
  deriving DecidableEq, Repr, Inhabited

def Selection.ofCube (c : Cube) : Selection := { position? := some c }

end Errand
