/-
Hosts: what carries out the actions of units.

A host shows a world, takes commands, and tells how the command a unit was last given is going. Asking may change the
host as well, so every answer comes with the host it leaves.
-/
import Errand.World

namespace Errand

/-- how the action last started is going -/
inductive ActionStatus where
  | inProgress
  | completed
  | failed
  deriving DecidableEq, Repr, Inhabited

instance : Worded ActionStatus where
  all := [.inProgress, .completed, .failed]
  word
    | .inProgress => "inprogress"
    | .completed => "completed"
    | .failed => "failed"

/-- what a unit is told to do; a new command replaces whatever it was doing -/
inductive Command where
  | moveTo (target : Cube) (sprint : Bool)
  | workAt (target : Cube)
  | attack (target : UnitId)
  | follow (target : UnitId)
  deriving DecidableEq, Repr

/-- what carries out commands and shows a world -/
class Host (σ : Type) where
  world : σ → World
  command : UnitId → Command → σ → σ
  /-- cancels the action of the unit, if one is under way -/
  abort : UnitId → σ → σ
  /-- the status of the action the unit last started -/
  poll : UnitId → σ → ActionStatus × σ

end Errand
