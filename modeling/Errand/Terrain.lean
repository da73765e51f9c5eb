/-
Terrain: what fills a cube, and what the world reports about a cube inside its bounds.
-/
import Errand.Cube

namespace Errand

inductive Terrain where
  | air
  | rock
  | tree
  | workshop
  deriving DecidableEq, Repr, Inhabited

/-- units pass through air and workshops only -/
def Terrain.isPassable : Terrain → Bool
  | .air | .workshop => true
  | .rock | .tree => false

/-- the report on one cube inside the bounds -/
structure Ground where
  terrain : Terrain
  passable : Bool := terrain.isPassable
  deriving DecidableEq, Repr

/-- a finite type whose values are each written as one word -/
class Worded (α : Type) where
  /-- every value, in order of declaration -/
  all : List α
  /-- the word of a value -/
  word : α → String

/-- the value a word stands for; words are told apart by letter case -/
def Worded.ofWord? {α : Type} [Worded α] (w : String) : Option α := List.find? (fun a => word a = w) all

instance : Worded Terrain where
  all := [.air, .rock, .tree, .workshop]
  word
    | .air => "air"
    | .rock => "rock"
    | .tree => "tree"
    | .workshop => "workshop"

end Errand
