/-
Rehearsals: a host that does nothing but take notes.

Its world is whatever it is told to be. Commands and aborts are written down in order; how actions go is read from a
prompt list, and once that has run out the answer stays the same.
-/
import Errand.Host

namespace Errand

inductive Call where
  | command (unit : UnitId) (c : Command)
  | abort (unit : UnitId)
  deriving DecidableEq, Repr

/-- a host with a fixed world that takes notes -/
structure Rehearsal where
  world : World
  /-- the calls so far, the latest last -/
  calls : List Call := []
  /-- the answers that polls still take from the front -/
  prompts : List ActionStatus := []
  /-- the answer once no prompt is left -/
  final : ActionStatus := .completed

instance : Host Rehearsal where
  world := Rehearsal.world
  command u c r := { r with calls := r.calls ++ [.command u c] }
  abort u r := { r with calls := r.calls ++ [.abort u] }
  poll _ r := (r.prompts.headD r.final, { r with prompts := r.prompts.tail })

/-- a unit of a listed world, as much as is known about it -/
structure Figure where
  id : UnitId
  faction? : Option FactionId := none
  position? : Option Cube := none
  carrying : Bool := false
  alive : Bool := true
  deriving DecidableEq, Repr

/-- a world that is listed fact by fact -/
structure Setting where
  /-- exclusive upper bounds; the lower bounds are 0 -/
  size : Cube
  /-- what is not listed is air; of two entries for a cube the later counts -/
  terrain : List (Cube × Terrain) := []
  boulders : List Cube := []
  logs : List Cube := []
  workshops : List Cube := []
  /-- of two entries for a unit the earlier counts -/
  figures : List Figure := []
  deriving DecidableEq, Repr

namespace Setting

/-- every coordinate is at least 0 and below the size -/
def inBounds (s : Setting) (c : Cube) : Bool :=
  0 ≤ c.x && c.x < s.size.x && 0 ≤ c.y && c.y < s.size.y && 0 ≤ c.z && c.z < s.size.z

/-- the first entry for a unit -/
def figure? (s : Setting) (u : UnitId) : Option Figure := s.figures.find? (·.id = u)

def world (s : Setting) : World where
  inBounds := s.inBounds
  ground? c := if s.inBounds c then some { terrain := (s.terrain.reverse.lookup c).getD .air } else none
  units := s.figures.map (·.id)
  members f := (s.figures.filter (·.faction? = some f)).map (·.id)
  position? u := (s.figure? u).bind (·.position?)
  faction? u := (s.figure? u).bind (·.faction?)
  carries u := (s.figure? u).any (·.carrying)
  isAlive u := (s.figure? u).any (·.alive)
  boulders := s.boulders
  logs := s.logs
  workshops := s.workshops

end Setting

end Errand
