/-
Sandboxes: a deterministic world kept in memory.

Units move one cube and work one tick at a time; a step always goes to the passable neighbour that comes strictly
closest to the target, so there is no way around obstacles. Finished work drops what the unit carries, or picks up an
item, or breaks rock and trees into items.
-/
import Errand.Host

namespace Errand

inductive Item where
  | boulder
  | log
  deriving DecidableEq, Repr

instance : Worded Item where
  all := [.boulder, .log]
  word
    | .boulder => "boulder"
    | .log => "log"

/-- a unit as a scenario describes it -/
structure Resident where
  id : UnitId
  faction : FactionId
  position : Cube
  carrying? : Option Item := none
  alive : Bool := true
  deriving DecidableEq, Repr

inductive Activity where
  | idle
  | moving (target : Cube)
  /-- `remaining` counts the ticks to go, the current one included -/
  | working (target : Cube) (remaining : Nat)
  | following (target : UnitId)
  deriving DecidableEq, Repr

structure Actor where
  unit : Resident
  activity : Activity := .idle
  status : ActionStatus := .completed
  deriving DecidableEq, Repr

/-- terrain, items lying about, and units with what they do -/
structure Sandbox where
  /-- exclusive upper bounds; the lower bounds are 0 -/
  size : Cube
  /-- what is not listed is air -/
  terrain : Std.ExtTreeMap Cube Terrain := ∅
  boulders : List Cube := []
  logs : List Cube := []
  actors : Std.ExtTreeMap UnitId Actor := ∅
  /-- how long work takes -/
  workTicks : Nat := 3
  deriving DecidableEq

namespace Sandbox

/-! ## Contents -/

/-- work takes one tick at least -/
def withWorkTicks (w : Sandbox) (n : Nat) : Sandbox := { w with workTicks := max n 1 }

def setTerrain (w : Sandbox) (c : Cube) (t : Terrain) : Sandbox :=
  { w with terrain := if t = .air then w.terrain.erase c else w.terrain.insert c t }

def addBoulder (w : Sandbox) (c : Cube) : Sandbox := { w with boulders := w.boulders ++ [c] }

def addLog (w : Sandbox) (c : Cube) : Sandbox := { w with logs := w.logs ++ [c] }

/-- a unit that is there already is replaced -/
def addUnit (w : Sandbox) (u : Resident) : Sandbox := { w with actors := w.actors.insert u.id { unit := u } }

/-- a unit as a scenario would describe it now -/
def unit? (w : Sandbox) (u : UnitId) : Option Resident := w.actors[u]?.map (·.unit)

def modifyActor (w : Sandbox) (u : UnitId) (f : Actor → Actor) : Sandbox := { w with actors := w.actors.modify u f }

/-- a dead unit stops where it is; the status of its last action stays -/
def kill (w : Sandbox) (u : UnitId) : Sandbox :=
  w.modifyActor u fun a => { a with unit := { a.unit with alive := false }, activity := .idle }

def factions (w : Sandbox) : Std.ExtTreeSet FactionId :=
  w.actors.foldl (fun fs _ a => fs.insert a.unit.faction) ∅

/-! ## Facts -/

/-- every coordinate is at least 0 and below the size -/
def inBounds (w : Sandbox) (c : Cube) : Bool :=
  0 ≤ c.x && c.x < w.size.x && 0 ≤ c.y && c.y < w.size.y && 0 ≤ c.z && c.z < w.size.z

/-- what fills a cube, bounds aside -/
def terrainAt (w : Sandbox) (c : Cube) : Terrain := w.terrain[c]?.getD .air

/-- a unit can stand there -/
def isPassable (w : Sandbox) (c : Cube) : Bool := w.inBounds c && (w.terrainAt c).isPassable

def isAlive (w : Sandbox) (u : UnitId) : Bool := (w.unit? u).any (·.alive)

/-- where a unit stands, dead or alive -/
def positionOf? (w : Sandbox) (u : UnitId) : Option Cube := (w.unit? u).map (·.position)

def world (w : Sandbox) : World where
  inBounds := w.inBounds
  ground? c := if w.inBounds c then some { terrain := w.terrainAt c } else none
  units := w.actors.keys
  members f := (w.actors.toList.filter fun ua => ua.2.unit.faction = f).map (·.1)
  position? := w.positionOf?
  faction? u := (w.unit? u).map (·.faction)
  carries u := (w.unit? u).any (·.carrying?.isSome)
  isAlive := w.isAlive
  boulders := w.boulders
  logs := w.logs
  workshops := (w.terrain.toList.filter (·.2 = .workshop)).map (·.1)

/-! ## Commands -/

/-- gives a unit its activity; a dead one fails at once -/
def start (w : Sandbox) (u : UnitId) (activity : Activity) (status : ActionStatus) : Sandbox :=
  w.modifyActor u fun a =>
    if a.unit.alive then { a with activity, status } else { a with activity := .idle, status := .failed }

/-- the unit stands on the cube or beside it, and the cube is inside the bounds -/
def canReach (w : Sandbox) (u : UnitId) (c : Cube) : Bool :=
  (w.positionOf? u).any (·.touches c) && w.inBounds c

/-- the attack hits: the target is another unit, alive and near -/
def canHit (w : Sandbox) (u target : UnitId) : Bool :=
  match w.positionOf? u, w.positionOf? target with
  | some a, some b => u ≠ target && a.touches b && w.isAlive target
  | _, _ => false

/-- an action that can be begun is in progress, any other has failed -/
def begun (possible : Bool) : ActionStatus := if possible then .inProgress else .failed

/-- an attack is over at once; the others are carried out by `advance` -/
def command (u : UnitId) (c : Command) (w : Sandbox) : Sandbox :=
  match c with
  | .moveTo target _ => w.start u (.moving target) (begun (w.isPassable target))
  | .workAt target => w.start u (.working target w.workTicks) (begun (w.canReach u target))
  | .attack target =>
    if w.canHit u target then (w.kill target).start u .idle .completed else w.start u .idle .failed
  | .follow target => w.start u (.following target) (begun (w.isAlive target && u ≠ target))

/-- makes a unit idle; an action under way has failed -/
def abort (u : UnitId) (w : Sandbox) : Sandbox :=
  w.modifyActor u fun a =>
    { a with activity := .idle, status := if a.status = .inProgress then .failed else a.status }

/-- the status of the action last started; a unit that does not exist has failed -/
def status (w : Sandbox) (u : UnitId) : ActionStatus := w.actors[u]?.elim .failed (·.status)

instance : Host Sandbox where
  world := world
  command := command
  abort := abort
  poll u w := (w.status u, w)

/-! ## Time -/

/-- the passable neighbour that is nearest to the target, if it is nearer than the cube itself -/
def stepToward? (w : Sandbox) (c target : Cube) : Option Cube :=
  let closer := c.adjacent.filter fun n => w.isPassable n && !(n.distance target ≥ c.distance target)
  closer.foldl (fun best n =>
    match best with
    | some b => if n.distance target ≥ b.distance target then some b else some n
    | none => some n) none

/-- the unit picks up what it finds, or leaves with empty hands -/
def carry (w : Sandbox) (u : UnitId) (item? : Option Item) : Sandbox :=
  w.modifyActor u fun a => { a with unit := { a.unit with carrying? := item? } }

/-- the end of work: drop the item, or pick one up, or break the terrain into one -/
def completeWork (w : Sandbox) (u : UnitId) (target : Cube) : Sandbox :=
  match (w.unit? u).bind (·.carrying?) with
  | some .boulder => (w.addBoulder target).carry u none
  | some .log => (w.addLog target).carry u none
  | none =>
    if w.boulders.contains target then { w with boulders := w.boulders.erase target }.carry u (some .boulder)
    else if w.logs.contains target then { w with logs := w.logs.erase target }.carry u (some .log)
    else
      match w.terrainAt target with
      | .rock => ((w.setTerrain target .air).addBoulder target).carry u none
      | .tree => ((w.setTerrain target .air).addLog target).carry u none
      | .air | .workshop => w.carry u none

def Actor.ended (a : Actor) (status : ActionStatus) (position : Cube) : Actor :=
  { unit := { a.unit with position }, activity := .idle, status }

/-- one step on the way to `goal`, which is reached once `arrived` says so -/
def walk (w : Sandbox) (a : Actor) (goal : Cube) (arrived : Cube → Bool) : Actor :=
  let c := a.unit.position
  if arrived c then Actor.ended a .completed c else
  match w.stepToward? c goal with
  | none => Actor.ended a .failed c
  | some n => if arrived n then Actor.ended a .completed n else { a with unit := { a.unit with position := n } }

/-- moves the action of one unit on by a tick -/
def advanceUnit (w : Sandbox) (u : UnitId) : Sandbox :=
  match w.actors[u]? with
  | none => w
  | some a =>
    if !a.unit.alive || a.status ≠ .inProgress then w else
    match a.activity with
    | .idle => w
    | .moving target => w.modifyActor u fun a => w.walk a target (· = target)
    | .working target remaining =>
      if remaining > 1 then w.modifyActor u ({ · with activity := .working target (remaining - 1) })
      else (w.completeWork u target).modifyActor u fun a => Actor.ended a .completed a.unit.position
    | .following target =>
      match w.unit? target with
      | some other =>
        if other.alive then w.modifyActor u fun a => w.walk a other.position (·.touches other.position)
        else w.modifyActor u fun a => Actor.ended a .failed a.unit.position
      | none => w.modifyActor u fun a => Actor.ended a .failed a.unit.position

/-- moves the actions of all units on by a tick, in order of their numbers -/
def advance (w : Sandbox) : Sandbox := w.actors.keys.foldl advanceUnit w

end Sandbox

end Errand
