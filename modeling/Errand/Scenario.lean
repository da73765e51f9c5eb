/-
Scenarios: a sandbox and the tasks to be done in it, and how both are set up.
-/
import Errand.Sandbox
import Errand.Application

namespace Errand

/-- one cube that is not air -/
structure Patch where
  cube : Cube
  terrain : Terrain
  deriving DecidableEq, Repr

/-- how a sandbox looks at the start -/
structure Layout where
  size : Cube
  terrain : List Patch := []
  boulders : List Cube := []
  logs : List Cube := []
  units : List Resident := []
  deriving DecidableEq, Repr

/-- a template given to a faction, once for each selected cube -/
structure Order where
  faction : FactionId
  template : Template
  selections : List Cube := []

/-- a sandbox to build and what is to be done in it -/
structure Scenario where
  layout : Layout
  orders : List Order := []

/-- why a scenario cannot be set up -/
inductive SetupError where
  /-- a faction's scheduler could not be added -/
  | refused (cause : SchedulerError)
  | noScheduler (faction : FactionId)
  /-- a task of the given name could not be scheduled -/
  | unscheduled (name : String) (cause : SchedulerError)
  deriving DecidableEq, Repr

/-- an error with its causes, the outermost first -/
def SetupError.text : SetupError → String
  | .refused e => e.text
  | .noScheduler f => s!"No scheduler for {f.text}"
  | .unscheduled n e => s!"Failed to schedule task '{n}': {e.text}"

/-- the sandbox of a layout; of patches or units for one place or number the last counts -/
def Layout.build (l : Layout) (workTicks : Nat) : Sandbox :=
  let bare : Sandbox := Sandbox.withWorkTicks { size := l.size, boulders := l.boulders, logs := l.logs } workTicks
  let shaped := l.terrain.foldl (fun w p => w.setTerrain p.cube p.terrain) bare
  l.units.foldl Sandbox.addUnit shaped

namespace Application

variable {ρ : Type}

def addSchedulers (app : Application ρ) : List FactionId → Except SetupError (Application ρ)
  | [] => .ok app
  | f :: rest =>
    match app.addScheduler f with
    | (.error e, _) => .error (.refused e)
    | (.ok _, app) => app.addSchedulers rest

/-- schedules all the tasks that were made for one order -/
def scheduleAll (app : Application ρ) (s : SchedulerId) (name : String) :
    List TaskId → Except SetupError (Application ρ)
  | [] => .ok app
  | t :: rest =>
    match app.schedule s t with
    | (.error e, _) => .error (.unscheduled name e)
    | (.ok _, app) => app.scheduleAll s name rest

/-- makes the tasks of each order and schedules them with its faction -/
def carryOut (app : Application ρ) : List Order → Except SetupError (List TaskId × Application ρ)
  | [] => .ok ([], app)
  | o :: rest => do
    let some s := app.schedulerFor? o.faction | throw (.noScheduler o.faction)
    let (ids, app) := app.instantiate o.template o.selections
    let app ← app.scheduleAll s o.template.name ids
    let (more, app) ← app.carryOut rest
    return (ids ++ more, app)

end Application

namespace Scenario

/-- the factions that need a scheduler: those of units in the sandbox and those with orders -/
def factions (s : Scenario) (w : Sandbox) : Std.ExtTreeSet FactionId :=
  s.orders.foldl (fun fs o => fs.insert o.faction) w.factions

/-- the application with every task scheduled, the sandbox, and the tasks in order -/
def setup {ρ : Type} (s : Scenario) (settings : Settings) (picker : ρ) :
    Except SetupError (Application ρ × Sandbox × List TaskId) := do
  let world := s.layout.build settings.workTicks
  let app : Application ρ := { settings, picker }
  let app ← app.addSchedulers (s.factions world).toList
  let (ids, app) ← app.carryOut s.orders
  return (app, world, ids)

end Scenario

end Errand
