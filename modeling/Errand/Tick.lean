/-
Ticks: the three phases by which an application moves all its units on.

First the tasks of dead units are interrupted, then idle units claim tasks scheduler by scheduler, then every claim is
stepped once in order of the units. What happened is reported.
-/
import Errand.Application

namespace Errand

structure Report where
  assigned : List (UnitId × TaskId) := []
  completed : List TaskId := []
  failed : List TaskId := []
  interrupted : List TaskId := []
  errors : List (TaskId × EvalError) := []
  deriving DecidableEq, Repr

/-- nothing happened except that claims went on -/
def Report.isQuiet (r : Report) : Bool :=
  r.assigned.isEmpty && r.completed.isEmpty && r.failed.isEmpty && r.interrupted.isEmpty

structure Running (σ ρ : Type) where
  app : Application ρ
  host : σ
  output : List Printed := []
  report : Report := {}

namespace Running

variable {σ ρ : Type} [Host σ]

/-- interrupts the task of a unit that died -/
def freeDead (r : Running σ ρ) (t : TaskId) : Running σ ρ :=
  match r.app.interrupt t r.host with
  | (.error _, app, host) => { r with app, host }
  | (.ok _, app, host) =>
    { r with app, host, report := { r.report with interrupted := r.report.interrupted ++ [t] } }

/-- the first phase -/
def releaseDead (r : Running σ ρ) : Running σ ρ :=
  let world := Host.world r.host
  let dead := r.app.claims.toList.filter fun c => !world.isAlive c.1
  dead.foldl (fun r c => r.freeDead c.2) r

/-- offers the tasks of one scheduler to units in turn, until it has none left -/
def offer (world : World) (s : SchedulerId) (r : Running σ ρ) : List UnitId → Running σ ρ
  | [] => r
  | u :: rest =>
    if r.app.claims.contains u || !world.isAlive u then r.offer world s rest else
    match r.app.assignNext s u with
    | (.ok (some t), app) =>
      { r with app, report := { r.report with assigned := r.report.assigned ++ [(u, t)] } }.offer world s rest
    | (_, app) => { r with app }

/-- the second phase; factions are asked for their members before anything is assigned -/
def assignIdle (r : Running σ ρ) : Running σ ρ :=
  let world := Host.world r.host
  let offers := r.app.schedulers.toList.map fun s => (s.id, world.members s.faction)
  offers.foldl (fun r o => r.offer world o.1 o.2) r

variable [Picker ρ]

def stepClaim (r : Running σ ρ) (u : UnitId) (t : TaskId) : Running σ ρ :=
  match r.app.tasks.get? t with
  | none => { r with app := { r.app with claims := r.app.claims.erase u } }
  | some task =>
    let (result, task, o) := task.advance u { host := r.host, picker := r.app.picker, output := r.output }
    let app := { r.app with tasks := r.app.tasks.modify t fun _ => task, picker := o.picker }
    let r := { r with app, host := o.host, output := o.output }
    match result with
    | .ok .done =>
      { r with app := app.finish t u, report := { r.report with completed := r.report.completed ++ [t] } }
    | .ok .failed =>
      { r with app := app.fail t u, report := { r.report with failed := r.report.failed ++ [t] } }
    | .ok _ => r
    | .error e =>
      { r with
        app := app.fail t u
        report := { r.report with failed := r.report.failed ++ [t], errors := r.report.errors ++ [(t, e)] } }

/-- the third phase, over the claims that stand at its start -/
def stepClaims (r : Running σ ρ) : Running σ ρ :=
  r.app.claims.toList.foldl (fun r c => r.stepClaim c.1 c.2) r

end Running

/-- one tick; the output of its steps is added to what was printed before -/
def Application.tick {σ ρ : Type} [Host σ] [Picker ρ] (app : Application ρ) (host : σ) (output : List Printed) :
    Running σ ρ :=
  ({ app, host, output : Running σ ρ }).releaseDead.assignIdle.stepClaims

end Errand
