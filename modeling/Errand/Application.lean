/-
Applications: all tasks, one scheduler per faction, and the table of claims.

A claim is kept on both sides, in the table and on the task; the operations change the two together. Every operation
answers together with the state it leaves; one that is refused leaves everything as it was.
-/
import Errand.Scheduler
import Errand.Settings

namespace Errand

/-- the tasks, the schedulers and who holds what; `ρ` is what choices are drawn from -/
structure Application (ρ : Type) where
  settings : Settings
  tasks : Arena := {}
  schedulers : Array Scheduler := #[]
  /-- the task that each busy unit holds -/
  claims : Std.ExtTreeMap UnitId TaskId := ∅
  picker : ρ

namespace Application

variable {σ ρ : Type} [Host σ]

/-! ## Tasks and schedulers -/

/-- adds a task under the next number -/
def addTask (app : Application ρ) (t : Task) : TaskId × Application ρ :=
  let (id, tasks) := app.tasks.insert t
  (id, { app with tasks })

def addTasks (app : Application ρ) : List Task → List TaskId × Application ρ
  | [] => ([], app)
  | t :: rest =>
    let (id, app) := app.addTask t
    let (ids, app) := app.addTasks rest
    (id :: ids, app)

def instantiate (app : Application ρ) (t : Template) (selections : List Cube) : List TaskId × Application ρ :=
  app.addTasks (t.instantiate selections)

def schedulerFor? (app : Application ρ) (f : FactionId) : Option SchedulerId :=
  (app.schedulers.find? (·.faction = f)).map (·.id)

def scheduler? (app : Application ρ) (s : SchedulerId) : Option Scheduler := app.schedulers[s.index]?

/-- a faction has one scheduler at most -/
def addScheduler (app : Application ρ) (f : FactionId) : Except SchedulerError SchedulerId × Application ρ :=
  match app.schedulerFor? f with
  | some s => (.error (.duplicateFaction f s), app)
  | none =>
    let id : SchedulerId := ⟨app.schedulers.size⟩
    (.ok id, { app with schedulers := app.schedulers.push { id, faction := f } })

/-- puts a scheduler in the place of the one with its number -/
def withScheduler (app : Application ρ) (s : SchedulerId) (new : Scheduler) : Application ρ :=
  { app with schedulers := app.schedulers.setIfInBounds s.index new }

/-- strikes a unit that has been freed from the table -/
def freeing (app : Application ρ) (freed : Option UnitId) : Application ρ :=
  match freed with
  | none => app
  | some u => { app with claims := app.claims.erase u }

/-! ## Operations of schedulers -/

def schedule (app : Application ρ) (s : SchedulerId) (t : TaskId) : Except SchedulerError Unit × Application ρ :=
  match app.scheduler? s with
  | none => (.error (.unknownScheduler s), app)
  | some sched =>
    let (r, sched, tasks) := sched.schedule t app.tasks
    (r, { app.withScheduler s sched with tasks })

/-- puts `u` in the place of `t`; the unit that held `t` is free then -/
def replace (app : Application ρ) (s : SchedulerId) (t u : TaskId) (host : σ) :
    Except SchedulerError (Option UnitId) × Application ρ × σ :=
  match app.scheduler? s with
  | none => (.error (.unknownScheduler s), app, host)
  | some sched =>
    match sched.replace t u app.tasks host with
    | (.error e, sched, tasks, host) => (.error e, { app.withScheduler s sched with tasks }, host)
    | (.ok freed, sched, tasks, host) => (.ok freed, { app.withScheduler s sched with tasks }.freeing freed, host)

/-- lets a unit that holds nothing claim the best pending task -/
def assignNext (app : Application ρ) (s : SchedulerId) (u : UnitId) :
    Except SchedulerError (Option TaskId) × Application ρ :=
  match app.claims[u]?, app.scheduler? s with
  | some held, _ => (.error (.unitBusy u held), app)
  | none, none => (.error (.unknownScheduler s), app)
  | none, some sched =>
    match sched.assignNext u app.tasks with
    | (none, tasks) => (.ok none, { app with tasks })
    | (some t, tasks) => (.ok (some t), { app with tasks, claims := app.claims.insert u t })

/-- ends the execution of a task; the freed unit is the answer -/
def interrupt (app : Application ρ) (t : TaskId) (host : σ) :
    Except SchedulerError (Option UnitId) × Application ρ × σ :=
  match app.tasks.get? t with
  | none => (.error (.unknownTask t), app, host)
  | some task =>
    let (freed, task, host) := task.interrupt host
    (.ok freed, { app with tasks := app.tasks.modify t fun _ => task }.freeing freed, host)

/-- ends the execution of a task on behalf of a scheduler that holds it -/
def stop (app : Application ρ) (s : SchedulerId) (t : TaskId) (host : σ) :
    Except SchedulerError (Option UnitId) × Application ρ × σ :=
  match app.scheduler? s with
  | none => (.error (.unknownScheduler s), app, host)
  | some sched =>
    match sched.stop t app.tasks host with
    | (.error e, tasks, host) => (.error e, { app with tasks }, host)
    | (.ok freed, tasks, host) => (.ok freed, { app with tasks }.freeing freed, host)

/-- drops a task from a pool; a claim on it goes on -/
def unschedule (app : Application ρ) (s : SchedulerId) (t : TaskId) : Except SchedulerError Unit × Application ρ :=
  match app.scheduler? s with
  | none => (.error (.unknownScheduler s), app)
  | some sched =>
    let (r, sched, tasks) := sched.remove t app.tasks
    (r, { app.withScheduler s sched with tasks })

/-- gives a task another priority, which counts from the next assignment on -/
def setPriority (app : Application ρ) (t : TaskId) (priority : Int64) : Except SchedulerError Unit × Application ρ :=
  match app.tasks.get? t with
  | none => (.error (.unknownTask t), app)
  | some _ => (.ok (), { app with tasks := app.tasks.modify t ({ · with priority }) })

/-! ## Questions -/

/-- the task with a number, which must exist -/
def task (app : Application ρ) (t : TaskId) : Except SchedulerError Task :=
  match app.tasks.get? t with
  | some task => .ok task
  | none => .error (.unknownTask t)

/-- the name of a task, which must exist -/
def name (app : Application ρ) (t : TaskId) : Except SchedulerError String := (app.task t).map (·.name)

/-- the scheduler with a number, which must exist -/
def scheduler (app : Application ρ) (s : SchedulerId) : Except SchedulerError Scheduler :=
  match app.scheduler? s with
  | some sched => .ok sched
  | none => .error (.unknownScheduler s)

/-- the members of a scheduler in order of assignment -/
def ordered (app : Application ρ) (s : SchedulerId) : Except SchedulerError (List TaskId) :=
  (app.scheduler s).map (·.ordered app.tasks)

/-! ## Ends of claims -/

/-- a difference that stops at the least and the greatest priority -/
def lowered (priority penalty : Int64) : Int64 := Int64.ofIntClamp (priority.toInt - penalty.toInt)

/-- the task failed: it waits fresh again, less urgent by the penalty -/
def fail (app : Application ρ) (t : TaskId) (u : UnitId) : Application ρ :=
  { app with
    claims := app.claims.erase u
    tasks := app.tasks.modify t fun task =>
      { task.release.2 with priority := lowered task.priority app.settings.failurePenalty } }

/-- takes a task out of one scheduler's pool, if it is there -/
def leavePool (app : Application ρ) (t : TaskId) (s : SchedulerId) : Application ρ := (app.unschedule s t).2

/-- the task is done: it leaves every pool and keeps its final state -/
def finish (app : Application ρ) (t : TaskId) (u : UnitId) : Application ρ :=
  let app := { app with claims := app.claims.erase u, tasks := app.tasks.modify t Task.finish }
  match app.tasks.get? t with
  | none => app
  | some task => task.schedulers.toList.foldl (leavePool · t) app

end Application

end Errand
