/-
Tasks: named scripts with a priority, variables and a selection, executed by at most one unit at a time.

A claim always starts from the top: the tree is reset and the variables return to their initial values. Releasing a task
resets it too, so a task that no unit holds waits fresh; only a finished task keeps its final state.
-/
import Errand.Script.Check
import Errand.Script.Step

namespace Errand

/-- a script with all that belongs to its execution -/
structure Task where
  name : String
  /-- greater is more urgent -/
  priority : Int64
  body : Stmt
  /-- the variables at the start of every execution -/
  initial : Store := .empty
  store : Store := .empty
  selection : Selection := {}
  /-- the schedulers that hold the task -/
  schedulers : Std.ExtTreeSet SchedulerId := ∅
  /-- the unit that holds the task -/
  unit? : Option UnitId := none
  /-- the action under way, if the task waits on its unit -/
  action? : Option ActionKind := none

/-- why a task is refused: every problem that was found -/
structure IllFormed where
  name : String
  problems : List Problem
  deriving DecidableEq, Repr

/-- only the first problem is spelt out -/
def IllFormed.text (e : IllFormed) : String :=
  let first := (e.problems.head?.map Problem.text).getD ""
  s!"task '{e.name}' is not well-formed: {first}"

/-- what a task reaches beyond itself while it executes -/
structure Outside (σ ρ : Type) where
  host : σ
  picker : ρ
  output : List Printed := []

namespace Task

/-- a fresh task, whatever state the tree is in -/
def make (name : String) (priority : Int64) (body : Stmt) : Task := { name, priority, body := body.reset }

/-- with variables bound from the start -/
def withStore (t : Task) (s : Store) : Task := { t with initial := s, store := s }

def withSelection (t : Task) (sel : Selection) : Task := { t with selection := sel }

def state (t : Task) : ExecState := t.body.state

def problems (t : Task) : List Problem := t.body.problems t.initial t.selection

/-- the checks find nothing -/
def isWellFormed (t : Task) : Bool := t.problems.isEmpty

def refusal? (t : Task) : Option IllFormed := if t.isWellFormed then none else some ⟨t.name, t.problems⟩

def restart (t : Task) : Task := { t with body := t.body.reset, store := t.initial, action? := none }

/-- gives the task to a unit, which starts from the top -/
def claim (t : Task) (u : UnitId) : Task := { t.restart with unit? := some u }

/-- the unit that held the task, and the task without it -/
def release (t : Task) : Option UnitId × Task := (t.unit?, { t.restart with unit? := none })

/-- ends the claim of a finished task, which keeps its final state -/
def finish (t : Task) : Task := { t with unit? := none, action? := none }

def join (t : Task) (s : SchedulerId) : Task := { t with schedulers := t.schedulers.insert s }

def quit (t : Task) (s : SchedulerId) : Task := { t with schedulers := t.schedulers.erase s }

variable {σ ρ : Type} [Host σ]

/-- cancels the action under way, then releases the task -/
def interrupt (t : Task) (host : σ) : Option UnitId × Task × σ :=
  let host :=
    match t.unit?, t.action? with
    | some u, some _ => Host.abort u host
    | _, _ => host
  let (freed, t) := t.release
  (freed, t, host)

/-- makes `u` the holder; a unit that held the task before is interrupted -/
def claimFor (t : Task) (u : UnitId) (host : σ) : Task × σ :=
  match t.unit? with
  | none => (t.claim u, host)
  | some held =>
    if held = u then (t, host) else
    let (_, t, host) := t.interrupt host
    (t.claim u, host)

/-- one step of the script on behalf of `u`, which claims the task if it does not hold it -/
def advance [Picker ρ] (t : Task) (u : UnitId) (o : Outside σ ρ) :
    Except EvalError ExecState × Task × Outside σ ρ :=
  let (t, host) := t.claimFor u o.host
  let frame : Frame := { task := t.name, unit := u, selection := t.selection }
  let live : Live σ ρ := { store := t.store, host, picker := o.picker, output := o.output, action := t.action? }
  let r := t.body.step frame live
  let action? :=
    match r.result with
    | .ok _ => r.live.action
    | .error _ => none
  (r.result, { t with body := r.stmt, store := r.live.store, action? },
    { host := r.live.host, picker := r.live.picker, output := r.live.output })

end Task

/-- a script from which tasks are made -/
structure Template where
  name : String
  priority : Int64
  body : Stmt

/-- one task per selected cube, each with a tree of its own; without cubes one task without a selection -/
def Template.instantiate (t : Template) (selections : List Cube) : List Task :=
  let fresh := Task.make t.name t.priority t.body
  if selections.isEmpty then [fresh] else selections.map fun c => fresh.withSelection (.ofCube c)

/-- the owner of every task; a task's handle is its place -/
structure Arena where
  tasks : Array Task := #[]

namespace Arena

def get? (a : Arena) (t : TaskId) : Option Task := a.tasks[t.index]?

def modify (a : Arena) (t : TaskId) (f : Task → Task) : Arena := ⟨a.tasks.modify t.index f⟩

/-- adds a task, without schedulers and without a unit -/
def insert (a : Arena) (t : Task) : TaskId × Arena :=
  (⟨a.tasks.size⟩, ⟨a.tasks.push { t with schedulers := ∅ }.release.2⟩)

def size (a : Arena) : Nat := a.tasks.size

theorem get?_modify (a : Arena) (t u : TaskId) (f : Task → Task) :
    (a.modify t f).get? u = if t = u then (a.get? u).map f else a.get? u := by
  cases t; cases u
  simp [get?, modify, Array.getElem?_modify]

theorem modify_of_get?_eq_none {a : Arena} {t : TaskId} (h : a.get? t = none) (f : Task → Task) : a.modify t f = a := by
  cases a
  simp only [modify, mk.injEq]
  simp only [get?] at h
  apply Array.ext_getElem?
  intro i
  rw [Array.getElem?_modify]
  split
  · subst i; simp [h]
  · rfl

theorem get?_insert (a : Arena) (t : Task) (u : TaskId) :
    (a.insert t).2.get? u = if u.index = a.size then some { t with schedulers := ∅ }.release.2 else a.get? u := by
  exact Array.getElem?_push

theorem get?_eq_none_of_size_le {a : Arena} {t : TaskId} (h : a.size ≤ t.index) : a.get? t = none :=
  Array.getElem?_eq_none h

end Arena

end Errand
