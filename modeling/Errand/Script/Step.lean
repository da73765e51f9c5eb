/-
Stepping a script: one tick of execution.

A step walks down to the one statement that is due, executes it, and writes the new states on the way back. It never
executes two statements: a finished child hands over to the next one in the following step. A step answers the state of
the root or an error; with an error the node and everything above it up to the root is failed.
-/
import Errand.Script.Eval
import Errand.Script.Stmt
import Errand.Host

namespace Errand

structure Printed where
  task : String
  value : Value
  deriving DecidableEq, Repr

/-- what stays fixed during a step -/
structure Frame where
  /-- name of the task, for what it prints -/
  task : String
  /-- the unit that executes the task -/
  unit : UnitId
  selection : Selection

/-- what a step may change besides the tree -/
structure Live (σ ρ : Type) where
  store : Store
  host : σ
  picker : ρ
  /-- everything printed so far, the latest last -/
  output : List Printed := []
  /-- a `leave` is on its way to its loop -/
  leaving : Bool := false
  /-- the action that waits on the unit -/
  action : Option ActionKind := none

/-- what a step comes to: its answer, the tree and the surroundings it leaves -/
structure Stepped (σ ρ : Type) where
  result : Except EvalError ExecState
  stmt : Stmt
  live : Live σ ρ

namespace Live

variable {σ ρ : Type} [Host σ] [Picker ρ]

/-- what expressions may read now -/
def context (lv : Live σ ρ) (fr : Frame) : Context :=
  { unit? := some fr.unit, store := lv.store, selection := fr.selection, world := Host.world lv.host }

/-- evaluates with the picker at hand and keeps the picker that is left -/
def evaluate {α : Type} (lv : Live σ ρ) (e : Eval ρ α) : Except EvalError α × Live σ ρ :=
  let (r, picker) := e.run lv.picker
  (r, { lv with picker })

/-- the truth of a test, which must have one -/
def decideTest (lv : Live σ ρ) (fr : Frame) (test : Expr) : Except EvalError Bool × Live σ ρ :=
  let (r, lv) := lv.evaluate (test.evalRequired (lv.context fr) .boolean)
  (r.map (· == .boolean true), lv)

end Live

/-- the command for an action on a target of the right kind -/
def ActionKind.command? : ActionKind → Value → Option Command
  | .moveTo, .position c => some (.moveTo c false)
  | .workAt, .position c => some (.workAt c)
  | .attack, .unit u => some (.attack u)
  | .follow, .unit u => some (.follow u)
  | _, _ => none

namespace Stmt

variable {σ ρ : Type} [Host σ] [Picker ρ]

/-- the state in which an answer leaves its node -/
def stateAfter : Except EvalError ExecState → ExecState
  | .ok s => s
  | .error _ => .failed

/-- ends the step of a node: its mark takes the state that the answer calls for -/
def settle (m : Mark) (rebuild : Mark → Stmt) (result : Except EvalError ExecState) (live : Live σ ρ) :
    Stepped σ ρ :=
  { result, stmt := rebuild { m with state := stateAfter result }, live }

/-- what an unfinished or failed child means for the node around it -/
def carry : Except EvalError ExecState → Except EvalError ExecState
  | .ok .failed => .ok .failed
  | .ok _ => .ok .inProgress
  | .error e => .error e

/-- a loop's body as it is stepped next: from where it stands while it is under way, else from the top -/
def resumed (body : Stmt) : Stmt := if body.state = .inProgress then body else body.reset

theorem size_resumed (body : Stmt) : body.resumed.size = body.size := by
  unfold resumed
  split
  · rfl
  · exact body.size_reset

/-- the loop's test counts only between iterations -/
def entersLoop (fr : Frame) (test : Expr) (body : Stmt) (lv : Live σ ρ) : Except EvalError Bool × Live σ ρ :=
  if body.state = .inProgress then (.ok true, lv) else lv.decideTest fr test

/-- the arm of a conditional: the one chosen before, else the one its test decides -/
def chooseArm (fr : Frame) (test : Expr) (chosen : Option Branch) (lv : Live σ ρ) :
    Except EvalError Branch × Live σ ρ :=
  match chosen with
  | some b => (.ok b, lv)
  | none =>
    let (r, lv) := lv.decideTest fr test
    (r.map fun b => if b then .onTrue else .onFalse, lv)

/-- gives the unit its command; an action already started is left to run -/
def startAction (fr : Frame) (state : ExecState) (kind : ActionKind) (target : Expr) (lv : Live σ ρ) :
    Except EvalError Unit × Live σ ρ :=
  if state ≠ .notStarted then (.ok (), lv) else
  match lv.evaluate (target.evalRequired (lv.context fr) kind.targetKind) with
  | (.error e, lv) => (.error e, lv)
  | (.ok v, lv) =>
    match kind.command? v with
    | none => (.error (.typeMismatch kind.targetKind v.kind target.span), lv)
    | some c => (.ok (), { lv with host := Host.command fr.unit c lv.host, action := some kind })

/-- asks once how the action is going -/
def pollAction (fr : Frame) (lv : Live σ ρ) : ExecState × Live σ ρ :=
  match Host.poll fr.unit lv.host with
  | (.inProgress, host) => (.inProgress, { lv with host })
  | (.completed, host) => (.done, { lv with host, action := none })
  | (.failed, host) => (.failed, { lv with host, action := none })

def step (fr : Frame) (s : Stmt) (lv : Live σ ρ) : Stepped σ ρ :=
  if s.state.isTerminal then { result := .ok s.state, stmt := s, live := lv } else
  match s with
  | .sequence m body idx =>
    match _h : body[idx]? with
    | none => settle m (.sequence · body idx) (.ok .done) lv
    | some child =>
      let r := child.step fr lv
      let body' := body.set idx r.stmt
      match r.result with
      | .ok .done =>
        let state := if r.live.leaving || body.length ≤ idx + 1 then .done else .inProgress
        settle m (.sequence · body' (idx + 1)) (.ok state) r.live
      | other => settle m (.sequence · body' idx) (carry other) r.live
  | .conditional m test thenS elseS chosen =>
    match chooseArm fr test chosen lv with
    | (.error e, lv) => settle m (.conditional · test thenS elseS chosen) (.error e) lv
    | (.ok .onTrue, lv) =>
      let r := thenS.step fr lv
      settle m (.conditional · test r.stmt elseS (some .onTrue)) r.result r.live
    | (.ok .onFalse, lv) =>
      match elseS with
      | none => settle m (.conditional · test thenS none (some .onFalse)) (.ok .done) lv
      | some s =>
        let r := s.step fr lv
        settle m (.conditional · test thenS (some r.stmt) (some .onFalse)) r.result r.live
  | .loop m test body =>
    match entersLoop fr test body lv with
    | (.error e, lv) => settle m (.loop · test body) (.error e) lv
    | (.ok false, lv) => settle m (.loop · test body) (.ok .done) lv
    | (.ok true, lv) =>
      let r := body.resumed.step fr lv
      match r.result with
      | .ok .done =>
        if r.live.leaving then settle m (.loop · test r.stmt) (.ok .done) { r.live with leaving := false }
        else settle m (.loop · test r.stmt) (.ok .inProgress) r.live
      | other => settle m (.loop · test r.stmt) (carry other) r.live
  | .assign m name value =>
    match lv.evaluate (value.evalSome (lv.context fr)) with
    | (.error e, lv) => settle m (.assign · name value) (.error e) lv
    | (.ok v, lv) => settle m (.assign · name value) (.ok .done) { lv with store := lv.store.set name v }
  | .print m value =>
    match lv.evaluate (value.evalSome (lv.context fr)) with
    | (.error e, lv) => settle m (.print · value) (.error e) lv
    | (.ok v, lv) =>
      settle m (.print · value) (.ok .done) { lv with output := lv.output ++ [{ task := fr.task, value := v }] }
  | .action m kind target =>
    match startAction fr m.state kind target lv with
    | (.error e, lv) => settle m (.action · kind target) (.error e) lv
    | (.ok (), lv) =>
      let (state, lv) := pollAction fr lv
      settle m (.action · kind target) (.ok state) lv
  | .leave m => settle m .leave (.ok .done) { lv with leaving := true }
termination_by s.size
decreasing_by
  · have := size_le_sizeAll (List.mem_of_getElem? ‹body[idx]? = some child›)
    simp only [size]; omega
  · simp only [size]; omega
  · simp only [size, sizeElse]; omega
  · simp only [size, size_resumed]; omega

end Stmt

end Errand
