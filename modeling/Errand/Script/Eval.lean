/-
Evaluation of expressions.

An expression is evaluated for a unit, against its task's variables and selection and the world. It ends in a value, in
no value (an unbound variable, no selection, no boulder in the world), or in an error. Only `nextTo` consults the picker.
Both operands of a combinator are always evaluated, the left one first, and an error wins over a missing value.
-/
import Errand.Script.Expr
import Errand.Selection
import Errand.World
import Errand.Picker

namespace Errand

/-- why evaluation fails -/
inductive EvalError where
  /-- the expression needs an executing unit and there is none -/
  | missingUnit (span : Span)
  | typeMismatch (expected found : Kind) (span : Span)
  /-- a value was required and there was none -/
  | noValue (span : Span)
  /-- the world does not know where or what the unit is -/
  | unknownUnit (unit : UnitId)
  deriving DecidableEq, Repr

def EvalError.text : EvalError → String
  | .missingUnit s => s!"internal error: expression at {s.text} evaluated without an executing unit"
  | .typeMismatch e f s => s!"type mismatch at {s.text}: expected {Worded.word e}, found {Worded.word f}"
  | .noValue s => s!"expression at {s.text} produced no value"
  | .unknownUnit u => s!"unit {u.text} is not known to the world"

structure Context where
  /-- the unit that executes the task -/
  unit? : Option UnitId
  store : Store
  selection : Selection
  world : World

/-- evaluation ends in an error or a result, and in either case leaves a picker -/
abbrev Eval (ρ : Type) := ExceptT EvalError (StateM ρ)

namespace Context

variable {ρ : Type} (cx : Context)

def this (span : Span) : Except EvalError UnitId :=
  match cx.unit? with
  | some u => .ok u
  | none => .error (.missingUnit span)

def positionOf (u : UnitId) : Except EvalError Cube :=
  match cx.world.position? u with
  | some c => .ok c
  | none => .error (.unknownUnit u)

def factionOf (u : UnitId) : Except EvalError FactionId :=
  match cx.world.faction? u with
  | some f => .ok f
  | none => .error (.unknownUnit u)

/-- where the executing unit is -/
def here (span : Span) : Except EvalError Cube := do
  cx.positionOf (← cx.this span)

/-- the nearest living unit other than `this` whose faction is as wanted -/
def nearestUnit (this : UnitId) (wanted : Option FactionId → Bool) : Except EvalError (Option Value) := do
  let origin ← cx.positionOf this
  let others := cx.world.units.filter fun u => u ≠ this && cx.world.isAlive u && wanted (cx.world.faction? u)
  let placed := others.filterMap fun u => (cx.world.position? u).map (u, ·)
  return (nearest? origin placed).map .unit

def unitFrom (span : Span) : UnitSource → Except EvalError (Option Value)
  | .this => do return some (.unit (← cx.this span))
  | .anyUnit => do cx.nearestUnit (← cx.this span) fun _ => true
  | .friend => do
    let this ← cx.this span
    cx.nearestUnit this fun f => f.isSome && f == cx.world.faction? this
  | .enemy => do
    let this ← cx.this span
    cx.nearestUnit this fun f => f.isSome && f != cx.world.faction? this
  | .selected => return cx.selection.unit?.map .unit

/-- the listed place nearest to the executing unit -/
def nearestPlace (span : Span) (places : List Cube) : Except EvalError (Option Value) := do
  let origin ← cx.here span
  return (nearest? origin (places.map fun c => (c, c))).map .position

def placeFrom (span : Span) : PlaceSource → Except EvalError (Option Value)
  | .here => do return some (.position (← cx.here span))
  | .boulder => cx.nearestPlace span cx.world.boulders
  | .log => cx.nearestPlace span cx.world.logs
  | .workshop => cx.nearestPlace span cx.world.workshops
  | .selected => return cx.selection.position?.map .position

/-- the answer to a question about a unit, once the unit is known -/
def testUnit (span : Span) (u : UnitId) : UnitTest → Except EvalError Bool
  | .carriesItem => return cx.world.carries u
  | .isAlive => return cx.world.isAlive u
  | .isFriend => do
    let mine ← cx.factionOf (← cx.this span)
    let theirs ← cx.factionOf u
    return mine == theirs
  | .isEnemy => do
    let mine ← cx.factionOf (← cx.this span)
    let theirs ← cx.factionOf u
    return mine != theirs

/-- questions about friend and enemy need the executing unit even before their operand is evaluated -/
def readyFor (span : Span) : UnitTest → Except EvalError Unit
  | .isFriend | .isEnemy => do let _ ← cx.this span
  | .carriesItem | .isAlive => return

/-- the answer to a question about a cube; there is none outside the bounds -/
def testCube (c : Cube) (t : CubeTest) : Option Bool :=
  (cx.world.ground? c).map fun g =>
    match t with
    | .isPassable => g.passable
    | .isSolid => !g.passable

/-- the passable neighbours of a cube, among which `nextTo` picks -/
def openNeighbours (c : Cube) : List Cube := (cx.world.adjacent c).filter cx.world.isPassable

end Context

/-- a value must be of the kind that is expected of the expression; no value is of any kind -/
def Expr.checkKind (e : Expr) (k : Kind) : Option Value → Except EvalError (Option Value)
  | none => .ok none
  | some v => if v.kind = k then .ok (some v) else .error (.typeMismatch k v.kind e.span)

namespace Expr

variable {ρ : Type}

def eval [Picker ρ] (cx : Context) : Expr → Eval ρ (Option Value)
  | .boolean _ b => return some (.boolean b)
  | .cube _ c => return some (.position c)
  | .junction _ op l r => do
    let a ← liftExcept (l.checkKind .boolean (← l.eval cx))
    let b ← liftExcept (r.checkKind .boolean (← r.eval cx))
    match a, b, op with
    | some (.boolean a), some (.boolean b), .and => return some (.boolean (a && b))
    | some (.boolean a), some (.boolean b), .or => return some (.boolean (a || b))
    | _, _, _ => return none
  | .not _ i => do
    match ← liftExcept (i.checkKind .boolean (← i.eval cx)) with
    | some (.boolean b) => return some (.boolean !b)
    | _ => return none
  | .unitTest s t e => do
    liftExcept (cx.readyFor s t)
    match ← liftExcept (e.checkKind .unit (← e.eval cx)) with
    | some (.unit u) => return some (.boolean (← liftExcept (cx.testUnit s u t)))
    | _ => return none
  | .cubeTest _ t e => do
    match ← liftExcept (e.checkKind .position (← e.eval cx)) with
    | some (.position c) => return (cx.testCube c t).map .boolean
    | _ => return none
  | .unit s u => liftExcept (cx.unitFrom s u)
  | .place s p => liftExcept (cx.placeFrom s p)
  | .positionOf _ e => do
    match ← liftExcept (e.checkKind .unit (← e.eval cx)) with
    | some (.unit u) => return some (.position (← liftExcept (cx.positionOf u)))
    | _ => return none
  | .nextTo _ e => do
    match ← liftExcept (e.checkKind .position (← e.eval cx)) with
    | some (.position c) =>
      let choice ← Picker.choose (ρ := ρ) (cx.openNeighbours c)
      return choice.map .position
    | _ => return none
  | .var _ n => return cx.store.get? n

/-- a value of the given kind, or none -/
def evalAs [Picker ρ] (cx : Context) (k : Kind) (e : Expr) : Eval ρ (Option Value) := do
  liftExcept (e.checkKind k (← e.eval cx))

/-- a value, whatever its kind; it is an error to have none -/
def evalSome [Picker ρ] (cx : Context) (e : Expr) : Eval ρ Value := do
  match ← e.eval cx with
  | some v => return v
  | none => throw (.noValue e.span)

/-- a value of the given kind; it is an error to have none -/
def evalRequired [Picker ρ] (cx : Context) (k : Kind) (e : Expr) : Eval ρ Value := do
  match ← e.evalAs cx k with
  | some v => return v
  | none => throw (.noValue e.span)

end Expr

end Errand
