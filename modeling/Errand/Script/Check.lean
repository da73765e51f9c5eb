/-
Checks that a script can pass before it runs.

Three rules, each blind to the state of execution: a variable is assigned on every path before it is read, a selected
unit or position is there where one is read, and `leave` stands inside a loop only. A script without problems is well
formed.
-/
import Errand.Script.Stmt
import Errand.Selection

namespace Errand

inductive Rule where
  | undefinedVariable
  | selectionRequired
  | breakOutsideLoop
  deriving DecidableEq, Repr

namespace Rule

/-- the rules in the order in which their problems are listed -/
def all : List Rule := [.undefinedVariable, .selectionRequired, .breakOutsideLoop]

def id : Rule → String
  | .undefinedVariable => "undefined-variable"
  | .selectionRequired => "selection-required"
  | .breakOutsideLoop => "break-outside-loop"

def description : Rule → String
  | .undefinedVariable => "Variables must be assigned before they are read"
  | .selectionRequired => "Selected unit or position must be available when used"
  | .breakOutsideLoop => "break may only appear inside a while loop"

end Rule

/-- one offence against a rule -/
inductive Problem where
  | unassigned (span : Span) (name : String)
  /-- `what` is the kind of the selection that is missing -/
  | unselected (span : Span) (what : Kind)
  | strayLeave (span : Span)
  deriving DecidableEq, Repr

namespace Problem

def span : Problem → Span
  | .unassigned s _ | .unselected s _ | .strayLeave s => s

def rule : Problem → Rule
  | .unassigned .. => .undefinedVariable
  | .unselected .. => .selectionRequired
  | .strayLeave _ => .breakOutsideLoop

def message : Problem → String
  | .unassigned _ n => s!"Variable '{n}' is read before it is assigned"
  | .unselected _ k => s!"'selected' {Worded.word k} used but nothing is selected"
  | .strayLeave _ => "break outside of a loop"

/-- the message with its place and its rule -/
def text (p : Problem) : String := s!"error at {p.span.text}: {p.message} [{p.rule.id}]"

end Problem

namespace Expr

def unassigned (scope : List String) (e : Expr) : List Problem :=
  e.nodes.filterMap fun
    | .var s n => if scope.contains n then none else some (.unassigned s n)
    | _ => none

def unselected? (sel : Selection) : Expr → Option Problem
  | .unit s .selected => if sel.unit?.isNone then some (.unselected s .unit) else none
  | .place s .selected => if sel.position?.isNone then some (.unselected s .position) else none
  | _ => none

end Expr

namespace Stmt

mutual

/-- the names that are assigned for certain once the statement is done; a loop may not run at all -/
def scopeAfter : Stmt → List String → List String
  | .sequence _ b _, scope => scopeAfterAll b scope
  | .conditional _ _ a e _, scope =>
    let other := scopeAfterElse e scope
    (a.scopeAfter scope).filter other.contains
  | .assign _ n _, scope => scope.insert n
  | .loop .., scope | .print .., scope | .action .., scope | .leave _, scope => scope

/-- the names assigned for certain once all the statements are done -/
def scopeAfterAll : List Stmt → List String → List String
  | [], scope => scope
  | s :: rest, scope => scopeAfterAll rest (s.scopeAfter scope)

/-- the names assigned for certain by the arm for a false test -/
def scopeAfterElse : Option Stmt → List String → List String
  | none, scope => scope
  | some s, scope => s.scopeAfter scope

end

mutual

/-- the reads that some path reaches before an assignment, in program order -/
def unassigned : Stmt → List String → List Problem
  | .sequence _ b _, scope => unassignedAll b scope
  | .conditional _ t a e _, scope => t.unassigned scope ++ a.unassigned scope ++ unassignedElse e scope
  | .loop _ t b, scope => t.unassigned scope ++ b.unassigned scope
  | .assign _ _ v, scope | .print _ v, scope => v.unassigned scope
  | .action _ _ t, scope => t.unassigned scope
  | .leave _, _ => []

/-- the early reads of statements in sequence -/
def unassignedAll : List Stmt → List String → List Problem
  | [], _ => []
  | s :: rest, scope => s.unassigned scope ++ unassignedAll rest (s.scopeAfter scope)

/-- the early reads of the arm for a false test -/
def unassignedElse : Option Stmt → List String → List Problem
  | none, _ => []
  | some s, scope => s.unassigned scope

end

/-- the reads of a selection that is not there, in program order -/
def unselected (s : Stmt) (sel : Selection) : List Problem := s.nodes.filterMap (Expr.unselected? sel)

mutual

/-- the `leave`s outside of any loop, in program order -/
def strayLeaves : Stmt → List Problem
  | .leave m => [.strayLeave m.span]
  | .sequence _ b _ => strayLeavesAll b
  | .conditional _ _ a e _ => a.strayLeaves ++ strayLeavesElse e
  | .loop .. | .assign .. | .print .. | .action .. => []

def strayLeavesAll : List Stmt → List Problem
  | [] => []
  | s :: rest => s.strayLeaves ++ strayLeavesAll rest

/-- the stray `leave`s of the arm for a false test -/
def strayLeavesElse : Option Stmt → List Problem
  | none => []
  | some s => s.strayLeaves

end

/-- the problems that one rule finds, given what is bound and selected at the start -/
def problemsBy (s : Stmt) (store : Store) (sel : Selection) : Rule → List Problem
  | .undefinedVariable => s.unassigned store.names
  | .selectionRequired => s.unselected sel
  | .breakOutsideLoop => s.strayLeaves

/-- the problems of all rules, one rule after the other -/
def problems (s : Stmt) (store : Store) (sel : Selection) : List Problem := Rule.all.flatMap (s.problemsBy store sel)

def isWellFormed (s : Stmt) (store : Store) (sel : Selection) : Bool := (s.problems store sel).isEmpty

end Stmt

end Errand
