/-
Statements: the tree a task executes, with the state of execution kept on its nodes.

A tree is stepped once per tick, so each node records how far it got. `reset` forgets all of that and nothing else;
`isPristine` says that there is nothing to forget.
-/
import Errand.Script.Expr

namespace Errand

/-- how far the execution of a node has come -/
inductive ExecState where
  | notStarted
  | inProgress
  | done
  | failed
  deriving DecidableEq, Repr, Inhabited

/-- a node that is done or failed is never stepped again -/
def ExecState.isTerminal : ExecState → Bool
  | .done | .failed => true
  | .notStarted | .inProgress => false

instance : Worded ExecState where
  all := [.notStarted, .inProgress, .done, .failed]
  word
    | .notStarted => "not_started"
    | .inProgress => "in_progress"
    | .done => "done"
    | .failed => "failed"

/-- the arm of a conditional that was chosen -/
inductive Branch where
  | onTrue
  | onFalse
  deriving DecidableEq, Repr

instance : Worded Branch where
  all := [.onTrue, .onFalse]
  word
    | .onTrue => "then"
    | .onFalse => "else"

/-- the long-running effects that a unit can be told to have -/
inductive ActionKind where
  | moveTo
  | workAt
  | attack
  | follow
  deriving DecidableEq, Repr

namespace ActionKind

def targetKind : ActionKind → Kind
  | .moveTo | .workAt => .position
  | .attack | .follow => .unit

/-- the verb as scripts spell it -/
def verb : ActionKind → String
  | .moveTo => "moveTo"
  | .workAt => "work"
  | .attack => "attack"
  | .follow => "follow"

instance : Worded ActionKind where
  all := [.moveTo, .workAt, .attack, .follow]
  word
    | .moveTo => "move_to"
    | .workAt => "work_at"
    | .attack => "attack"
    | .follow => "follow"

end ActionKind

/-- what every statement node carries: where it stands in the text and how far it got -/
structure Mark where
  span : Span := {}
  state : ExecState := .notStarted
  deriving DecidableEq, Repr, Inhabited

/-- statements, each with its mark -/
inductive Stmt where
  /-- children one after the other; `idx` is the active one -/
  | sequence (mark : Mark) (body : List Stmt) (idx : Nat)
  /-- `chosen` is the arm picked when the test was evaluated -/
  | conditional (mark : Mark) (test : Expr) (thenS : Stmt) (elseS : Option Stmt) (chosen : Option Branch)
  | loop (mark : Mark) (test : Expr) (body : Stmt)
  | assign (mark : Mark) (name : String) (value : Expr)
  | print (mark : Mark) (value : Expr)
  | action (mark : Mark) (kind : ActionKind) (target : Expr)
  /-- leaves the innermost loop -/
  | leave (mark : Mark)
  deriving Repr, Inhabited

namespace Stmt

def mark : Stmt → Mark
  | .sequence m _ _ | .conditional m _ _ _ _ | .loop m _ _ | .assign m _ _ | .print m _ | .action m _ _ | .leave m => m

def withMark (m : Mark) : Stmt → Stmt
  | .sequence _ b i => .sequence m b i
  | .conditional _ t a e c => .conditional m t a e c
  | .loop _ t b => .loop m t b
  | .assign _ n v => .assign m n v
  | .print _ v => .print m v
  | .action _ k t => .action m k t
  | .leave _ => .leave m

def state (s : Stmt) : ExecState := s.mark.state

/-- where the statement is written -/
def span (s : Stmt) : Span := s.mark.span

/-- another place for the root -/
def withSpan (sp : Span) (s : Stmt) : Stmt := s.withMark { s.mark with span := sp }

mutual

/-- the same program with every trace of execution removed -/
def reset : Stmt → Stmt
  | .sequence m b _ => .sequence { m with state := .notStarted } (resetAll b) 0
  | .conditional m t a e _ => .conditional { m with state := .notStarted } t a.reset (resetElse e) none
  | .loop m t b => .loop { m with state := .notStarted } t b.reset
  | .assign m n v => .assign { m with state := .notStarted } n v
  | .print m v => .print { m with state := .notStarted } v
  | .action m k t => .action { m with state := .notStarted } k t
  | .leave m => .leave { m with state := .notStarted }

def resetAll : List Stmt → List Stmt
  | [] => []
  | s :: rest => s.reset :: resetAll rest

/-- resets the arm for a false test, if there is one -/
def resetElse : Option Stmt → Option Stmt
  | none => none
  | some s => some s.reset

end

mutual

/-- nothing in the tree has been executed -/
def isPristine : Stmt → Bool
  | .sequence m b i => m.state == .notStarted && i == 0 && allPristine b
  | .conditional m _ a e c => m.state == .notStarted && c == none && a.isPristine && elsePristine e
  | .loop m _ b => m.state == .notStarted && b.isPristine
  | .assign m _ _ | .print m _ | .action m _ _ | .leave m => m.state == .notStarted

/-- nothing in any tree of the list has been executed -/
def allPristine : List Stmt → Bool
  | [] => true
  | s :: rest => s.isPristine && allPristine rest

/-- nothing in the arm for a false test has been executed -/
def elsePristine : Option Stmt → Bool
  | none => true
  | some s => s.isPristine

end

/-- the expressions that the node itself holds -/
def expressions : Stmt → List Expr
  | .conditional _ t _ _ _ | .loop _ t _ => [t]
  | .assign _ _ v | .print _ v => [v]
  | .action _ _ t => [t]
  | .sequence .. | .leave _ => []

mutual

def size : Stmt → Nat
  | .sequence _ b _ => sizeAll b + 1
  | .conditional _ _ a e _ => a.size + sizeElse e + 1
  | .loop _ _ b => b.size + 1
  | .assign .. | .print .. | .action .. | .leave _ => 1

/-- the number of nodes of a list of trees -/
def sizeAll : List Stmt → Nat
  | [] => 0
  | s :: rest => s.size + sizeAll rest

/-- the number of nodes of the arm for a false test -/
def sizeElse : Option Stmt → Nat
  | none => 0
  | some s => s.size

end

mutual

/-- the expressions of the tree, in program order, each with everything below it -/
def nodes : Stmt → List Expr
  | .sequence _ b _ => nodesAll b
  | .conditional _ t a e _ => t.nodes ++ a.nodes ++ nodesElse e
  | .loop _ t b => t.nodes ++ b.nodes
  | .assign _ _ v | .print _ v => v.nodes
  | .action _ _ t => t.nodes
  | .leave _ => []

def nodesAll : List Stmt → List Expr
  | [] => []
  | s :: rest => s.nodes ++ nodesAll rest

/-- the expressions of the arm for a false test -/
def nodesElse : Option Stmt → List Expr
  | none => []
  | some s => s.nodes

end

/-! The recursions on lists and on the arm for a false test are the library's own. -/

theorem resetAll_eq (b : List Stmt) : resetAll b = b.map reset := by
  induction b with
  | nil => rfl
  | cons s rest ih => simp [resetAll, ih]

/-- resetting an absent arm does nothing -/
theorem resetElse_eq (e : Option Stmt) : resetElse e = e.map reset := by
  cases e <;> rfl

theorem allPristine_eq (b : List Stmt) : allPristine b = b.all isPristine := by
  induction b with
  | nil => rfl
  | cons s rest ih => simp [allPristine, ih]

theorem nodesAll_eq (b : List Stmt) : nodesAll b = b.flatMap nodes := by
  induction b with
  | nil => rfl
  | cons s rest ih => simp [nodesAll, ih]

/-- induction over trees, with the hypothesis for every child -/
@[elab_as_elim]
theorem induct {motive : Stmt → Prop}
    (sequence : ∀ m b i, (∀ s ∈ b, motive s) → motive (.sequence m b i))
    (conditional : ∀ m t a e c, motive a → (∀ s ∈ e, motive s) → motive (.conditional m t a e c))
    (loop : ∀ m t b, motive b → motive (.loop m t b))
    (assign : ∀ m n v, motive (.assign m n v))
    (print : ∀ m v, motive (.print m v))
    (action : ∀ m k t, motive (.action m k t))
    (leave : ∀ m, motive (.leave m)) (s : Stmt) : motive s :=
  Stmt.rec (motive_1 := motive) (motive_2 := fun b => ∀ s ∈ b, motive s) (motive_3 := fun e => ∀ s ∈ e, motive s)
    sequence conditional loop assign print action leave
    (by simp) (fun s rest hs hr => by simp; exact ⟨hs, hr⟩) (by simp) (fun s hs => by simpa using hs) s

theorem size_le_sizeAll {s : Stmt} {b : List Stmt} (h : s ∈ b) : s.size ≤ sizeAll b := by
  induction b with
  | nil => simp at h
  | cons t rest ih =>
    rcases List.mem_cons.1 h with rfl | h
    · simp [sizeAll]
    · have := ih h
      simp only [sizeAll]; omega

theorem size_reset (s : Stmt) : s.reset.size = s.size := by
  induction s using induct with
  | sequence m b i ih =>
    simp only [reset, size, Nat.add_right_cancel_iff]
    induction b with
    | nil => rfl
    | cons s rest ihr =>
      simp only [resetAll, sizeAll, ih s (by simp), ihr fun t ht => ih t (by simp [ht])]
  | conditional m t a e c iha ihe =>
    cases e with
    | none => simp [reset, size, iha, resetElse, sizeElse]
    | some s => simp [reset, size, iha, resetElse, sizeElse, ihe s rfl]
  | loop m t b ih => simp [reset, size, ih]
  | assign => rfl
  | print => rfl
  | action => rfl
  | leave => rfl

end Stmt

end Errand
