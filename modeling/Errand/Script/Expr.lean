/-
Expressions: the questions a script asks of its unit, its variables and the world.

Expressions have no state and change nothing. Constructors are grouped by what they read; each carries the span of the
script text it came from, which only error texts use.
-/
import Errand.Store

namespace Errand

/-- a place in the script text; 0 and 0 when unknown -/
structure Span where
  line : UInt64 := 0
  column : UInt64 := 0
  deriving DecidableEq, Repr, Inhabited

def Span.text (s : Span) : String := s!"line {s.line}, col {s.column}"

inductive Junction where
  | and
  | or
  deriving DecidableEq, Repr

inductive UnitTest where
  | isEnemy
  | isFriend
  | carriesItem
  | isAlive
  deriving DecidableEq, Repr

inductive CubeTest where
  | isSolid
  | isPassable
  deriving DecidableEq, Repr

/-- where a unit comes from when no operand names it -/
inductive UnitSource where
  | this
  | anyUnit
  | friend
  | enemy
  | selected
  deriving DecidableEq, Repr

/-- where a position comes from when no operand names it -/
inductive PlaceSource where
  | here
  | boulder
  | log
  | workshop
  | selected
  deriving DecidableEq, Repr

/-- expressions, each with its place in the text -/
inductive Expr where
  | boolean (span : Span) (b : Bool)
  | cube (span : Span) (c : Cube)
  | junction (span : Span) (op : Junction) (left right : Expr)
  | not (span : Span) (inner : Expr)
  | unitTest (span : Span) (test : UnitTest) (unit : Expr)
  | cubeTest (span : Span) (test : CubeTest) (pos : Expr)
  | unit (span : Span) (source : UnitSource)
  | place (span : Span) (source : PlaceSource)
  | positionOf (span : Span) (unit : Expr)
  | nextTo (span : Span) (pos : Expr)
  | var (span : Span) (name : String)
  deriving DecidableEq, Repr

namespace Expr

/-- where the expression is written -/
def span : Expr → Span
  | .boolean s _ | .cube s _ | .junction s _ _ _ | .not s _ | .unitTest s _ _ | .cubeTest s _ _ | .unit s _
  | .place s _ | .positionOf s _ | .nextTo s _ | .var s _ => s

/-- the same expression at another place of the text -/
def withSpan (s : Span) : Expr → Expr
  | .boolean _ b => .boolean s b
  | .cube _ c => .cube s c
  | .junction _ op l r => .junction s op l r
  | .not _ e => .not s e
  | .unitTest _ t e => .unitTest s t e
  | .cubeTest _ t e => .cubeTest s t e
  | .unit _ u => .unit s u
  | .place _ p => .place s p
  | .positionOf _ e => .positionOf s e
  | .nextTo _ e => .nextTo s e
  | .var _ n => .var s n

/-- the kind of every value this can produce; open for a variable -/
def kind? : Expr → Option Kind
  | .boolean .. | .junction .. | .not .. | .unitTest .. | .cubeTest .. => some .boolean
  | .unit .. => some .unit
  | .cube .. | .place .. | .positionOf .. | .nextTo .. => some .position
  | .var .. => none

/-- the operands, left to right -/
def children : Expr → List Expr
  | .junction _ _ l r => [l, r]
  | .not _ e | .unitTest _ _ e | .cubeTest _ _ e | .positionOf _ e | .nextTo _ e => [e]
  | .boolean .. | .cube .. | .unit .. | .place .. | .var .. => []

/-- this expression and everything below it, a node before its operands -/
def nodes : Expr → List Expr
  | e@(.junction _ _ l r) => e :: (l.nodes ++ r.nodes)
  | e@(.not _ i) | e@(.unitTest _ _ i) | e@(.cubeTest _ _ i) | e@(.positionOf _ i) | e@(.nextTo _ i) => e :: i.nodes
  | e@(.boolean ..) | e@(.cube ..) | e@(.unit ..) | e@(.place ..) | e@(.var ..) => [e]

theorem nodes_eq (e : Expr) : e.nodes = e :: e.children.flatMap nodes := by
  cases e <;> simp [nodes, children]

/-- induction over expressions, with the hypothesis for every operand -/
theorem children_induct {motive : Expr → Prop} (h : ∀ e, (∀ c ∈ e.children, motive c) → motive e) (e : Expr) :
    motive e := by
  induction e with
  | junction s op l r ihl ihr => exact h _ (by simp [children, ihl, ihr])
  | not s i ih | unitTest s t i ih | cubeTest s t i ih | positionOf s i ih | nextTo s i ih =>
    exact h _ (by simpa [children])
  | _ => exact h _ (by simp [children])

end Expr

end Errand
