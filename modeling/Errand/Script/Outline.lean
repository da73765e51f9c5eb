/-
Outlines: the shape of a script with how far each node has come, in a few letters.

Each node is the letter of its state and a letter for its form; a node with parts has them in brackets, behind what it
remembers of its execution.
-/
import Errand.Script.Stmt

namespace Errand

def ExecState.letter : ExecState → String
  | .notStarted => "N"
  | .inProgress => "I"
  | .done => "D"
  | .failed => "F"

/-- the letter of an arm, a dash if none is chosen -/
def Branch.letter : Option Branch → String
  | none => "-"
  | some .onTrue => "t"
  | some .onFalse => "e"

namespace Stmt

mutual

/-- the shape of a tree with the state of each node -/
def outline : Stmt → String
  | .sequence m body i => m.state.letter ++ s!"s{i}[" ++ outlineAll body ++ "]"
  | .conditional m _ a e chosen =>
    m.state.letter ++ "i" ++ Branch.letter chosen ++ "[" ++ a.outline ++ outlineElse e ++ "]"
  | .loop m _ body => m.state.letter ++ "w[" ++ body.outline ++ "]"
  | .assign m _ _ => m.state.letter ++ "a"
  | .print m _ => m.state.letter ++ "p"
  | .action m _ _ => m.state.letter ++ "x"
  | .leave m => m.state.letter ++ "b"

def outlineAll : List Stmt → String
  | [] => ""
  | s :: rest => s.outline ++ outlineAll rest

/-- a missing arm is an underscore -/
def outlineElse : Option Stmt → String
  | none => "_"
  | some s => s.outline

end

end Stmt

end Errand
