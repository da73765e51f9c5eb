/-
Values: what an expression produces and what a variable holds.
-/
import Errand.Terrain

namespace Errand

/-- what an expression produces -/
inductive Value where
  | boolean (b : Bool)
  | position (c : Cube)
  | unit (u : UnitId)
  deriving DecidableEq, Repr

inductive Kind where
  | boolean
  | position
  | unit
  deriving DecidableEq, Repr

instance : Worded Kind where
  all := [.boolean, .position, .unit]
  word
    | .boolean => "boolean"
    | .position => "position"
    | .unit => "unit"

namespace Value

def kind : Value → Kind
  | .boolean _ => .boolean
  | .position _ => .position
  | .unit _ => .unit

def boolean? : Value → Option Bool
  | .boolean b => some b
  | _ => none

def position? : Value → Option Cube
  | .position c => some c
  | _ => none

def unit? : Value → Option UnitId
  | .unit u => some u
  | _ => none

/-- the text that a print statement emits -/
def text : Value → String
  | .boolean b => if b then "true" else "false"
  | .position c => c.text
  | .unit u => u.text

end Value

end Errand
