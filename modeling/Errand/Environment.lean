/-
Environments: named variables, of which some hold settings.

A variable that is called `TASKFORCE__` and the path of a setting, with two underscores between the names, gives that
setting, whatever the case of its letters.
-/
import Errand.Datum.Path
import Errand.Decimal.Reader
import Errand.Text.Case

namespace Errand

structure Environment where
  /-- later variables are newer; no name is there twice -/
  vars : List (String × String) := []
  deriving DecidableEq, Repr

namespace Environment

def get? (e : Environment) (name : String) : Option String := e.vars.lookup name

def contains (e : Environment) (name : String) : Bool := (e.get? name).isSome

/-- puts a value in the place of the old one, or at the end -/
def set (e : Environment) (name value : String) : Environment :=
  if e.contains name then ⟨e.vars.map fun v => if v.1 = name then (name, value) else v⟩
  else ⟨e.vars ++ [(name, value)]⟩

/-- adds a variable, unless there is one of its name -/
def add (e : Environment) (name value : String) : Environment :=
  if e.contains name then e else e.set name value

/-- the variables of a block of assignments, each ended by a zero character -/
def ofBlock (block : String) : Environment :=
  let assignments := block.splitOn "\x00" |>.map fun a => a.toList.span (· ≠ '=')
  assignments.foldl (fun e a => if a.2.isEmpty then e else e.add (String.ofList a.1) (String.ofList a.2.tail)) {}

/-- what the names of variables with settings begin with, in small letters -/
def mark : String := "taskforce__"

/-- the dotted path of the setting that a variable gives -/
def settingPath? (name : String) : Option String :=
  let name := Text.small name
  if name.startsWith mark then some (String.intercalate "." ((name.drop mark.length).toString.splitOn "__")) else none

/-- the value of a variable: a truth value, an integer or a float if it can be read as one -/
def datum (value : String) : Datum :=
  match Text.small value with
  | "true" => .bool true
  | "false" => .bool false
  | _ =>
    match Decimal.int64? value with
    | some n => .int n.toInt
    | none =>
      match Decimal.float? value with
      | some x => .real x
      | none => .text value

/-- lays all settings of the environment over data -/
def overlay (e : Environment) (d : Datum) : Datum :=
  e.vars.foldl (fun d v =>
    match settingPath? v.1 with
    | some path => d.layAt (Datum.pathOf path) (datum v.2)
    | none => d) d

end Environment

end Errand
