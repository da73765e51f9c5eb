/-
Paths: where in data a setting stands.

A path is written as names with points between them; a number in brackets behind a name means an item of a list, counted
from the end if it is below zero. What a path leads through is made to be there: other data give way to tables and lists,
and lists grow.
-/
import Errand.Datum
import Errand.Decimal.Reader

namespace Errand.Datum

inductive Step where
  | name (s : String)
  | item (i : Int)
  deriving DecidableEq, Repr

/-! ## Text of paths -/

def isNameChar (c : Char) : Bool := c.isAlphanum || c = '_' || c = '-' || c = ' '

def nameStep? (cs : List Char) : Option (Step × List Char) :=
  match cs.span isNameChar with
  | ([], _) => none
  | (name, rest) => some (.name (String.ofList name), rest)

/-- the number of an item up to its closing bracket; blanks may stand around it -/
def itemStep? (cs : List Char) : Option (Step × List Char) := do
  let skip (cs : List Char) : List Char := cs.dropWhile fun c => c = ' ' || c = '\t'
  let (negative, cs) := match skip cs with
    | '-' :: cs => (true, cs)
    | cs => (false, cs)
  let (digits, cs) := cs.span Char.isDigit
  let n ← Decimal.natural? digits
  let i ← toInt64? (if negative then -(n : Int) else n)
  let ']' :: rest := skip cs | none
  return (.item i.toInt, rest)

/-- the steps behind the first one, to the end of the text -/
def steps? : Nat → List Char → Option (List Step)
  | _, [] => some []
  | 0, _ => none
  | fuel + 1, c :: cs => do
    let (step, rest) ← if c = '.' then nameStep? cs else if c = '[' then itemStep? cs else none
    return step :: (← steps? fuel rest)

def path? (key : String) : Option (List Step) := do
  let (first, rest) ← nameStep? key.toList
  return first :: (← steps? rest.length rest)

/-- the path of a key; a key that writes no path is a name by itself -/
def pathOf (key : String) : List Step := (path? key).getD [.name key]

/-! ## Changes at the end of a path -/

/-- which item of a list a number means -/
def itemIndex (i : Int) (size : Nat) : Nat := if i < 0 then (size + i).toNat else i.toNat

/-- changes an item of a list; a list that is too short is filled up with nothing -/
def changeItem (change : Datum → Datum) (i : Int) (items : List Datum) : List Datum :=
  let n := itemIndex i items.length
  (items ++ List.replicate (n + 1 - items.length) Datum.nothing).modify n change

def changeAt (change : Datum → Datum) : List Step → Datum → Datum
  | [], d => change d
  | .name s :: rest, d =>
    let s := Text.small s
    .table (put s (changeAt change rest ((d.get? s).getD .nothing)) d.entries)
  | .item i :: rest, d => .list (changeItem (changeAt change rest) i d.items)

/-- lays a datum over another at the end of a path; an item of a list is replaced -/
def layAt (d : Datum) (path : List Step) (v : Datum) : Datum :=
  match path.getLast? with
  | none => d
  | some (.name s) => changeAt (lay s v) path.dropLast d
  | some (.item i) => changeAt (fun old => .list (changeItem (fun _ => v) i old.items)) path.dropLast d

end Errand.Datum
