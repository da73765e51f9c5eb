/-
Data: what a settings file can hold, whatever its format.

Settings of several sources are laid over each other: a table is merged with the table it meets, anything else takes the
place of what was there. Letter case does not count in the names of entries.
-/
import Errand.Text.Case

namespace Errand

/-- a value of a settings file -/
inductive Datum where
  | nothing
  | bool (b : Bool)
  | int (n : Int)
  | real (x : Float)
  | text (s : String)
  | list (items : List Datum)
  | table (entries : List (String × Datum))
  deriving Inhabited

namespace Datum

/-- the entries of a table, none of anything else -/
def entries : Datum → List (String × Datum)
  | .table es => es
  | _ => []

/-- the items of a list, none of anything else -/
def items : Datum → List Datum
  | .list ds => ds
  | _ => []

def get? (d : Datum) (name : String) : Option Datum := d.entries.lookup name

/-- puts an entry in the place of the one with its name, or at the end -/
def put (name : String) (v : Datum) : List (String × Datum) → List (String × Datum)
  | [] => [(name, v)]
  | (n, old) :: rest => if n = name then (name, v) :: rest else (n, old) :: put name v rest

mutual

/-- lays a datum over another under a name in small letters; what is not a table becomes one -/
def lay (name : String) : Datum → Datum → Datum
  | .table new, d =>
    let name := Text.small name
    .table (put name (layAll new ((d.get? name).getD (.table []))) d.entries)
  | v, d => .table (put (Text.small name) v d.entries)

/-- lays every entry over a datum -/
def layAll : List (String × Datum) → Datum → Datum
  | [], d => d
  | (n, v) :: rest, d => layAll rest (lay n v d)

end

end Datum

end Errand
