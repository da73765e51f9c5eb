/-
Data in JSON form. Of members with one name the last counts; an integer beyond 64 bits with a sign is a float.
-/
import Errand.Datum
import Errand.Json.Basic
import Errand.Width

namespace Errand.Datum

mutual

def ofJson : Json → Datum
  | .null | .flawed => .nothing
  | .bool b => .bool b
  | .int n => if fitsInt64 n then .int n else .real (Json.realValue (n < 0) n.natAbs 0)
  | .real negative significand exponent => .real (Json.realValue negative significand exponent)
  | .str s => .text s
  | .arr items => .list (ofItems items)
  | .obj members => .table (ofMembers members)

def ofItems : List Json → List Datum
  | [] => []
  | j :: rest => ofJson j :: ofItems rest

def ofMembers : List (String × Json) → List (String × Datum)
  | [] => []
  | (name, j) :: rest =>
    let more := ofMembers rest
    if (more.lookup name).isSome then more else (name, ofJson j) :: more

end

end Errand.Datum
