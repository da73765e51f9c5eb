/-
JSON forms of templates and scenarios.

An order has the fields of its template among its own, so it is kept as a whole before it is read, apart from its
faction and its selections.
-/
import Errand.Form.Script
import Errand.Json.Reader
import Errand.Scenario

namespace Errand

open Json (fields? orElse member? unrepeated)

namespace Template

def members (t : Template) : List (String × Json) :=
  [("name", .str t.name), ("priority", .int t.priority.toInt), ("body", t.body.toJson)]

def toJson (t : Template) : Json := .obj t.members

/-- reads a template with a given reader for its body -/
def ofForm? (body? : Json → Option Stmt) (j : Json) : Option Template := do
  let [some name, some priority, some body] ← fields? ["name", "priority", "body"] j | none
  return { name := ← name.str?, priority := ← priority.int64?, body := ← body? body }

def ofJson? (j : Json) : Option Template := ofForm? Stmt.ofJson? j

end Template

namespace Patch

def toJson (p : Patch) : Json := .obj [("at", p.cube.toJson), ("kind", Worded.toJson p.terrain)]

def ofJson? (j : Json) : Option Patch := do
  let [some cube, some kind] ← fields? ["at", "kind"] j | none
  return { cube := ← Cube.ofJson? cube, terrain := ← Worded.ofJson? kind }

end Patch

namespace Resident

def toJson (r : Resident) : Json :=
  .obj [("id", r.id.toJson), ("faction", r.faction.toJson), ("position", r.position.toJson),
    ("carrying", .ofOption Worded.toJson r.carrying?), ("alive", .bool r.alive)]

def ofJson? (j : Json) : Option Resident := do
  let [some id, some faction, some position, carrying, alive] ←
    fields? ["id", "faction", "position", "carrying", "alive"] j | none
  return {
    id := ← UnitId.ofJson? id
    faction := ← FactionId.ofJson? faction
    position := ← Cube.ofJson? position
    carrying? := ← orElse (Json.option? Worded.ofJson?) none carrying
    alive := ← orElse Json.bool? true alive }

end Resident

namespace Layout

def toJson (l : Layout) : Json :=
  .obj [("size", l.size.toJson), ("terrain", .arr (l.terrain.map Patch.toJson)),
    ("boulders", .arr (l.boulders.map Cube.toJson)), ("logs", .arr (l.logs.map Cube.toJson)),
    ("units", .arr (l.units.map Resident.toJson))]

def ofJson? (j : Json) : Option Layout := do
  let [some size, terrain, boulders, logs, units] ← fields? ["size", "terrain", "boulders", "logs", "units"] j | none
  return {
    size := ← Cube.ofJson? size
    terrain := ← orElse (Json.list? Patch.ofJson?) [] terrain
    boulders := ← orElse (Json.list? Cube.ofJson?) [] boulders
    logs := ← orElse (Json.list? Cube.ofJson?) [] logs
    units := ← orElse (Json.list? Resident.ofJson?) [] units }

end Layout

namespace Order

def toJson (o : Order) : Json :=
  .obj ([("faction", o.faction.toJson)] ++ o.template.members
    ++ [("selections", .arr (o.selections.map Cube.toJson))])

def ofJson? : Json → Option Order
  | .obj members => do
    let direct := ["faction", "selections"]
    Json.only? (unrepeated direct members && Json.keptSound direct members)
    return {
      faction := ← FactionId.ofJson? (← member? members "faction")
      template := ← Template.ofForm? Stmt.ofKept? (.obj members)
      selections := ← orElse (Json.list? Cube.ofJson?) [] (member? members "selections") }
  | _ => none

end Order

namespace Scenario

def toJson (s : Scenario) : Json :=
  .obj [("world", s.layout.toJson), ("tasks", .arr (s.orders.map Order.toJson))]

def ofJson? (j : Json) : Option Scenario := do
  let [some world, tasks] ← fields? ["world", "tasks"] j | none
  return { layout := ← Layout.ofJson? world, orders := ← orElse (Json.list? Order.ofJson?) [] tasks }

def parse? (text : String) : Option Scenario := do ofJson? (← Json.parse? text)

end Scenario

end Errand
