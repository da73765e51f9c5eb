/-
JSON forms of listed worlds and of rehearsals in them.
-/
import Errand.Form.Scenario
import Errand.Rehearsal

namespace Errand

open Json (fields? orElse list? option?)

/-- only the number of a unit has to be known -/
def Figure.ofJson? (j : Json) : Option Figure := do
  let [some id, faction, position, carrying, alive] ← fields? ["id", "faction", "position", "carrying", "alive"] j
    | none
  return {
    id := ← UnitId.ofJson? id
    faction? := ← orElse (option? FactionId.ofJson?) none faction
    position? := ← orElse (option? Cube.ofJson?) none position
    carrying := ← orElse Json.bool? false carrying
    alive := ← orElse Json.bool? true alive }

/-- only the size has to be given -/
def Setting.ofJson? (j : Json) : Option Setting := do
  let [some size, terrain, boulders, logs, workshops, units] ←
    fields? ["size", "terrain", "boulders", "logs", "workshops", "units"] j | none
  let patches ← orElse (list? Patch.ofJson?) [] terrain
  return {
    size := ← Cube.ofJson? size
    terrain := patches.map fun p => (p.cube, p.terrain)
    boulders := ← orElse (list? Cube.ofJson?) [] boulders
    logs := ← orElse (list? Cube.ofJson?) [] logs
    workshops := ← orElse (list? Cube.ofJson?) [] workshops
    figures := ← orElse (list? Figure.ofJson?) [] units }

/-- a rehearsal in a world; the answers to polls are listed beside the facts of the world -/
def Rehearsal.ofJson? (world : World) (j : Json) : Option Rehearsal := do
  let [prompts, final] ← fields? ["statuses", "then"] j | none
  return {
    world
    prompts := ← orElse (list? Worded.ofJson?) [] prompts
    final := ← orElse Worded.ofJson? .completed final }

end Errand
