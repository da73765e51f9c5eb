/-
JSON forms of the plain values: handles, cubes, words, values, stores, selections, spans.

A record is written as an object; it is read from an object in any order or from an array of its fields.
-/
import Errand.Json.Basic
import Errand.Selection
import Errand.Store
import Errand.Host
import Errand.Script.Stmt

namespace Errand

open Json (fields? orElse)

/-! ## Handles -/

def TaskId.toJson (t : TaskId) : Json := .int t.index
def TaskId.ofJson? (j : Json) : Option TaskId := j.word?.map TaskId.mk

def SchedulerId.toJson (s : SchedulerId) : Json := .int s.index
def SchedulerId.ofJson? (j : Json) : Option SchedulerId := j.word?.map SchedulerId.mk

def UnitId.toJson (u : UnitId) : Json := .int u.number.toNat
def UnitId.ofJson? (j : Json) : Option UnitId := j.uint32?.map UnitId.mk

def FactionId.toJson (f : FactionId) : Json := .int f.number.toNat
def FactionId.ofJson? (j : Json) : Option FactionId := j.uint32?.map FactionId.mk

/-! ## Words -/

def Worded.toJson {α : Type} [Worded α] (a : α) : Json := .str (Worded.word a)

/-- letter case counts -/
def Worded.ofJson? {α : Type} [Worded α] (j : Json) : Option α := j.worded? Worded.ofWord?

def Worded.ofKept? {α : Type} [Worded α] (j : Json) : Option α := j.keptWord? Worded.ofWord?

/-- `null` for nothing -/
def Json.ofOption {α : Type} (write : α → Json) : Option α → Json
  | none => .null
  | some a => write a

/-! ## Records -/

namespace Cube

def toJson (c : Cube) : Json := .obj [("x", .int c.x.toInt), ("y", .int c.y.toInt), ("z", .int c.z.toInt)]

def ofJson? (j : Json) : Option Cube := do
  let [some x, some y, some z] ← fields? ["x", "y", "z"] j | none
  return ⟨← x.int64?, ← y.int64?, ← z.int64?⟩

end Cube

namespace Span

def toJson (s : Span) : Json := .obj [("line", .int s.line.toNat), ("column", .int s.column.toNat)]

def ofJson? (j : Json) : Option Span := do
  let [some line, some column] ← fields? ["line", "column"] j | none
  return { line := ← line.uint64?, column := ← column.uint64? }

end Span

namespace Selection

def toJson (s : Selection) : Json :=
  .obj [("unit", .ofOption UnitId.toJson s.unit?), ("position", .ofOption Cube.toJson s.position?)]

def ofJson? (j : Json) : Option Selection := do
  let [u, p] ← fields? ["unit", "position"] j | none
  return { unit? := ← orElse (Json.option? UnitId.ofJson?) none u,
           position? := ← orElse (Json.option? Cube.ofJson?) none p }

end Selection

/-! ## Values and stores -/

namespace Value

/-- the word for the kind of a value, beside the value itself -/
def toJson : Value → Json
  | .boolean b => .obj [("t", .str "Boolean"), ("v", .bool b)]
  | .position c => .obj [("t", .str "Position"), ("v", c.toJson)]
  | .unit u => .obj [("t", .str "Unit"), ("v", u.toJson)]

/-- the kind that a word stands for beside a value -/
def kindOfTag? : String → Option Kind
  | "Boolean" => some .boolean
  | "Position" => some .position
  | "Unit" => some .unit
  | _ => none

def ofKind? (j : Json) : Kind → Option Value
  | .boolean => j.bool?.map .boolean
  | .position => (Cube.ofJson? j).map .position
  | .unit => (UnitId.ofJson? j).map .unit

/-- a value that stands before its kind is kept until the kind is known, so all of it must be sound; in an array the
    kind comes first and is a plain word -/
def ofJson? : Json → Option Value
  | .obj members => do
    Json.only? (Json.unrepeated ["t", "v"] members)
    let tag ← Json.member? members "t"
    let v ← Json.member? members "v"
    let keptFirst := (members.find? fun m => m.1 == "t" || m.1 == "v").any (·.1 == "v")
    Json.only? (!keptFirst || v.isSound)
    ofKind? v (← tag.worded? kindOfTag?)
  | .arr [.str tag, v] => do ofKind? v (← kindOfTag? tag)
  | _ => none

end Value

namespace Store

def toJson (s : Store) : Json := .obj [("vars", .obj (s.toList.map fun nv => (nv.1, nv.2.toJson)))]

/-- the bindings by themselves; of two for one name the later counts -/
def ofBindings? : Json → Option Store
  | .obj members => do return ofList (← members.mapM fun m => do return (m.1, ← Value.ofJson? m.2))
  | _ => none

def ofJson? (j : Json) : Option Store := do
  let [some vars] ← fields? ["vars"] j | none
  ofBindings? vars

end Store

end Errand
