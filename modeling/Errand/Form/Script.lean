/-
JSON forms of scripts.

A node is an object whose `type` names the form, with the fields of that form beside it. What says nothing is left out
when written: an unknown span, a state not started, an index of 0, an arm not chosen. Apart from the span and the state,
a node is kept as a whole before it is read, so everything in it must be sound, fields of other names included.
-/
import Errand.Form.Values

namespace Errand

open Json (fields? orElse member? unrepeated)

/-- the form that a `type` names, by its word or by its place in the list of forms -/
def Json.formName? (forms : List String) : Json → Option String
  | .str s => if forms.contains s then some s else none
  | .int n => if 0 ≤ n then forms[n.toNat]? else none
  | _ => none

/-- the members that are kept before the node is read are sound -/
def Json.keptSound (direct : List String) (members : List (String × Json)) : Bool :=
  members.all fun m => direct.contains m.1 || m.2.isSound

/-- the member for a span, if the span is known -/
def Span.member (s : Span) : List (String × Json) := if s = {} then [] else [("span", s.toJson)]

namespace Expr

def forms : List String :=
  ["lit_bool", "lit_pos", "and", "or", "not", "is_enemy", "is_friend", "carries_item", "is_alive", "is_solid",
   "is_passable", "this", "any_unit", "friend", "enemy", "selected_unit", "here", "position_of", "next_to", "boulder",
   "log", "workshop", "selected_pos", "var"]

def form : Expr → String
  | .boolean .. => "lit_bool"
  | .cube .. => "lit_pos"
  | .junction _ .and _ _ => "and"
  | .junction _ .or _ _ => "or"
  | .not .. => "not"
  | .unitTest _ .isEnemy _ => "is_enemy"
  | .unitTest _ .isFriend _ => "is_friend"
  | .unitTest _ .carriesItem _ => "carries_item"
  | .unitTest _ .isAlive _ => "is_alive"
  | .cubeTest _ .isSolid _ => "is_solid"
  | .cubeTest _ .isPassable _ => "is_passable"
  | .unit _ .this => "this"
  | .unit _ .anyUnit => "any_unit"
  | .unit _ .friend => "friend"
  | .unit _ .enemy => "enemy"
  | .unit _ .selected => "selected_unit"
  | .place _ .here => "here"
  | .place _ .boulder => "boulder"
  | .place _ .log => "log"
  | .place _ .workshop => "workshop"
  | .place _ .selected => "selected_pos"
  | .positionOf .. => "position_of"
  | .nextTo .. => "next_to"
  | .var .. => "var"

def toJson : Expr → Json
  | e@(.boolean s b) => .obj ([("type", .str e.form), ("v", .bool b)] ++ s.member)
  | e@(.cube s c) =>
    .obj ([("type", .str e.form), ("x", .int c.x.toInt), ("y", .int c.y.toInt), ("z", .int c.z.toInt)] ++ s.member)
  | e@(.junction s _ l r) => .obj ([("type", .str e.form), ("left", l.toJson), ("right", r.toJson)] ++ s.member)
  | e@(.not s i) => .obj ([("type", .str e.form), ("inner", i.toJson)] ++ s.member)
  | e@(.unitTest s _ u) => .obj ([("type", .str e.form), ("unit", u.toJson)] ++ s.member)
  | e@(.cubeTest s _ p) => .obj ([("type", .str e.form), ("pos", p.toJson)] ++ s.member)
  | e@(.unit s _) => .obj ([("type", .str e.form)] ++ s.member)
  | e@(.place s _) => .obj ([("type", .str e.form)] ++ s.member)
  | e@(.positionOf s u) => .obj ([("type", .str e.form), ("unit", u.toJson)] ++ s.member)
  | e@(.nextTo s p) => .obj ([("type", .str e.form), ("pos", p.toJson)] ++ s.member)
  | e@(.var s n) => .obj ([("type", .str e.form), ("name", .str n)] ++ s.member)

/-- the expression of a form, from the members of its node; `operand?` reads the operand of a name -/
def ofForm? (operand? : String → Option Expr) (members : List (String × Json)) (span : Span) : String → Option Expr
  | "lit_bool" => do
    Json.only? (unrepeated ["v"] members)
    return .boolean span (← (← member? members "v").bool?)
  | "lit_pos" => do
    Json.only? (unrepeated ["x", "y", "z"] members)
    let x ← (← member? members "x").int64?
    let y ← (← member? members "y").int64?
    let z ← (← member? members "z").int64?
    return .cube span ⟨x, y, z⟩
  | "and" => do return .junction span .and (← operand? "left") (← operand? "right")
  | "or" => do return .junction span .or (← operand? "left") (← operand? "right")
  | "not" => do return .not span (← operand? "inner")
  | "is_enemy" => do return .unitTest span .isEnemy (← operand? "unit")
  | "is_friend" => do return .unitTest span .isFriend (← operand? "unit")
  | "carries_item" => do return .unitTest span .carriesItem (← operand? "unit")
  | "is_alive" => do return .unitTest span .isAlive (← operand? "unit")
  | "is_solid" => do return .cubeTest span .isSolid (← operand? "pos")
  | "is_passable" => do return .cubeTest span .isPassable (← operand? "pos")
  | "this" => some (.unit span .this)
  | "any_unit" => some (.unit span .anyUnit)
  | "friend" => some (.unit span .friend)
  | "enemy" => some (.unit span .enemy)
  | "selected_unit" => some (.unit span .selected)
  | "here" => some (.place span .here)
  | "position_of" => do return .positionOf span (← operand? "unit")
  | "next_to" => do return .nextTo span (← operand? "pos")
  | "boulder" => some (.place span .boulder)
  | "log" => some (.place span .log)
  | "workshop" => some (.place span .workshop)
  | "selected_pos" => some (.place span .selected)
  | "var" => do
    Json.only? (unrepeated ["name"] members)
    return .var span (← (← member? members "name").str?)
  | _ => none

def ofJson? : Json → Option Expr
  | .obj members => do
    Json.only? (unrepeated ["type", "span"] members && Json.keptSound ["span"] members)
    let span ← orElse Span.ofJson? {} (member? members "span")
    let form ← (← member? members "type").formName? forms
    let operand? (name : String) : Option Expr := do
      Json.only? (unrepeated [name] members)
      match _h : member? members name with
      | some j => ofJson? j
      | none => none
    ofForm? operand? members span form
  | _ => none
termination_by j => sizeOf j
decreasing_by exact Json.sizeOf_member ‹_›

end Expr

def Mark.members (m : Mark) : List (String × Json) :=
  (if m.state = .notStarted then [] else [("state", Worded.toJson m.state)]) ++ m.span.member

namespace Stmt

def forms : List String := ["sequence", "if", "while", "assign", "print", "action", "break"]

mutual

def toJson : Stmt → Json
  | .sequence m b i =>
    let idx := if i = 0 then [] else [("idx", .int i)]
    .obj ([("type", .str "sequence"), ("body", .arr (toItems b))] ++ idx ++ m.members)
  | .conditional m t a e c =>
    let branch := c.toList.map fun c => ("branch", Worded.toJson c)
    .obj ([("type", .str "if"), ("test", t.toJson), ("then_s", a.toJson), ("else_s", elseToJson e)] ++ branch
      ++ m.members)
  | .loop m t b => .obj ([("type", .str "while"), ("test", t.toJson), ("body", b.toJson)] ++ m.members)
  | .assign m n v => .obj ([("type", .str "assign"), ("name", .str n), ("expr", v.toJson)] ++ m.members)
  | .print m v => .obj ([("type", .str "print"), ("expr", v.toJson)] ++ m.members)
  | .action m k t =>
    .obj ([("type", .str "action"), ("action", Worded.toJson k), ("target", t.toJson)] ++ m.members)
  | .leave m => .obj ([("type", .str "break")] ++ m.members)

def toItems : List Stmt → List Json
  | [] => []
  | s :: rest => s.toJson :: toItems rest

/-- the arm for a false test, `null` if there is none -/
def elseToJson : Option Stmt → Json
  | none => .null
  | some s => s.toJson

end

/-- the statement of a form, from the members of its node; `child?` reads the statement of a name, `block?` a list of
    them, and `arm?` one that may be absent -/
def ofForm? (child? : String → Option Stmt) (block? : String → Option (List Stmt))
    (arm? : String → Option (Option Stmt)) (members : List (String × Json)) (mark : Mark) : String → Option Stmt
  | "sequence" => do
    Json.only? (unrepeated ["body", "idx"] members)
    return .sequence mark (← block? "body") (← orElse Json.word? 0 (member? members "idx"))
  | "if" => do
    Json.only? (unrepeated ["test", "then_s", "else_s", "branch"] members)
    let test ← Expr.ofJson? (← member? members "test")
    let thenS ← child? "then_s"
    let elseS ← arm? "else_s"
    let chosen ← orElse (Json.option? Worded.ofKept?) none (member? members "branch")
    return .conditional mark test thenS elseS chosen
  | "while" => do
    Json.only? (unrepeated ["test", "body"] members)
    return .loop mark (← Expr.ofJson? (← member? members "test")) (← child? "body")
  | "assign" => do
    Json.only? (unrepeated ["name", "expr"] members)
    return .assign mark (← (← member? members "name").str?) (← Expr.ofJson? (← member? members "expr"))
  | "print" => do
    Json.only? (unrepeated ["expr"] members)
    return .print mark (← Expr.ofJson? (← member? members "expr"))
  | "action" => do
    Json.only? (unrepeated ["action", "target"] members)
    let kind ← Worded.ofKept? (← member? members "action")
    return .action mark kind (← Expr.ofJson? (← member? members "target"))
  | "break" => some (.leave mark)
  | _ => none

mutual

/-- reads a node with a given reader for its state; in all nodes below it the state has been kept -/
def ofNode? (state? : Json → Option ExecState) : Json → Option Stmt
  | .obj members => do
    Json.only? (unrepeated ["type", "state", "span"] members && Json.keptSound ["state", "span"] members)
    let state ← orElse state? .notStarted (member? members "state")
    let span ← orElse Span.ofJson? {} (member? members "span")
    let form ← (← member? members "type").formName? forms
    let child? (name : String) : Option Stmt :=
      match _h : member? members name with
      | some j => ofNode? Worded.ofKept? j
      | none => none
    let block? (name : String) : Option (List Stmt) :=
      match _h : member? members name with
      | some (.arr items) => ofItems? items
      | _ => none
    let arm? (name : String) : Option (Option Stmt) :=
      match _h : member? members name with
      | none | some .null => some none
      | some j => (ofNode? Worded.ofKept? j).map some
    ofForm? child? block? arm? members { span, state } form
  | _ => none
termination_by j => sizeOf j
decreasing_by
  · exact Json.sizeOf_member ‹_›
  · have := Json.sizeOf_member ‹member? members name = some (.arr items)›
    simp only [Json.arr.sizeOf_spec] at this
    omega
  · exact Json.sizeOf_member ‹_›

def ofItems? : List Json → Option (List Stmt)
  | [] => some []
  | j :: rest => do return (← ofNode? Worded.ofKept? j) :: (← ofItems? rest)
termination_by items => sizeOf items

end

def ofJson? (j : Json) : Option Stmt := ofNode? Worded.ofJson? j

def ofKept? (j : Json) : Option Stmt := ofNode? Worded.ofKept? j

end Stmt

end Errand
