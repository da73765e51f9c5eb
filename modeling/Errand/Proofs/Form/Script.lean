/-
Scripts are read back from what is written for them.

A node is written as its `members`: the type, the fields of its form, and what its mark or span says. Reading a node is
opened once for expressions and once for statements (`ofJson?_obj`, `ofNode?_obj`). What is written for a node is read
by the case for its form, from its own fields (`ofJson?_toJson`, `ofNode?_toJson`); what any node is read as takes its
parts from the members of that node (`Expr.read`, `Stmt.read`), in whatever order and with whatever else they stand
there. For statements both directions go through `FoundIn`, which says where the parts of a statement stand. Both go up
the tree by induction on the children.
-/
import Errand.Form.Script
import Errand.Proofs.Form.Codec
import Errand.Proofs.Script.Shape

namespace Errand

open Json (Plain fields? orElse member? unrepeated depth_obj_le)

theorem Json.keptSound_of_plain {members : List (String × Json)} (h : ∀ m ∈ members, m.2.Plain)
    (direct : List String) : Json.keptSound direct members = true :=
  List.all_eq_true.2 fun m hm => Bool.or_eq_true_iff.2 (.inr (h m hm).isSound)

namespace Expr

/-! ## Expressions -/

/-- the members that the form of an expression has -/
def fields : Expr → List (String × Json)
  | .boolean _ b => [("v", .bool b)]
  | .cube _ c => [("x", .int c.x.toInt), ("y", .int c.y.toInt), ("z", .int c.z.toInt)]
  | .junction _ _ l r => [("left", l.toJson), ("right", r.toJson)]
  | .not _ i => [("inner", i.toJson)]
  | .unitTest _ _ u | .positionOf _ u => [("unit", u.toJson)]
  | .cubeTest _ _ p | .nextTo _ p => [("pos", p.toJson)]
  | .unit .. | .place .. => []
  | .var _ n => [("name", .str n)]

def members (e : Expr) : List (String × Json) :=
  (("type", .str e.form) :: e.fields) ++ memberUnless Span.toJson {} e.span "span"

theorem toJson_eq (e : Expr) : e.toJson = .obj e.members := by
  cases e <;> rfl

theorem form_mem (e : Expr) : e.form ∈ forms := by
  unfold form
  split <;> decide

def operand? (members : List (String × Json)) (name : String) : Option Expr := do
  Json.only? (unrepeated [name] members)
  ofJson? (← member? members name)

theorem ofJson?_obj (members : List (String × Json)) :
    ofJson? (.obj members) = (do
      Json.only? (unrepeated ["type", "span"] members && Json.keptSound ["span"] members)
      let span ← orElse Span.ofJson? {} (member? members "span")
      let form ← (← member? members "type").formName? forms
      ofForm? (operand? members) members span form) := by
  rw [ofJson?]
  refine bind_congr fun _ => bind_congr fun span => bind_congr fun type => bind_congr fun form => ?_
  dsimp only
  congr 1
  unfold operand?
  funext name
  refine bind_congr fun _ => ?_
  split <;> simp [*]

/-! ### Writing -/

theorem keys_fields (e : Expr) : (("type" :: e.fields.map (·.1)) ++ ["span"]).Nodup := by
  cases e <;> simp [fields]

theorem nodup_members (e : Expr) : (e.members.map (·.1)).Nodup := by
  refine List.Sublist.nodup ?_ e.keys_fields
  rw [members, List.map_append, List.map_cons]
  exact (List.Sublist.refl _).append keys_memberUnless

/-- no name is repeated in what is written -/
theorem only?_members (e : Expr) (names : List String) : Json.only? (unrepeated names e.members) = some () :=
  only?_unrepeated e.nodup_members names

theorem plain_fields {e : Expr} (h : ∀ c ∈ e.children, c.toJson.Plain) : ∀ m ∈ e.fields, m.2.Plain := by
  cases e with
  | boolean s b => simpa [fields] using Plain.bool b
  | cube s c =>
    have hx := int64Codec.plain c.x trivial
    have hy := int64Codec.plain c.y trivial
    have hz := int64Codec.plain c.z trivial
    simp [fields, hx, hy, hz]
  | var s n => simpa [fields] using Plain.str n
  | unit | place => simp [fields]
  | junction | not | unitTest | cubeTest | positionOf | nextTo => simpa [fields, children] using h

theorem plain_members (e : Expr) : ∀ m ∈ e.members, m.2.Plain := by
  induction e using children_induct with
  | h e ih =>
    have hfields : ∀ m ∈ e.fields, m.2.Plain := plain_fields fun c hc => by
      rw [toJson_eq]
      exact .obj (ih c hc)
    have hspan := Span.codec.plain_memberUnless (a := e.span) trivial {} "span"
    simp only [members, List.forall_mem_append, List.forall_mem_cons]
    exact ⟨⟨.str _, hfields⟩, hspan⟩

theorem plain_toJson (e : Expr) : e.toJson.Plain := by
  rw [toJson_eq]
  exact .obj e.plain_members

theorem ofJson?_members (e : Expr) :
    ofJson? (.obj e.members) = ofForm? (operand? e.members) e.members e.span e.form := by
  have hunrepeated := unrepeated_of_nodup e.nodup_members ["type", "span"]
  have hsound := Json.keptSound_of_plain e.plain_members ["span"]
  have hspan : orElse Span.ofJson? {} (member? e.members "span") = some e.span := by
    refine Span.codec.orElse_memberUnless_last trivial _ fun h => ?_
    exact (List.nodup_append.1 e.keys_fields).2.2 _ h _ (by simp) rfl
  have htype : member? e.members "type" = some (.str e.form) := List.lookup_cons_self
  have hform : (Json.str e.form).formName? forms = some e.form := by simp [Json.formName?, form_mem]
  simp only [ofJson?_obj, hunrepeated, hsound, hspan, htype, hform, Json.only?, Option.bind_eq_bind, Option.bind_some,
    Bool.and_self, if_true]

theorem member?_fields {e : Expr} {name : String} {j : Json} (h : (name, j) ∈ e.fields) :
    member? e.members name = some j :=
  member?_of_mem e.nodup_members (List.mem_append_left _ (List.mem_cons_of_mem _ h))

theorem operand?_fields {e : Expr} {name : String} {j : Json} (h : (name, j) ∈ e.fields) :
    operand? e.members name = ofJson? j := by
  rw [operand?, only?_members, member?_fields h]
  rfl

/-- **An expression is read back** from what is written for it -/
theorem ofJson?_toJson (e : Expr) : ofJson? e.toJson = some e := by
  induction e using children_induct with
  | h e ih =>
    have hop : ∀ name, ∀ c ∈ e.children, (name, c.toJson) ∈ e.fields → operand? e.members name = some c :=
      fun name c hc hm => (operand?_fields hm).trans (ih c hc)
    rw [toJson_eq, ofJson?_members]
    cases e with
    | boolean s b =>
      have hv : member? (boolean s b).members "v" = some (.bool b) := member?_fields (by simp [fields])
      simp [form, ofForm?, only?_members, hv, Json.bool?, span]
    | cube s c =>
      have hx : member? (cube s c).members "x" = some (.int c.x.toInt) := member?_fields (by simp [fields])
      have hy : member? (cube s c).members "y" = some (.int c.y.toInt) := member?_fields (by simp [fields])
      have hz : member? (cube s c).members "z" = some (.int c.z.toInt) := member?_fields (by simp [fields])
      simp [form, ofForm?, only?_members, hx, hy, hz, int64Codec.reads, span]
    | junction s op l r =>
      have hl := hop "left" l (by simp [children]) (by simp [fields])
      have hr := hop "right" r (by simp [children]) (by simp [fields])
      cases op <;> simp [form, ofForm?, hl, hr, span]
    | not s i =>
      have hi := hop "inner" i (by simp [children]) (by simp [fields])
      simp [form, ofForm?, hi, span]
    | unitTest s t u =>
      have hu := hop "unit" u (by simp [children]) (by simp [fields])
      cases t <;> simp [form, ofForm?, hu, span]
    | cubeTest s t p =>
      have hp := hop "pos" p (by simp [children]) (by simp [fields])
      cases t <;> simp [form, ofForm?, hp, span]
    | unit s u => cases u <;> rfl
    | place s p => cases p <;> rfl
    | positionOf s u =>
      have hu := hop "unit" u (by simp [children]) (by simp [fields])
      simp [form, ofForm?, hu, span]
    | nextTo s p =>
      have hp := hop "pos" p (by simp [children]) (by simp [fields])
      simp [form, ofForm?, hp, span]
    | var s n =>
      have hn : member? (var s n).members "name" = some (.str n) := member?_fields (by simp [fields])
      simp [form, ofForm?, only?_members, hn, Json.str?, span]

/-! ### Reading -/

theorem children_of_ofForm? {operand? : String → Option Expr} {members : List (String × Json)} {s : Span}
    {form : String} {e : Expr} (h : ofForm? operand? members s form = some e) :
    e.span = s ∧ ∀ c ∈ e.children, ∃ name, operand? name = some c := by
  unfold ofForm? at h
  split at h
  all_goals
    simp only [Option.bind_eq_bind, Option.bind_eq_some_iff, Option.pure_def, Option.some.injEq, reduceCtorEq] at h
  -- no operand, one, two, and the literals
  all_goals first
    | obtain rfl := h
      exact ⟨rfl, by simp [children]⟩
    | obtain ⟨c, hc, rfl⟩ := h
      exact ⟨rfl, by simpa [children] using ⟨_, hc⟩⟩
    | obtain ⟨l, hl, r, hr, rfl⟩ := h
      exact ⟨rfl, by simpa [children] using ⟨⟨_, hl⟩, ⟨_, hr⟩⟩⟩
    | obtain ⟨_, -, _, -, _, -, rfl⟩ := h
      exact ⟨rfl, by simp [children]⟩
    | obtain ⟨_, -, _, -, _, -, _, -, _, -, _, -, _, -, rfl⟩ := h
      exact ⟨rfl, by simp [children]⟩

/-- what was read as an expression: an object whose members hold its span and its operands -/
theorem read {j : Json} {e : Expr} (h : ofJson? j = some e) :
    ∃ members, j = .obj members ∧ orElse Span.ofJson? {} (member? members "span") = some e.span ∧
      ∀ c ∈ e.children, ∃ m ∈ members, ofJson? m.2 = some c := by
  cases j with
  | obj members =>
    rw [ofJson?_obj] at h
    simp only [Option.bind_eq_bind] at h
    obtain ⟨_, -, h⟩ := Option.bind_eq_some_iff.1 h
    obtain ⟨s, hs, h⟩ := Option.bind_eq_some_iff.1 h
    obtain ⟨type, -, h⟩ := Option.bind_eq_some_iff.1 h
    obtain ⟨form, -, h⟩ := Option.bind_eq_some_iff.1 h
    obtain ⟨rfl, hchildren⟩ := children_of_ofForm? h
    refine ⟨members, rfl, hs, fun c hc => ?_⟩
    obtain ⟨name, hname⟩ := hchildren c hc
    obtain ⟨_, -, hname⟩ := Option.bind_eq_some_iff.1 hname
    obtain ⟨j, hj, hc⟩ := Option.bind_eq_some_iff.1 hname
    exact ⟨(name, j), Json.lookup_mem hj, hc⟩
  | _ => simp [ofJson?] at h

theorem depth_fields {e : Expr} {n : Nat} (h : ∀ c ∈ e.children, c.toJson.depth ≤ n) :
    ∀ m ∈ e.fields, m.2.depth ≤ n := by
  cases e with
  | boolean | cube | var | unit | place => simp [fields, Json.depth]
  | junction | not | unitTest | cubeTest | positionOf | nextTo => simpa [fields, children] using h

/-- **What is read as an expression is written no deeper** -/
theorem depth_toJson (e : Expr) : ∀ j, ofJson? j = some e → e.toJson.depth ≤ j.depth := by
  induction e using children_induct with
  | h e ih =>
    intro j h
    obtain ⟨members, rfl, hspan, hchildren⟩ := read h
    have hmembers := Json.depthMembers_le.1 (le_refl (Json.depthMembers members))
    have hfields : ∀ m ∈ e.fields, m.2.depth ≤ Json.depthMembers members := by
      refine depth_fields fun c hc => ?_
      obtain ⟨m, hm, hread⟩ := hchildren c hc
      exact (ih c hc m.2 hread).trans (hmembers m hm)
    have hspans := Span.codec.depth_memberUnless hspan "span" fun j hj => depth_of_member? hj
    rw [toJson_eq]
    refine depth_obj_le.2 ?_
    simp only [Expr.members, List.forall_mem_append, List.forall_mem_cons]
    exact ⟨⟨Nat.zero_le _, hfields⟩, hspans⟩

theorem codec : Codec (fun _ => True) toJson ofJson? where
  plain e _ := e.plain_toJson
  reads e _ := e.ofJson?_toJson
  fits _ _ _ := trivial
  depth_le j e h := e.depth_toJson j h

end Expr

namespace Stmt

/-! ## Statements -/

/-- the form of a statement as its type names it -/
def form : Stmt → String
  | .sequence .. => "sequence"
  | .conditional .. => "if"
  | .loop .. => "while"
  | .assign .. => "assign"
  | .print .. => "print"
  | .action .. => "action"
  | .leave _ => "break"

def fields : Stmt → List (String × Json)
  | .sequence _ b i => ("body", .arr (b.map toJson)) :: memberUnless (fun n : Nat => .int n) 0 i "idx"
  | .conditional _ t a e c =>
    [("test", t.toJson), ("then_s", a.toJson), ("else_s", .ofOption toJson e)]
      ++ memberUnless (Json.ofOption Worded.toJson) none c "branch"
  | .loop _ t b => [("test", t.toJson), ("body", b.toJson)]
  | .assign _ n v => [("name", .str n), ("expr", v.toJson)]
  | .print _ v => [("expr", v.toJson)]
  | .action _ k t => [("action", Worded.toJson k), ("target", t.toJson)]
  | .leave _ => []

theorem branchCodec : Codec (fun c? : Option Branch => ∀ c ∈ c?, True) (Json.ofOption Worded.toJson)
    (Json.option? Worded.ofKept?) :=
  (keptCodec Branch.ofWord?_word).option fun _ => Json.noConfusion

def members (s : Stmt) : List (String × Json) :=
  (("type", .str s.form) :: s.fields)
    ++ (memberUnless Worded.toJson .notStarted s.state "state" ++ memberUnless Span.toJson {} s.span "span")

theorem toItems_eq (b : List Stmt) : toItems b = b.map toJson := by
  induction b with
  | nil => rw [toItems, List.map_nil]
  | cons s b ih => rw [toItems, List.map_cons, ih]

theorem elseToJson_eq (e : Option Stmt) : elseToJson e = .ofOption toJson e := by
  cases e <;> rw [elseToJson, Json.ofOption]

theorem toJson_eq (s : Stmt) : s.toJson = .obj s.members := by
  cases s with
  | sequence m b i =>
    rw [toJson, toItems_eq]
    rfl
  | conditional m t a e c =>
    rw [toJson, elseToJson_eq]
    cases c <;> rfl
  | _ =>
    rw [toJson]
    rfl

theorem form_mem (s : Stmt) : s.form ∈ forms := by
  unfold form
  split <;> decide

theorem toJson_ne_null (s : Stmt) : s.toJson ≠ .null := by
  rw [toJson_eq]
  exact Json.noConfusion

/-- the statement of a name among the members of a node -/
def child? (members : List (String × Json)) (name : String) : Option Stmt := (member? members name).bind ofKept?

def block? (members : List (String × Json)) (name : String) : Option (List Stmt) :=
  (member? members name).bind (Json.list? ofKept?)

def arm? (members : List (String × Json)) (name : String) : Option (Option Stmt) :=
  orElse (Json.option? ofKept?) none (member? members name)

def expr? (members : List (String × Json)) (name : String) : Option Expr := (member? members name).bind Expr.ofJson?

/-- what a statement has besides its mark is found among these members -/
def FoundIn (members : List (String × Json)) : Stmt → Prop
  | .sequence _ b i => block? members "body" = some b ∧ orElse Json.word? 0 (member? members "idx") = some i
  | .conditional _ t a e c =>
    expr? members "test" = some t ∧ child? members "then_s" = some a ∧ arm? members "else_s" = some e ∧
      orElse (Json.option? Worded.ofKept?) none (member? members "branch") = some c
  | .loop _ t b => expr? members "test" = some t ∧ child? members "body" = some b
  | .assign _ n v => (member? members "name").bind Json.str? = some n ∧ expr? members "expr" = some v
  | .print _ v => expr? members "expr" = some v
  | .action _ k t => (member? members "action").bind Worded.ofKept? = some k ∧ expr? members "target" = some t
  | .leave _ => True

theorem ofItems?_eq (items : List Json) : ofItems? items = items.mapM ofKept? := by
  induction items with
  | nil => rw [ofItems?, List.mapM_nil, Option.pure_def]
  | cons j items ih => rw [ofItems?, List.mapM_cons, ih]; rfl

theorem ofNode?_obj (state? : Json → Option ExecState) (members : List (String × Json)) :
    ofNode? state? (.obj members) = (do
      Json.only? (unrepeated ["type", "state", "span"] members && Json.keptSound ["state", "span"] members)
      let state ← orElse state? .notStarted (member? members "state")
      let span ← orElse Span.ofJson? {} (member? members "span")
      let form ← (← member? members "type").formName? forms
      ofForm? (child? members) (block? members) (arm? members) members { span, state } form) := by
  rw [ofNode?]
  refine bind_congr fun _ => bind_congr fun state => bind_congr fun span => bind_congr fun type =>
    bind_congr fun form => ?_
  dsimp only
  congr 1
  · unfold child?
    funext name
    split <;> simp [*, ofKept?]
  · unfold block?
    funext name
    split
    · simp [*, Json.list?, ofItems?_eq]
    · cases hm : member? members name with
      | none => rfl
      | some j => cases j <;> simp_all [Json.list?]
  · unfold arm?
    funext name
    split
    · simp [*, orElse]
    · simp [*, orElse, Json.option?]
    · rename_i j hne hm
      rw [hm, orElse, Codec.option?_of_ne_null hne, ofKept?]

/-! ### Indices -/

/-- the active child of each sequence in the tree is numbered by a word of 64 bits, the only numbers that are read -/
def WordIndexed (s : Stmt) : Prop := ∀ path m b i, s.at? path = some (.sequence m b i) → i < UInt64.size

theorem WordIndexed.child {s c : Stmt} (h : s.WordIndexed) (hc : c ∈ s.children) : c.WordIndexed := by
  intro path m b i hat
  obtain ⟨k, hk⟩ := List.mem_iff_getElem?.1 hc
  exact h (k :: path) m b i (at?_cons.2 ⟨c, hk, hat⟩)

theorem WordIndexed.idx {m : Mark} {b : List Stmt} {i : Nat} (h : WordIndexed (.sequence m b i)) : i < UInt64.size :=
  h [] m b i rfl

theorem wordIndexed_of {s : Stmt} (hi : ∀ m b i, s = .sequence m b i → i < UInt64.size)
    (h : ∀ c ∈ s.children, c.WordIndexed) : s.WordIndexed := by
  intro path m b i hat
  cases path with
  | nil => exact hi m b i (Option.some.inj hat)
  | cons k path =>
    obtain ⟨c, hk, hat⟩ := at?_cons.1 hat
    exact h c (List.mem_of_getElem? hk) path m b i hat

/-! ### Writing -/

theorem keys_fields (s : Stmt) :
    ∃ keys, (s.fields.map (·.1)).Sublist keys ∧ (("type" :: keys) ++ ["state", "span"]).Nodup := by
  cases s with
  | sequence m b i => exact ⟨["body", "idx"], keys_memberUnless.cons_cons _, by decide⟩
  | conditional m t a e c =>
    refine ⟨["test", "then_s", "else_s", "branch"], ?_, by decide⟩
    rw [fields, List.map_append]
    exact (List.Sublist.refl ["test", "then_s", "else_s"]).append keys_memberUnless
  | _ => exact ⟨_, .refl _, by simp [fields]⟩

theorem keys_mark (m : Mark) :
    ((memberUnless Worded.toJson .notStarted m.state "state" ++ memberUnless Span.toJson {} m.span "span").map
      (·.1)).Sublist ["state", "span"] := by
  rw [List.map_append]
  exact keys_memberUnless.append keys_memberUnless

theorem nodup_members (s : Stmt) : (s.members.map (·.1)).Nodup := by
  obtain ⟨keys, hkeys, hnodup⟩ := s.keys_fields
  refine List.Sublist.nodup ?_ hnodup
  rw [members, List.map_append, List.map_cons]
  exact (hkeys.cons_cons _).append (keys_mark s.mark)

theorem plain_fields {s : Stmt} (hw : s.WordIndexed) (h : ∀ c ∈ s.children, c.toJson.Plain) :
    ∀ m ∈ s.fields, m.2.Plain := by
  cases s with
  | sequence m b i =>
    exact List.forall_mem_cons.2 ⟨Codec.plain_list h, wordCodec.plain_memberUnless hw.idx _ _⟩
  | conditional m t a e c =>
    simp only [fields, List.forall_mem_append, List.forall_mem_cons]
    exact ⟨⟨t.plain_toJson, h a (by simp [children]), Codec.plain_option fun s hs => h s (by simp_all [children]),
      List.forall_mem_nil _⟩, branchCodec.plain_memberUnless (fun _ _ => trivial) _ _⟩
  | loop m t b => simpa [fields, t.plain_toJson] using h b (by simp [children])
  | assign m n v => simpa [fields, v.plain_toJson] using Plain.str n
  | print m v => simp [fields, v.plain_toJson]
  | action m k t =>
    have hk : (Worded.toJson k).Plain := .str _
    simp [fields, hk, t.plain_toJson]
  | leave m => simp [fields]

theorem plain_members {s : Stmt} (hw : s.WordIndexed) : ∀ m ∈ s.members, m.2.Plain := by
  induction s using children_induct with
  | h s ih =>
    have hfields : ∀ m ∈ s.fields, m.2.Plain := plain_fields hw fun c hc => by
      rw [toJson_eq]
      exact .obj (ih c hc (hw.child hc))
    have hstate := (keptCodec ExecState.ofWord?_word).plain_memberUnless (a := s.state) trivial .notStarted "state"
    have hspan := Span.codec.plain_memberUnless (a := s.span) trivial {} "span"
    simp only [members, List.forall_mem_append, List.forall_mem_cons]
    exact ⟨⟨.str _, hfields⟩, hstate, hspan⟩

theorem plain_toJson {s : Stmt} (hw : s.WordIndexed) : s.toJson.Plain := by
  rw [toJson_eq]
  exact .obj (plain_members hw)

section

variable {state? : Json → Option ExecState} (hstate : Codec (fun _ => True) Worded.toJson state?)

include hstate

/-- what is written for a statement is read by the case for its form -/
theorem ofNode?_members {s : Stmt} (hw : s.WordIndexed) :
    ofNode? state? (.obj s.members) =
      ofForm? (child? s.members) (block? s.members) (arm? s.members) s.members s.mark s.form := by
  have hunrepeated := unrepeated_of_nodup s.nodup_members ["type", "state", "span"]
  have hsound := Json.keptSound_of_plain (plain_members hw) ["state", "span"]
  obtain ⟨keys, hkeys, hnodup⟩ := s.keys_fields
  have hfront : ∀ name ∈ ["state", "span"], name ∉ (("type", Json.str s.form) :: s.fields).map (·.1) :=
    fun name hname h => (List.nodup_append.1 hnodup).2.2 name ((hkeys.cons_cons "type").subset h) name hname rfl
  have hstates : orElse state? .notStarted (member? s.members "state") = some s.mark.state := by
    refine hstate.orElse_memberUnless trivial _ (hfront _ (by simp)) fun h => ?_
    exact absurd (keys_memberUnless.subset h) (by simp)
  have hspan : orElse Span.ofJson? {} (member? s.members "span") = some s.mark.span := by
    rw [members, ← List.append_assoc]
    refine Span.codec.orElse_memberUnless_last trivial _ fun h => ?_
    rw [List.map_append, List.mem_append] at h
    rcases h with h | h
    · exact hfront "span" (by simp) h
    · exact absurd (keys_memberUnless.subset h) (by simp)
  have htype : member? s.members "type" = some (.str s.form) := List.lookup_cons_self
  have hform : (Json.str s.form).formName? forms = some s.form := by
    simp [Json.formName?, form_mem]
  simp only [ofNode?_obj, hunrepeated, hsound, hstates, hspan, htype, hform, Json.only?, Option.bind_eq_bind,
    Option.bind_some, Bool.and_self, if_true]

end

theorem member?_fields {s : Stmt} {name : String} {j : Json} (h : (name, j) ∈ s.fields) :
    member? s.members name = some j :=
  member?_of_mem s.nodup_members (List.mem_append_left _ (List.mem_cons_of_mem _ h))

theorem foundIn_members {s : Stmt} (hw : s.WordIndexed) (h : ∀ c ∈ s.children, ofKept? c.toJson = some c) :
    s.FoundIn s.members := by
  cases s with
  | sequence m b i =>
    constructor
    · rw [block?, member?_fields (j := .arr (b.map toJson)) (by simp [fields])]
      exact Codec.mapM_write h
    · exact wordCodec.orElse_memberUnless hw.idx [("type", .str "sequence"), ("body", .arr (b.map toJson))] (by simp)
        fun hm => absurd ((keys_mark m).subset hm) (by simp)
  | conditional m t a e c =>
    refine ⟨?_, ?_, ?_, ?_⟩
    · rw [expr?, member?_fields (j := t.toJson) (by simp [fields])]
      exact t.ofJson?_toJson
    · rw [child?, member?_fields (j := a.toJson) (by simp [fields])]
      exact h a (by simp [children])
    · rw [arm?, member?_fields (j := .ofOption toJson e) (by simp [fields])]
      exact Codec.option?_write toJson_ne_null fun s hs => h s (by simp_all [children])
    · exact branchCodec.orElse_memberUnless (fun _ _ => trivial) [("type", .str "if"), ("test", t.toJson),
        ("then_s", a.toJson), ("else_s", .ofOption toJson e)] (by simp)
        fun hm => absurd ((keys_mark m).subset hm) (by simp)
  | loop m t b =>
    constructor
    · rw [expr?, member?_fields (j := t.toJson) (by simp [fields])]
      exact t.ofJson?_toJson
    · rw [child?, member?_fields (j := b.toJson) (by simp [fields])]
      exact h b (by simp [children])
  | assign m n v =>
    constructor
    · rw [member?_fields (j := .str n) (by simp [fields])]
      rfl
    · rw [expr?, member?_fields (j := v.toJson) (by simp [fields])]
      exact v.ofJson?_toJson
  | print m v =>
    rw [FoundIn, expr?, member?_fields (j := v.toJson) (by simp [fields])]
    exact v.ofJson?_toJson
  | action m k t =>
    constructor
    · rw [member?_fields (j := Worded.toJson k) (by simp [fields])]
      exact (keptCodec ActionKind.ofWord?_word).reads k trivial
    · rw [expr?, member?_fields (j := t.toJson) (by simp [fields])]
      exact t.ofJson?_toJson
  | leave m => trivial

theorem ofForm?_of_foundIn {members : List (String × Json)} (hn : (members.map (·.1)).Nodup) {s : Stmt}
    (h : s.FoundIn members) :
    ofForm? (child? members) (block? members) (arm? members) members s.mark s.form = some s := by
  cases s with
  | sequence m b i =>
    obtain ⟨hb, hi⟩ := h
    simp [form, ofForm?, only?_unrepeated hn, hb, hi, mark]
  | conditional m t a e c =>
    obtain ⟨ht, ha, he, hc⟩ := h
    obtain ⟨j, hj, ht⟩ := Option.bind_eq_some_iff.1 ht
    simp [form, ofForm?, only?_unrepeated hn, hj, ht, ha, he, hc, mark]
  | loop m t b =>
    obtain ⟨ht, hb⟩ := h
    obtain ⟨j, hj, ht⟩ := Option.bind_eq_some_iff.1 ht
    simp [form, ofForm?, only?_unrepeated hn, hj, ht, hb, mark]
  | assign m n v =>
    obtain ⟨hname, hv⟩ := h
    obtain ⟨i, hi, hname⟩ := Option.bind_eq_some_iff.1 hname
    obtain ⟨j, hj, hv⟩ := Option.bind_eq_some_iff.1 hv
    simp [form, ofForm?, only?_unrepeated hn, hi, hname, hj, hv, mark]
  | print m v =>
    obtain ⟨j, hj, hv⟩ := Option.bind_eq_some_iff.1 h
    simp [form, ofForm?, only?_unrepeated hn, hj, hv, mark]
  | action m k t =>
    obtain ⟨hk, ht⟩ := h
    obtain ⟨i, hi, hk⟩ := Option.bind_eq_some_iff.1 hk
    obtain ⟨j, hj, ht⟩ := Option.bind_eq_some_iff.1 ht
    simp [form, ofForm?, only?_unrepeated hn, hi, hk, hj, ht, mark]
  | leave m => rfl

/-- **A statement is read back** from what is written for it, with any reader for the state of its root -/
theorem ofNode?_toJson {s : Stmt} (hw : s.WordIndexed) :
    ∀ {state?}, Codec (fun _ => True) Worded.toJson state? → ofNode? state? s.toJson = some s := by
  induction s using children_induct with
  | h s ih =>
    intro state? hstate
    have hkept : ∀ c ∈ s.children, ofKept? c.toJson = some c :=
      fun c hc => ih c hc (hw.child hc) (keptCodec ExecState.ofWord?_word)
    rw [toJson_eq, ofNode?_members hstate hw]
    exact ofForm?_of_foundIn s.nodup_members (foundIn_members hw hkept)

/-! ### Reading -/

theorem foundIn_of_ofForm? {members : List (String × Json)} {m : Mark} {form : String} {s : Stmt}
    (h : ofForm? (child? members) (block? members) (arm? members) members m form = some s) :
    s.mark = m ∧ s.FoundIn members := by
  have hfound : ∀ {α : Type} {read? : Json → Option α} {name j a}, member? members name = some j →
      read? j = some a → (member? members name).bind read? = some a :=
    fun hj ha => Option.bind_eq_some_iff.2 ⟨_, hj, ha⟩
  unfold ofForm? at h
  split at h
  all_goals
    simp only [Option.bind_eq_bind, Option.bind_eq_some_iff, Option.pure_def, Option.some.injEq, reduceCtorEq] at h
  · obtain ⟨_, -, b, hb, i, hi, rfl⟩ := h
    exact ⟨rfl, hb, hi⟩
  · obtain ⟨_, -, j, hj, t, ht, a, ha, e, he, c, hc, rfl⟩ := h
    exact ⟨rfl, hfound hj ht, ha, he, hc⟩
  · obtain ⟨_, -, j, hj, t, ht, b, hb, rfl⟩ := h
    exact ⟨rfl, hfound hj ht, hb⟩
  · obtain ⟨_, -, i, hi, n, hn, j, hj, v, hv, rfl⟩ := h
    exact ⟨rfl, hfound hi hn, hfound hj hv⟩
  · obtain ⟨_, -, j, hj, v, hv, rfl⟩ := h
    exact ⟨rfl, hfound hj hv⟩
  · obtain ⟨_, -, i, hi, k, hk, j, hj, t, ht, rfl⟩ := h
    exact ⟨rfl, hfound hi hk, hfound hj ht⟩
  · obtain rfl := h
    exact ⟨rfl, trivial⟩

/-- what was read as a statement: an object whose members hold its state, its span and its parts -/
theorem read {state? : Json → Option ExecState} {j : Json} {s : Stmt} (h : ofNode? state? j = some s) :
    ∃ members, j = .obj members ∧ orElse state? .notStarted (member? members "state") = some s.state ∧
      orElse Span.ofJson? {} (member? members "span") = some s.span ∧ s.FoundIn members := by
  cases j with
  | obj members =>
    rw [ofNode?_obj] at h
    simp only [Option.bind_eq_bind] at h
    obtain ⟨_, -, h⟩ := Option.bind_eq_some_iff.1 h
    obtain ⟨x, hx, h⟩ := Option.bind_eq_some_iff.1 h
    obtain ⟨sp, hsp, h⟩ := Option.bind_eq_some_iff.1 h
    obtain ⟨type, -, h⟩ := Option.bind_eq_some_iff.1 h
    obtain ⟨form, -, h⟩ := Option.bind_eq_some_iff.1 h
    obtain ⟨hmark, hfound⟩ := foundIn_of_ofForm? h
    refine ⟨members, rfl, ?_, ?_, hfound⟩
    · rw [state, hmark, hx]
    · rw [span, hmark, hsp]
  | _ => simp [ofNode?] at h

/-- there is no second arm, or it was read from the member of its name -/
theorem of_arm? {members : List (String × Json)} {name : String} {e : Option Stmt} (h : arm? members name = some e) :
    e = none ∨ ∃ j s, member? members name = some j ∧ ofKept? j = some s ∧ e = some s := by
  unfold arm? at h
  cases hj : member? members name with
  | none =>
    rw [hj] at h
    exact .inl (Option.some.inj h).symm
  | some j =>
    rw [hj] at h
    obtain rfl | ⟨s, rfl, hs⟩ := Codec.of_option? h
    · exact .inl rfl
    · exact .inr ⟨j, s, rfl, hs, rfl⟩

theorem FoundIn.exists_read {members : List (String × Json)} {s : Stmt} (h : s.FoundIn members) :
    ∀ c ∈ s.children, ∃ j, ofKept? j = some c := by
  have hchild : ∀ {name c}, child? members name = some c → ∃ j, ofKept? j = some c := by
    intro name c hc
    obtain ⟨j, -, hc⟩ := Option.bind_eq_some_iff.1 hc
    exact ⟨j, hc⟩
  cases s with
  | sequence m b i =>
    obtain ⟨j, -, hb⟩ := Option.bind_eq_some_iff.1 h.1
    obtain ⟨items, -, hitems⟩ := Codec.exists_of_list? hb
    intro c hc
    obtain ⟨i, -, hi⟩ := hitems c hc
    exact ⟨i, hi⟩
  | conditional m t a e c =>
    obtain ⟨-, ha, he, -⟩ := h
    refine List.forall_mem_cons.2 ⟨hchild ha, fun d hd => ?_⟩
    obtain rfl | ⟨j, s, -, hs, rfl⟩ := of_arm? he
    · cases hd
    · obtain rfl := List.mem_singleton.1 hd
      exact ⟨j, hs⟩
  | loop m t b => simpa [children] using hchild h.2
  | assign | print | action | leave => simp [children]

theorem FoundIn.depth_fields {members : List (String × Json)} {s : Stmt} (h : s.FoundIn members)
    (hc : ∀ c ∈ s.children, ∀ j, ofKept? j = some c → c.toJson.depth ≤ j.depth) :
    ∀ m ∈ s.fields, m.2.depth ≤ Json.depthMembers members := by
  have hexpr : ∀ {name e}, expr? members name = some e → e.toJson.depth ≤ Json.depthMembers members := by
    intro name e he
    obtain ⟨j, hj, he⟩ := Option.bind_eq_some_iff.1 he
    exact (Expr.codec.depth_le j e he).trans (depth_of_member? hj)
  have hchild : ∀ {name}, ∀ c ∈ s.children, child? members name = some c →
      c.toJson.depth ≤ Json.depthMembers members := by
    intro name c hmem hc'
    obtain ⟨j, hj, hread⟩ := Option.bind_eq_some_iff.1 hc'
    exact (hc c hmem j hread).trans (depth_of_member? hj)
  cases s with
  | sequence m b i =>
    obtain ⟨hb, hi⟩ := h
    obtain ⟨j, hj, hb⟩ := Option.bind_eq_some_iff.1 hb
    exact List.forall_mem_cons.2 ⟨(Codec.depth_list hb hc).trans (depth_of_member? hj),
      wordCodec.depth_memberUnless hi "idx" fun _ hj => depth_of_member? hj⟩
  | conditional m t a e c =>
    obtain ⟨ht, ha, he, hbranch⟩ := h
    simp only [fields, List.forall_mem_append, List.forall_mem_cons]
    refine ⟨⟨hexpr ht, hchild a (by simp [children]) ha, ?_, List.forall_mem_nil _⟩,
      branchCodec.depth_memberUnless hbranch "branch" fun _ hj => depth_of_member? hj⟩
    obtain rfl | ⟨j, s, hj, hs, rfl⟩ := of_arm? he
    · exact Nat.zero_le _
    · exact (hc s (by simp [children]) j hs).trans (depth_of_member? hj)
  | loop m t b =>
    obtain ⟨ht, hb⟩ := h
    simpa [fields] using ⟨hexpr ht, hchild b (by simp [children]) hb⟩
  | assign m n v => simpa [fields, Json.depth] using hexpr h.2
  | print m v => simpa [fields] using hexpr h
  | action m k t => simpa [fields, Json.depth, Worded.toJson] using hexpr h.2
  | leave m => simp [fields]

/-- **What is read as a statement has its indices in words and is written no deeper** -/
theorem wordIndexed_and_depth (s : Stmt) : ∀ {state? j}, Codec (fun _ => True) Worded.toJson state? →
    ofNode? state? j = some s → s.WordIndexed ∧ s.toJson.depth ≤ j.depth := by
  induction s using children_induct with
  | h s ih =>
    intro state? j hstate h
    obtain ⟨members, rfl, hx, hsp, hfound⟩ := read h
    have hkept : ∀ c ∈ s.children, ∀ j, ofKept? j = some c → c.WordIndexed ∧ c.toJson.depth ≤ j.depth :=
      fun c hc j => ih c hc (keptCodec ExecState.ofWord?_word)
    constructor
    · refine wordIndexed_of ?_ fun c hc => ?_
      · rintro m b i rfl
        exact wordCodec.fits_of_orElse (by decide) hfound.2
      · obtain ⟨j, hj⟩ := hfound.exists_read c hc
        exact (hkept c hc j hj).1
    · have hfields := hfound.depth_fields fun c hc j hj => (hkept c hc j hj).2
      have hstates := hstate.depth_memberUnless hx "state" fun j hj => depth_of_member? hj
      have hspans := Span.codec.depth_memberUnless hsp "span" fun j hj => depth_of_member? hj
      rw [toJson_eq]
      refine depth_obj_le.2 ?_
      simp only [Stmt.members, List.forall_mem_append, List.forall_mem_cons]
      exact ⟨⟨Nat.zero_le _, hfields⟩, hstates, hspans⟩

theorem codec_ofNode? {state?} (hstate : Codec (fun _ => True) Worded.toJson state?) :
    Codec WordIndexed toJson (ofNode? state?) where
  plain _ := plain_toJson
  reads _ hw := ofNode?_toJson hw hstate
  fits _ s h := (s.wordIndexed_and_depth hstate h).1
  depth_le _ s h := (s.wordIndexed_and_depth hstate h).2

theorem codec : Codec WordIndexed toJson ofJson? := codec_ofNode? (wordedCodec ExecState.ofWord?_word)

theorem codec_ofKept? : Codec WordIndexed toJson ofKept? := codec_ofNode? (keptCodec ExecState.ofWord?_word)

end Stmt

end Errand
