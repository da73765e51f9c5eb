/-
Trees and scenarios come back from their JSON text.

`Stmt.codec` says that the writer and the reader of trees agree, `Scenario.codec` that those of scenarios do, put
together from the codecs of their records. The two laws for texts are those that every codec has: what is written is
read back, as long as a text may nest that deep, and what has been read from any text is written so that it is read
again (`round_trip`).
-/
import Mathlib
import Errand.Form.Scenario
import Errand.Proofs.Form.Script

namespace Errand

open Json (Plain fields? orElse member? unrepeated depth_obj_le)

theorem Terrain.ofWord?_word (t : Terrain) : Worded.ofWord? (Worded.word t) = some t := by cases t <;> rfl

theorem Item.ofWord?_word (i : Item) : Worded.ofWord? (Worded.word i) = some i := by cases i <;> rfl

/-! ## Layouts -/

theorem Patch.codec : Codec (fun _ => True) Patch.toJson Patch.ofJson? where
  plain p _ := .obj (by simpa using ⟨Cube.codec.plain p.cube trivial, Plain.str _⟩)
  reads p _ := by
    have hfields : fields? ["at", "kind"] p.toJson = some [some p.cube.toJson, some (Worded.toJson p.terrain)] :=
      fields?_obj [("at", p.cube.toJson), ("kind", Worded.toJson p.terrain)] (by simp)
    rw [ofJson?, hfields, Option.bind_eq_bind, Option.bind_some]
    simp only [Cube.codec.reads, (wordedCodec Terrain.ofWord?_word).reads, Option.bind_eq_bind, Option.bind_some,
      Option.pure_def]
  fits _ _ _ := trivial
  depth_le j p h := by
    obtain ⟨fs, hfs, h⟩ := Option.bind_eq_some_iff.1 h
    obtain ⟨n, hn, hdepth⟩ := depth_of_fields? hfs
    split at h
    · rename_i at? kind
      obtain ⟨c, hc, h⟩ := Option.bind_eq_some_iff.1 h
      obtain ⟨t, -, h⟩ := Option.bind_eq_some_iff.1 h
      cases h
      rw [hn, toJson, depth_obj_le]
      simpa [Worded.toJson, Json.depth] using (Cube.codec.depth_le _ c hc).trans (hdepth at? (by simp))
    · cases h

theorem itemCodec : Codec (fun i? : Option Item => ∀ i ∈ i?, True) (Json.ofOption Worded.toJson)
    (Json.option? Worded.ofJson?) :=
  (wordedCodec Item.ofWord?_word).option fun _ => Json.noConfusion

theorem Resident.codec : Codec (fun _ => True) Resident.toJson Resident.ofJson? where
  plain r _ := by
    have hid := UnitId.codec.plain r.id trivial
    have hfaction := FactionId.codec.plain r.faction trivial
    have hposition := Cube.codec.plain r.position trivial
    have hcarrying := itemCodec.plain r.carrying? fun _ _ => trivial
    have halive := Plain.bool r.alive
    exact .obj (by simp [hid, hfaction, hposition, hcarrying, halive])
  reads r _ := by
    have hfields : fields? ["id", "faction", "position", "carrying", "alive"] r.toJson =
        some [some r.id.toJson, some r.faction.toJson, some r.position.toJson,
          some (.ofOption Worded.toJson r.carrying?), some (.bool r.alive)] :=
      fields?_obj [("id", r.id.toJson), ("faction", r.faction.toJson), ("position", r.position.toJson),
        ("carrying", .ofOption Worded.toJson r.carrying?), ("alive", .bool r.alive)] (by simp)
    have hcarrying := itemCodec.reads r.carrying? fun _ _ => trivial
    rw [ofJson?, hfields, Option.bind_eq_bind, Option.bind_some]
    simp only [UnitId.codec.reads, FactionId.codec.reads, Cube.codec.reads, orElse, hcarrying, Json.bool?,
      Option.bind_eq_bind, Option.bind_some, Option.pure_def]
  fits _ _ _ := trivial
  depth_le j r h := by
    obtain ⟨fs, hfs, h⟩ := Option.bind_eq_some_iff.1 h
    obtain ⟨n, hn, hdepth⟩ := depth_of_fields? hfs
    split at h
    · rename_i id faction position carrying alive
      obtain ⟨u, -, h⟩ := Option.bind_eq_some_iff.1 h
      obtain ⟨f, -, h⟩ := Option.bind_eq_some_iff.1 h
      obtain ⟨c, hc, h⟩ := Option.bind_eq_some_iff.1 h
      obtain ⟨i?, hi, h⟩ := Option.bind_eq_some_iff.1 h
      obtain ⟨b, -, h⟩ := Option.bind_eq_some_iff.1 h
      cases h
      have hposition := (Cube.codec.depth_le _ c hc).trans (hdepth position (by simp))
      have hcarrying := itemCodec.depth_of_orElse hi (fun j hj => hdepth j (by simp [Option.mem_def.1 hj]))
        (Nat.zero_le n)
      rw [hn, toJson, depth_obj_le]
      simp [UnitId.toJson, FactionId.toJson, Json.depth, hposition, hcarrying]
    · cases h

theorem Layout.codec : Codec (fun _ => True) Layout.toJson Layout.ofJson? where
  plain l _ := by
    have hsize := Cube.codec.plain l.size trivial
    have hterrain := Patch.codec.list.plain l.terrain fun _ _ => trivial
    have hboulders := Cube.codec.list.plain l.boulders fun _ _ => trivial
    have hlogs := Cube.codec.list.plain l.logs fun _ _ => trivial
    have hunits := Resident.codec.list.plain l.units fun _ _ => trivial
    exact .obj (by simp [hsize, hterrain, hboulders, hlogs, hunits])
  reads l _ := by
    have hfields : fields? ["size", "terrain", "boulders", "logs", "units"] l.toJson =
        some [some l.size.toJson, some (.arr (l.terrain.map Patch.toJson)), some (.arr (l.boulders.map Cube.toJson)),
          some (.arr (l.logs.map Cube.toJson)), some (.arr (l.units.map Resident.toJson))] :=
      fields?_obj [("size", l.size.toJson), ("terrain", .arr (l.terrain.map Patch.toJson)),
        ("boulders", .arr (l.boulders.map Cube.toJson)), ("logs", .arr (l.logs.map Cube.toJson)),
        ("units", .arr (l.units.map Resident.toJson))] (by simp)
    have hterrain := Patch.codec.list.reads l.terrain fun _ _ => trivial
    have hboulders := Cube.codec.list.reads l.boulders fun _ _ => trivial
    have hlogs := Cube.codec.list.reads l.logs fun _ _ => trivial
    have hunits := Resident.codec.list.reads l.units fun _ _ => trivial
    rw [ofJson?, hfields, Option.bind_eq_bind, Option.bind_some]
    simp only [Cube.codec.reads, orElse, hterrain, hboulders, hlogs, hunits, Option.bind_eq_bind, Option.bind_some,
      Option.pure_def]
  fits _ _ _ := trivial
  depth_le j l h := by
    obtain ⟨fs, hfs, h⟩ := Option.bind_eq_some_iff.1 h
    obtain ⟨n, hn, hdepth⟩ := depth_of_fields? hfs
    split at h
    · rename_i size terrain boulders logs units
      obtain ⟨c, hc, h⟩ := Option.bind_eq_some_iff.1 h
      obtain ⟨ts, ht, h⟩ := Option.bind_eq_some_iff.1 h
      obtain ⟨bs, hb, h⟩ := Option.bind_eq_some_iff.1 h
      obtain ⟨ls, hl, h⟩ := Option.bind_eq_some_iff.1 h
      obtain ⟨us, hu, h⟩ := Option.bind_eq_some_iff.1 h
      cases h
      have hfound : ∀ {f? : Option Json}, f? ∈ [some size, terrain, boulders, logs, units] → ∀ f ∈ f?, f.depth ≤ n :=
        fun hmem f hf => hdepth f (Option.mem_def.1 hf ▸ hmem)
      have hsize := (Cube.codec.depth_le _ c hc).trans (hdepth size (by simp))
      -- the size is a record, so there is room for lists that were missing
      have hempty : 1 ≤ n := hsize
      have hterrain := Patch.codec.list.depth_of_orElse ht (hfound (by simp)) hempty
      have hboulders := Cube.codec.list.depth_of_orElse hb (hfound (by simp)) hempty
      have hlogs := Cube.codec.list.depth_of_orElse hl (hfound (by simp)) hempty
      have hunits := Resident.codec.list.depth_of_orElse hu (hfound (by simp)) hempty
      rw [hn, toJson, depth_obj_le]
      simp [hsize, hterrain, hboulders, hlogs, hunits]
    · cases h

/-! ## Orders -/

namespace Order

def members (o : Order) : List (String × Json) :=
  [("faction", o.faction.toJson), ("name", .str o.template.name), ("priority", .int o.template.priority.toInt),
    ("body", o.template.body.toJson), ("selections", .arr (o.selections.map Cube.toJson))]

theorem toJson_eq (o : Order) : o.toJson = .obj o.members := rfl

theorem nodup_members (o : Order) : (o.members.map (·.1)).Nodup := by simp [members]

theorem plain_members {o : Order} (h : o.template.body.WordIndexed) : ∀ m ∈ o.members, m.2.Plain := by
  have hfaction := FactionId.codec.plain o.faction trivial
  have hname := Plain.str o.template.name
  have hpriority := int64Codec.plain o.template.priority trivial
  have hbody := Stmt.plain_toJson h
  have hselections := Cube.codec.list.plain o.selections fun _ _ => trivial
  simp [members, hfaction, hname, hpriority, hbody, hselections]

theorem ofJson?_toJson {o : Order} (h : o.template.body.WordIndexed) : ofJson? o.toJson = some o := by
  have hmember : ∀ {name j}, (name, j) ∈ o.members → member? o.members name = some j :=
    fun hm => member?_of_mem o.nodup_members hm
  have hfaction : member? o.members "faction" = some o.faction.toJson := hmember (by simp [members])
  have hname : member? o.members "name" = some (.str o.template.name) := hmember (by simp [members])
  have hpriority : member? o.members "priority" = some (.int o.template.priority.toInt) := hmember (by simp [members])
  have hbody : member? o.members "body" = some o.template.body.toJson := hmember (by simp [members])
  have hselections : member? o.members "selections" = some (.arr (o.selections.map Cube.toJson)) :=
    hmember (by simp [members])
  have hunrepeated := unrepeated_of_nodup o.nodup_members ["faction", "selections"]
  have hsound := Json.keptSound_of_plain (plain_members h) ["faction", "selections"]
  have htemplate : Template.ofForm? Stmt.ofKept? (.obj o.members) = some o.template := by
    rw [Template.ofForm?, fields?_of_nodup o.nodup_members, Option.bind_eq_bind, Option.bind_some]
    simp only [List.map_cons, List.map_nil, hname, hpriority, hbody, strCodec.reads, int64Codec.reads,
      Stmt.codec_ofKept?.reads _ h, Option.bind_eq_bind, Option.bind_some, Option.pure_def]
  have hselected := Cube.codec.list.reads o.selections fun _ _ => trivial
  have hread := FactionId.codec.reads o.faction trivial
  rw [toJson_eq, ofJson?]
  simp only [hunrepeated, hsound, hfaction, htemplate, hselections, hselected, Json.only?, orElse, Bool.and_self,
    if_true, Option.bind_eq_bind]
  rw [Option.bind_some, Option.bind_some, hread, Option.bind_some, Option.bind_some, Option.bind_some]
  rfl

theorem wordIndexed_and_depth {j : Json} {o : Order} (h : ofJson? j = some o) :
    o.template.body.WordIndexed ∧ o.toJson.depth ≤ j.depth := by
  cases j with
  | obj members =>
    obtain ⟨_, -, h⟩ := Option.bind_eq_some_iff.1 h
    obtain ⟨_, -, h⟩ := Option.bind_eq_some_iff.1 h
    obtain ⟨f, -, h⟩ := Option.bind_eq_some_iff.1 h
    obtain ⟨t, ht, h⟩ := Option.bind_eq_some_iff.1 h
    obtain ⟨cs, hcs, h⟩ := Option.bind_eq_some_iff.1 h
    cases h
    obtain ⟨fs, hfs, ht⟩ := Option.bind_eq_some_iff.1 ht
    obtain ⟨n, hn, hdepth⟩ := depth_of_fields? hfs
    split at ht
    · rename_i name priority body
      obtain ⟨w, -, ht⟩ := Option.bind_eq_some_iff.1 ht
      obtain ⟨p, -, ht⟩ := Option.bind_eq_some_iff.1 ht
      obtain ⟨b, hb, ht⟩ := Option.bind_eq_some_iff.1 ht
      cases ht
      refine ⟨Stmt.codec_ofKept?.fits _ b hb, ?_⟩
      have hbody := (Stmt.codec_ofKept?.depth_le _ b hb).trans (hdepth body (by simp))
      -- the body is a node, so there is room for a list that was missing
      have hempty : 1 ≤ n := by
        rw [Stmt.toJson_eq] at hbody
        exact le_trans (Nat.le_add_left 1 _) hbody
      have hmember : ∀ {name f}, member? members name = some f → f.depth ≤ n :=
        fun hf => depth_obj_le.1 hn.le _ (Json.lookup_mem hf)
      have hselections := Cube.codec.list.depth_of_orElse hcs (fun f hf => hmember hf) hempty
      rw [hn, toJson_eq, depth_obj_le]
      simp only [Order.members, List.forall_mem_cons]
      exact ⟨Nat.zero_le _, Nat.zero_le _, Nat.zero_le _, hbody, hselections, nofun⟩
    · cases ht
  | _ => simp [ofJson?] at h

theorem codec : Codec (fun o => o.template.body.WordIndexed) toJson ofJson? where
  plain o h := by
    rw [toJson_eq]
    exact .obj (plain_members h)
  reads _ := ofJson?_toJson
  fits _ _ h := (wordIndexed_and_depth h).1
  depth_le _ _ h := (wordIndexed_and_depth h).2

end Order

/-! ## Scenarios -/

/-- the active child of each sequence of the scenario's trees is numbered by a word of 64 bits -/
def Scenario.WordIndexed (c : Scenario) : Prop := ∀ o ∈ c.orders, o.template.body.WordIndexed

theorem Scenario.codec : Codec WordIndexed Scenario.toJson Scenario.ofJson? where
  plain c h := by
    have hlayout := Layout.codec.plain c.layout trivial
    have horders := Order.codec.list.plain c.orders h
    exact .obj (by simp [hlayout, horders])
  reads c h := by
    have hfields : fields? ["world", "tasks"] c.toJson =
        some [some c.layout.toJson, some (.arr (c.orders.map Order.toJson))] :=
      fields?_obj [("world", c.layout.toJson), ("tasks", .arr (c.orders.map Order.toJson))] (by simp)
    have horders := Order.codec.list.reads c.orders h
    rw [ofJson?, hfields, Option.bind_eq_bind, Option.bind_some]
    simp only [Layout.codec.reads, orElse, horders, Option.bind_eq_bind, Option.bind_some, Option.pure_def]
  fits j c h := by
    obtain ⟨fs, -, h⟩ := Option.bind_eq_some_iff.1 h
    split at h
    · obtain ⟨l, -, h⟩ := Option.bind_eq_some_iff.1 h
      obtain ⟨os, ho, h⟩ := Option.bind_eq_some_iff.1 h
      cases h
      exact Order.codec.list.fits_of_orElse (fun _ h => absurd h List.not_mem_nil) ho
    · cases h
  depth_le j c h := by
    obtain ⟨fs, hfs, h⟩ := Option.bind_eq_some_iff.1 h
    obtain ⟨n, hn, hdepth⟩ := depth_of_fields? hfs
    split at h
    · rename_i world tasks
      obtain ⟨l, hl, h⟩ := Option.bind_eq_some_iff.1 h
      obtain ⟨os, ho, h⟩ := Option.bind_eq_some_iff.1 h
      cases h
      have hlayout := (Layout.codec.depth_le _ l hl).trans (hdepth world (by simp))
      -- the layout is a record, so there is room for a list that was missing
      have hempty : 1 ≤ n := le_trans (Nat.le_add_left 1 _) hlayout
      have horders := Order.codec.list.depth_of_orElse ho (fun j hj => hdepth j (by simp [Option.mem_def.1 hj])) hempty
      rw [hn, Scenario.toJson, depth_obj_le]
      simp [hlayout, horders]
    · cases h

/-! ## Texts -/

/-- **Trees and scenarios come back from their texts.** Whatever fits in the types and nests no deeper than a text may
    is read back from the text that is written for it; and what any text is read as, in whatever order and form it has
    its fields, is read again from the text that is written for it. -/
theorem round_trip :
    (∀ s : Stmt, s.WordIndexed → s.toJson.depth ≤ Json.maxDepth →
      (Json.parse? s.toJson.text).bind Stmt.ofJson? = some s) ∧
    (∀ text s, (Json.parse? text).bind Stmt.ofJson? = some s →
      (Json.parse? s.toJson.text).bind Stmt.ofJson? = some s) ∧
    (∀ c : Scenario, c.WordIndexed → c.toJson.depth ≤ Json.maxDepth → Scenario.parse? c.toJson.text = some c) ∧
    ∀ text c, Scenario.parse? text = some c → Scenario.parse? c.toJson.text = some c :=
  ⟨fun _ => Stmt.codec.parse?_write, fun _ _ => Stmt.codec.parse?_of_read, fun _ => Scenario.codec.parse?_write,
    fun _ _ => Scenario.codec.parse?_of_read⟩

/-- a sequence with its fields in another order, one that means nothing, and its place as an array -/
def finishedText : String :=
  "\x7b\"idx\":1,\"note\":null,\"type\":\"sequence\",\"state\":\"done\"," ++
    "\"body\":[\x7b\"type\":\"break\"\x7d],\"span\":[3,7]\x7d"

def finished : Stmt := .sequence ⟨⟨3, 7⟩, .done⟩ [.leave {}] 1

/-- a scenario with the tasks first and the world as an array -/
def patrolText : String :=
  "\x7b\"tasks\":[\x7b\"faction\":1,\"name\":\"a\",\"priority\":2,\"body\":\x7b\"type\":\"break\"\x7d\x7d]," ++
    "\"world\":[[2,1,1]]\x7d"

def patrol : Scenario where
  layout := { size := ⟨2, 1, 1⟩ }
  orders := [⟨⟨1⟩, ⟨"a", 2, .leave {}⟩, []⟩]

theorem round_trip_finished :
    (finished.WordIndexed ∧ finished.toJson.depth ≤ Json.maxDepth ∧
      (Json.parse? finished.toJson.text).bind Stmt.ofJson? = some finished) ∧
    ((Json.parse? finishedText).bind Stmt.ofJson? = some finished ∧
      (Json.parse? finished.toJson.text).bind Stmt.ofJson? = some finished) ∧
    (patrol.WordIndexed ∧ patrol.toJson.depth ≤ Json.maxDepth ∧ Scenario.parse? patrol.toJson.text = some patrol) ∧
    Scenario.parse? patrolText = some patrol ∧ Scenario.parse? patrol.toJson.text = some patrol := by
  have hleave : (Stmt.leave {}).WordIndexed := Stmt.wordIndexed_of nofun nofun
  have hfinished : finished.WordIndexed :=
    Stmt.wordIndexed_of (by rintro _ _ _ ⟨⟩; decide) (by simpa [finished, Stmt.children] using hleave)
  have hpatrol : patrol.WordIndexed := by simpa [patrol, Scenario.WordIndexed] using hleave
  have hdepth : finished.toJson.depth ≤ Json.maxDepth := by cbv
  have hdepths : patrol.toJson.depth ≤ Json.maxDepth := by cbv
  have hread : (Json.parse? finishedText).bind Stmt.ofJson? = some finished := by cbv
  have hreads : Scenario.parse? patrolText = some patrol := by cbv
  obtain ⟨hwrite, hagain, hwrites, hagains⟩ := round_trip
  exact ⟨⟨hfinished, hdepth, hwrite finished hfinished hdepth⟩, ⟨hread, hagain finishedText finished hread⟩,
    ⟨hpatrol, hdepths, hwrites patrol hpatrol hdepths⟩, hreads, hagains patrolText patrol hreads⟩

end Errand
