/-
Conservation in a sandbox: nothing is duplicated and nothing is lost.

`stock` counts the items of a kind wherever they are: lying about, carried by a unit (dead ones included), or still
inside rock or a tree. Only finished work moves an item, always from one of these places to another
(`conserves_completeWork`); commands, aborts, deaths and walks move none. Each unit is dealt with in the sandbox that
the units before it have left, so two units that finish on one cube share nothing. `after_conserves` says what this
means for every sequence of events; workshops are neither made nor broken by any.
-/
import Errand.Proofs.Sandbox.Status
import Mathlib.Tactic

namespace Errand

/-- the terrain that breaks into an item -/
def Item.source : Item → Terrain
  | .boulder => .rock
  | .log => .tree

/-! ## Entries of maps, counted -/

section Entries

variable {α β : Type} [Ord α] [Std.TransOrd α] [Std.LawfulEqOrd α] {m m' : Std.ExtTreeMap α β} {k : α} {v : β}

/-- the entries of a map whose value is of a certain kind -/
def countValues (p : β → Bool) (m : Std.ExtTreeMap α β) : Nat := m.toList.countP fun e => p e.2

omit [Std.LawfulEqOrd α] in
theorem nodup_toList (m : Std.ExtTreeMap α β) : m.toList.Nodup := by
  refine m.distinct_keys_toList.imp fun {a b} hne he => hne ?_
  rw [he]
  exact Std.ReflOrd.compare_self

theorem perm_cons_erase (h : m[k]? = some v) : m.toList.Perm ((k, v) :: (m.erase k).toList) := by
  have hnew : (k, v) ∉ (m.erase k).toList := by
    rw [Std.ExtTreeMap.mem_toList_iff_getElem?_eq_some]
    simp
  rw [List.perm_ext_iff_of_nodup (nodup_toList m) (List.nodup_cons.2 ⟨hnew, nodup_toList _⟩)]
  rintro ⟨k', v'⟩
  rw [List.mem_cons, Std.ExtTreeMap.mem_toList_iff_getElem?_eq_some, Std.ExtTreeMap.mem_toList_iff_getElem?_eq_some,
    Std.ExtTreeMap.getElem?_erase]
  by_cases hk : k = k'
  · subst k'
    simp [h, eq_comm]
  · have hne : k' ≠ k := Ne.symm hk
    simp [hk, hne]

theorem countValues_erase (p : β → Bool) (h : m[k]? = some v) :
    countValues p (m.erase k) + (if p v then 1 else 0) = countValues p m := by
  unfold countValues
  rw [(perm_cons_erase h).countP_eq, List.countP_cons]

theorem countValues_modify (p : β → Bool) (f : β → β) (h : m[k]? = some v) :
    countValues p (m.modify k f) + (if p v then 1 else 0) = countValues p m + (if p (f v) then 1 else 0) := by
  have hmod : (m.modify k f)[k]? = some (f v) := by simp [h]
  have hrest : (m.modify k f).erase k = m.erase k := by
    apply Std.ExtTreeMap.ext_getElem?
    intro k'
    rw [Std.ExtTreeMap.getElem?_erase, Std.ExtTreeMap.getElem?_erase, Std.ExtTreeMap.getElem?_modify]
    split <;> rfl
  have hbefore := countValues_erase p h
  have hafter := countValues_erase p hmod
  rw [hrest] at hafter
  omega

end Entries

namespace Sandbox

variable {w w' w'' : Sandbox} {u : UnitId} {f : Actor → Actor} {a : Actor}

/-! ## Items and where they are -/

/-- the cubes on which items of a kind lie, a cube once for each item -/
def lying (w : Sandbox) : Item → List Cube
  | .boulder => w.boulders
  | .log => w.logs

/-- how many units carry an item of a kind, dead or alive -/
def carriers (w : Sandbox) (i : Item) : Nat := countValues (fun a => a.unit.carrying? = some i) w.actors

/-- how many cubes would break into an item of a kind -/
def sources (w : Sandbox) (i : Item) : Nat := countValues (fun t => t = i.source) w.terrain

/-- how many items of a kind there are: lying about, carried, or not yet broken out -/
def stock (w : Sandbox) (i : Item) : Nat := (w.lying i).length + w.carriers i + w.sources i

def IsWorkshop (w : Sandbox) (c : Cube) : Prop := w.terrain[c]? = some .workshop

theorem mem_workshops {c : Cube} : c ∈ w.world.workshops ↔ w.IsWorkshop c := by
  simp only [world, IsWorkshop, List.mem_map, List.mem_filter, decide_eq_true_eq]
  constructor
  · rintro ⟨⟨c', t⟩, ⟨hm, rfl⟩, rfl⟩
    exact Std.ExtTreeMap.mem_toList_iff_getElem?_eq_some.1 hm
  · intro h
    exact ⟨(c, .workshop), ⟨Std.ExtTreeMap.mem_toList_iff_getElem?_eq_some.2 h, rfl⟩, rfl⟩

/-! ## Changes that conserve -/

/-- as many items of each kind, and the same workshops -/
structure Conserves (w w' : Sandbox) : Prop where
  stock : ∀ i, w'.stock i = w.stock i
  workshops : ∀ c, w'.IsWorkshop c ↔ w.IsWorkshop c

theorem Conserves.refl (w : Sandbox) : Conserves w w := ⟨fun _ => rfl, fun _ => Iff.rfl⟩

theorem Conserves.trans (h : Conserves w w') (h' : Conserves w' w'') : Conserves w w'' :=
  ⟨fun i => (h'.stock i).trans (h.stock i), fun c => (h'.workshops c).trans (h.workshops c)⟩

/-- a unit is changed: what it has in its hands is all that counts -/
theorem carriers_modifyActor (ha : w.actors[u]? = some a) (f : Actor → Actor) (i : Item) :
    (w.modifyActor u f).carriers i + (if a.unit.carrying? = some i then 1 else 0) =
      w.carriers i + (if (f a).unit.carrying? = some i then 1 else 0) := by
  have h := countValues_modify (fun a : Actor => decide (a.unit.carrying? = some i)) f ha
  simp only [decide_eq_true_eq] at h
  exact h

/-- a change of a unit that does not concern its hands -/
theorem conserves_modifyActor (hf : ∀ a, (f a).unit.carrying? = a.unit.carrying?) :
    Conserves w (w.modifyActor u f) := by
  refine ⟨fun i => ?_, fun _ => Iff.rfl⟩
  have hcarriers : (w.modifyActor u f).carriers i = w.carriers i := by
    cases ha : w.actors[u]? with
    | none =>
      have hsame : w.actors.modify u f = w.actors := by
        apply Std.ExtTreeMap.ext_getElem?
        intro v
        rw [Std.ExtTreeMap.getElem?_modify]
        split
        · rename_i hv
          obtain rfl := Std.LawfulEqOrd.eq_of_compare hv
          rw [ha]
          rfl
        · rfl
      simp only [carriers, modifyActor, hsame]
    | some a =>
      have h := carriers_modifyActor ha f i
      rw [hf] at h
      omega
  simp only [stock, hcarriers]
  rfl

/-! ## Commands, aborts and deaths -/

theorem conserves_kill (w : Sandbox) (u : UnitId) : Conserves w (w.kill u) := by
  apply conserves_modifyActor
  exact fun _ => rfl

theorem conserves_abort (w : Sandbox) (u : UnitId) : Conserves w (w.abort u) := by
  apply conserves_modifyActor
  exact fun _ => rfl

theorem conserves_start (w : Sandbox) (u : UnitId) (activity : Activity) (status : ActionStatus) :
    Conserves w (w.start u activity status) := by
  apply conserves_modifyActor
  intro a
  split <;> rfl

theorem conserves_command (w : Sandbox) (u : UnitId) (c : Command) : Conserves w (w.command u c) := by
  cases c with
  | moveTo target sprint => exact w.conserves_start u _ _
  | workAt target => exact w.conserves_start u _ _
  | attack target =>
    unfold command
    simp only []
    split
    · exact (w.conserves_kill target).trans (conserves_start _ u _ _)
    · exact w.conserves_start u _ _
  | follow target => exact w.conserves_start u _ _

/-! ## Time -/

/-- rock and trees are broken; a source less of the item they hold -/
theorem sources_clear {c : Cube} {t : Terrain} (hc : w.terrain[c]? = some t) (i : Item) :
    (w.setTerrain c .air).sources i + (if t = i.source then 1 else 0) = w.sources i := by
  have h := countValues_erase (fun t : Terrain => decide (t = i.source)) hc
  simp only [decide_eq_true_eq] at h
  exact h

/-- breaking what is no workshop leaves the workshops -/
theorem isWorkshop_clear {c : Cube} {t : Terrain} (hc : w.terrain[c]? = some t) (ht : t ≠ .workshop) (c' : Cube) :
    (w.setTerrain c .air).IsWorkshop c' ↔ w.IsWorkshop c' := by
  have herase : (w.setTerrain c .air).terrain = w.terrain.erase c := rfl
  unfold IsWorkshop
  rw [herase, Std.ExtTreeMap.getElem?_erase]
  split
  · rename_i hcc
    obtain rfl := Std.LawfulEqOrd.eq_of_compare hcc
    simp [hc, ht]
  · rfl

/-- air is what is not listed, so anything else is -/
theorem getElem?_of_terrainAt {c : Cube} {t : Terrain} (h : w.terrainAt c = t) (ht : t ≠ .air) :
    w.terrain[c]? = some t := by
  unfold terrainAt at h
  cases hc : w.terrain[c]? with
  | none =>
    rw [hc] at h
    exact absurd h.symm ht
  | some t' =>
    rw [hc] at h
    exact congrArg some h

def drop (w : Sandbox) : Item → Cube → Sandbox
  | .boulder => w.addBoulder
  | .log => w.addLog

def pick (w : Sandbox) : Item → Cube → Sandbox
  | .boulder => fun c => { w with boulders := w.boulders.erase c }
  | .log => fun c => { w with logs := w.logs.erase c }

theorem length_lying_drop (w : Sandbox) (i j : Item) (c : Cube) :
    ((w.drop i c).lying j).length = (w.lying j).length + (if i = j then 1 else 0) := by
  cases i <;> cases j <;> simp [drop, lying, addBoulder, addLog]

theorem length_lying_pick {i : Item} {c : Cube} (hc : c ∈ w.lying i) (j : Item) :
    ((w.pick i c).lying j).length + (if i = j then 1 else 0) = (w.lying j).length := by
  have hlength := List.length_erase_of_mem hc
  have hpos := List.length_pos_of_mem hc
  cases i <;> cases j <;> simp [pick, lying] at hlength hpos ⊢ <;> omega

/-- what a unit has in its hands afterwards has come from the ground, and what it had there before lies there -/
theorem conserves_carry (ha : w.actors[u]? = some a) (hactors : w'.actors = w.actors) {item? : Option Item}
    (hitems : ∀ i, (w'.lying i).length + w'.sources i + (if item? = some i then 1 else 0) =
      (w.lying i).length + w.sources i + (if a.unit.carrying? = some i then 1 else 0))
    (hworkshops : ∀ c, w'.IsWorkshop c ↔ w.IsWorkshop c) : Conserves w (w'.carry u item?) := by
  refine ⟨fun i => ?_, hworkshops⟩
  have hhands : (w'.carry u item?).carriers i + (if a.unit.carrying? = some i then 1 else 0) =
      w'.carriers i + (if item? = some i then 1 else 0) :=
    carriers_modifyActor (hactors ▸ ha) _ i
  have hothers : w'.carriers i = w.carriers i := by simp only [carriers, hactors]
  have hlying : (w'.carry u item?).lying i = w'.lying i := by cases i <;> rfl
  have hsources : (w'.carry u item?).sources i = w'.sources i := rfl
  have hground := hitems i
  unfold stock
  rw [hlying, hsources]
  omega

theorem conserves_drop (ha : w.actors[u]? = some a) {i : Item} (hi : a.unit.carrying? = some i) (c : Cube) :
    Conserves w ((w.drop i c).carry u none) := by
  have hterrain : (w.drop i c).terrain = w.terrain := by cases i <;> rfl
  apply conserves_carry ha
  · cases i <;> rfl
  · intro j
    simp only [sources, hterrain, length_lying_drop, hi, Option.some.injEq, reduceCtorEq, if_false]
    omega
  · intro c'
    simp only [IsWorkshop, hterrain]

theorem conserves_pick (ha : w.actors[u]? = some a) (hempty : a.unit.carrying? = none) {i : Item} {c : Cube}
    (hc : c ∈ w.lying i) : Conserves w ((w.pick i c).carry u (some i)) := by
  have hterrain : (w.pick i c).terrain = w.terrain := by cases i <;> rfl
  apply conserves_carry ha
  · cases i <;> rfl
  · intro j
    have hlength := length_lying_pick hc j
    simp only [sources, hterrain, hempty, Option.some.injEq, reduceCtorEq, if_false]
    omega
  · intro c'
    simp only [IsWorkshop, hterrain]

/-- from rock or a tree to the ground, while the hands stay empty -/
theorem conserves_break (ha : w.actors[u]? = some a) (hempty : a.unit.carrying? = none) {i : Item} {c : Cube}
    (hc : w.terrainAt c = i.source) : Conserves w (((w.setTerrain c .air).drop i c).carry u none) := by
  have hlisted : w.terrain[c]? = some i.source := getElem?_of_terrainAt hc (by cases i <;> decide)
  have hterrain : ((w.setTerrain c .air).drop i c).terrain = (w.setTerrain c .air).terrain := by cases i <;> rfl
  apply conserves_carry ha
  · cases i <;> rfl
  · intro j
    have hbefore : (w.setTerrain c .air).lying j = w.lying j := by cases j <;> rfl
    have hsources := sources_clear hlisted j
    have hsame : (if i.source = j.source then 1 else 0) = (if i = j then 1 else 0) := by
      cases i <;> cases j <;> decide
    rw [hsame] at hsources
    simp only [sources, hterrain, length_lying_drop, hbefore, hempty, reduceCtorEq, if_false] at hsources ⊢
    omega
  · intro c'
    simp only [IsWorkshop, hterrain]
    exact isWorkshop_clear hlisted (by cases i <;> decide) c'

/-- **Finished work moves one item at most**: from the hands to the ground, from the ground into the hands, or from rock
or a tree to the ground. The unit has to exist, or it would pick an item up into no hands. -/
theorem conserves_completeWork (ha : w.actors[u]? = some a) (target : Cube) :
    Conserves w (w.completeWork u target) := by
  have hunit : (w.unit? u).bind (·.carrying?) = a.unit.carrying? := by simp [unit?, ha]
  unfold completeWork
  rw [hunit]
  cases hc : a.unit.carrying? with
  | some item =>
    cases item with
    | boulder => exact conserves_drop ha hc target
    | log => exact conserves_drop ha hc target
  | none =>
    simp only []
    split
    · rename_i hboulder
      have hmem : target ∈ w.lying .boulder := List.contains_iff_mem.1 hboulder
      exact conserves_pick ha hc hmem
    · split
      · rename_i hlog
        have hmem : target ∈ w.lying .log := List.contains_iff_mem.1 hlog
        exact conserves_pick ha hc hmem
      · split
        · rename_i hrock
          have hsource : w.terrainAt target = Item.boulder.source := hrock
          exact conserves_break ha hc hsource
        · rename_i htree
          have hsource : w.terrainAt target = Item.log.source := htree
          exact conserves_break ha hc hsource
        -- nothing is there, and the empty hands are emptied
        all_goals exact conserves_carry ha rfl (fun i => by simp [hc]) fun _ => Iff.rfl

/-- neither the end of an action nor a walk concerns the hands -/
theorem carrying_walk (w : Sandbox) (a : Actor) (goal : Cube) (arrived : Cube → Bool) :
    (w.walk a goal arrived).unit.carrying? = a.unit.carrying? := by
  unfold walk
  simp only []
  split
  · rfl
  · split
    · rfl
    · split <;> rfl

theorem Turn.conserves (h : Turn w u w') : Conserves w w' := by
  cases h with
  | absent | rests => exact .refl w
  | moves | follows => exact conserves_modifyActor fun a => w.carrying_walk a _ _
  | works | loses => exact conserves_modifyActor fun _ => rfl
  | finishes ha => exact (conserves_completeWork ha _).trans (conserves_modifyActor fun _ => rfl)

/-- **Time conserves**: every unit works in the sandbox that the units before it have left -/
theorem conserves_advance (w : Sandbox) : Conserves w w.advance :=
  List.foldlRecOn _ _ (Conserves.refl w) fun w' h u _ => h.trans (w'.turn u).conserves

/-! ## Sequences of events -/

/-- what can happen in a sandbox to which nothing is added -/
inductive Event where
  | command (u : UnitId) (c : Command)
  | abort (u : UnitId)
  | kill (u : UnitId)
  | advance
  deriving DecidableEq, Repr

def happen (w : Sandbox) : Event → Sandbox
  | .command u c => w.command u c
  | .abort u => w.abort u
  | .kill u => w.kill u
  | .advance => w.advance

def after (w : Sandbox) (events : List Event) : Sandbox := events.foldl happen w

theorem conserves_happen (w : Sandbox) (e : Event) : Conserves w (w.happen e) := by
  cases e with
  | command u c => exact w.conserves_command u c
  | abort u => exact w.conserves_abort u
  | kill u => exact w.conserves_kill u
  | advance => exact w.conserves_advance

theorem conserves_after (w : Sandbox) (events : List Event) : Conserves w (w.after events) := by
  induction events generalizing w with
  | nil => exact .refl w
  | cons e events ih => exact (w.conserves_happen e).trans (ih _)

/-- **Items are conserved.** Take any sandbox and any sequence of commands, aborts, deaths and advances, by and of any
units. Of boulders and of logs alike, the number of those that lie about, of units that carry one and of cubes of rock
or trees together never changes, and the workshops are the same cubes as before. -/
theorem after_conserves (w : Sandbox) (events : List Event) :
    ((w.after events).boulders.length + (w.after events).carriers .boulder + (w.after events).sources .boulder =
      w.boulders.length + w.carriers .boulder + w.sources .boulder) ∧
    ((w.after events).logs.length + (w.after events).carriers .log + (w.after events).sources .log =
      w.logs.length + w.carriers .log + w.sources .log) ∧
    ∀ c, c ∈ (w.after events).world.workshops ↔ c ∈ w.world.workshops := by
  have h := w.conserves_after events
  refine ⟨h.stock .boulder, h.stock .log, fun c => ?_⟩
  rw [mem_workshops, mem_workshops]
  exact h.workshops c

/-- two units finish at one tree in one tick: the first fells it, the second drops its log on the same cube -/
example :
    let grove : Sandbox := ({ size := ⟨3, 1, 1⟩, workTicks := 1 } : Sandbox).setTerrain ⟨1, 0, 0⟩ .tree
    let staffed := [{ id := ⟨7⟩, faction := ⟨1⟩, position := ⟨0, 0, 0⟩ },
      { id := ⟨8⟩, faction := ⟨1⟩, position := ⟨2, 0, 0⟩, carrying? := some .log }].foldl addUnit grove
    let worked := staffed.after [.command ⟨7⟩ (.workAt ⟨1, 0, 0⟩), .command ⟨8⟩ (.workAt ⟨1, 0, 0⟩), .advance]
    worked.logs = [⟨1, 0, 0⟩, ⟨1, 0, 0⟩] ∧ worked.stock .log = 2 ∧ staffed.stock .log = 2 := by
  decide +kernel

end Sandbox

end Errand
