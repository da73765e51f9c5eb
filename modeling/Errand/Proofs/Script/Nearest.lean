/-
The nearest: what the sources find that look for units, boulders, logs and workshops.

The search keeps the best candidate so far and gives it up only for one that is strictly nearer, so by induction on the
list it ends with the first of the nearest (`holds_foldl`). A unit is a candidate if it is not the one that executes the
task, is alive, and is on the side that is asked for; that is decided apart from the questions about units, but the two
agree (`nearest_found`).
-/
import Errand.Proofs.Cube.Distance
import Errand.Proofs.Script.Evaluation
import Errand.Sandbox

namespace Errand

/-! ## The search -/

/-- it is nearest to the origin, and the first of the list that is -/
structure FirstNearest {α : Type} (origin : Cube) (place : α → Cube) (xs : List α) (x : α) : Prop where
  nearest : ∀ y ∈ xs, origin.distance (place x) ≤ origin.distance (place y)
  first : ∃ before after, xs = before ++ x :: after ∧
    ∀ y ∈ before, ¬ origin.distance (place y) ≤ origin.distance (place x)

section

variable {α : Type} {origin : Cube} {place : α → Cube} {xs : List α} {x : α}

theorem FirstNearest.mem (h : FirstNearest origin place xs x) : x ∈ xs := by
  obtain ⟨before, after, rfl, -⟩ := h.first
  simp

/-- a candidate that is no nearer changes nothing -/
theorem FirstNearest.keep {y : α} (h : FirstNearest origin place xs x)
    (hy : origin.distance (place x) ≤ origin.distance (place y)) : FirstNearest origin place (xs ++ [y]) x := by
  obtain ⟨before, after, hxs, hbefore⟩ := h.first
  refine ⟨fun z hz => ?_, before, after ++ [y], by simp [hxs], hbefore⟩
  rcases List.mem_append.1 hz with hz | hz
  · exact h.nearest z hz
  · exact List.mem_singleton.1 hz ▸ hy

/-- a candidate that is nearer than the nearest so far is the only nearest -/
theorem FirstNearest.replace {y : α} (h : FirstNearest origin place xs x)
    (hy : ¬ origin.distance (place x) ≤ origin.distance (place y)) : FirstNearest origin place (xs ++ [y]) y := by
  have hyx := (Cube.distance_total ..).resolve_left hy
  refine ⟨fun z hz => ?_, xs, [], rfl, fun z hz hzy => hy (Cube.distance_trans (h.nearest z hz) hzy)⟩
  rcases List.mem_append.1 hz with hz | hz
  · exact Cube.distance_trans hyx (h.nearest z hz)
  · rw [List.mem_singleton.1 hz]
    exact (Cube.distance_total ..).elim id id

/-- the better of the best so far and one more candidate -/
def nearer (origin : Cube) (best : Option (α × Cube)) (c : α × Cube) : Option (α × Cube) :=
  match best with
  | some b => if origin.distance c.2 ≥ origin.distance b.2 then some b else some c
  | none => some c

/-- what the search knows of the candidates that it has seen -/
def Holds (origin : Cube) (place : α → Cube) (xs : List α) : Option (α × Cube) → Prop
  | none => xs = []
  | some b => b.2 = place b.1 ∧ FirstNearest origin place xs b.1

theorem Holds.nearer {best : Option (α × Cube)} (h : Holds origin place xs best) (y : α) :
    Holds origin place (xs ++ [y]) (nearer origin best (y, place y)) := by
  cases best with
  | none =>
    obtain rfl : xs = [] := h
    refine ⟨rfl, fun z hz => ?_, [], [], rfl, fun z hz => nomatch hz⟩
    rw [List.mem_singleton.1 hz]
    exact (Cube.distance_total ..).elim id id
  | some b =>
    obtain ⟨hb, hfirst⟩ := h
    simp only [Errand.nearer, hb]
    split
    · exact ⟨hb, hfirst.keep ‹_›⟩
    · exact ⟨rfl, hfirst.replace ‹_›⟩

theorem holds_foldl (origin : Cube) (place : α → Cube) (xs : List α) :
    Holds origin place xs ((xs.map fun x => (x, place x)).foldl (nearer origin) none) := by
  induction xs using List.reverseRecOn with
  | nil => rfl
  | append_singleton xs y ih =>
    rw [List.map_append, List.foldl_append]
    exact ih.nearer y

/-- **The search finds the first of the nearest**, and nothing only among no candidates -/
theorem nearest?_spec (origin : Cube) (place : α → Cube) (xs : List α) :
    (nearest? origin (xs.map fun x => (x, place x)) = none ↔ xs = []) ∧
      ∀ x, nearest? origin (xs.map fun x => (x, place x)) = some x → FirstNearest origin place xs x := by
  have hfold := holds_foldl origin place xs
  have hsearch : nearest? origin (xs.map fun x => (x, place x)) =
      ((xs.map fun x => (x, place x)).foldl (nearer origin) none).map (·.1) := rfl
  rw [hsearch]
  cases hbest : (xs.map fun x => (x, place x)).foldl (nearer origin) none with
  | none =>
    rw [hbest] at hfold
    exact ⟨iff_of_true rfl hfold, fun x hx => nomatch hx⟩
  | some b =>
    rw [hbest] at hfold
    have hsome : some b.1 ≠ none := fun h => nomatch h
    refine ⟨iff_of_false hsome fun hxs => ?_, fun x hx => ?_⟩
    · exact absurd hfold.2.mem (hxs ▸ List.not_mem_nil)
    · cases hx
      exact hfold.2

end

/-! ## Candidates -/

/-- every listed unit is at a known place and on a known side -/
structure World.Knows (w : World) (home : UnitId → Cube) (side : UnitId → FactionId) : Prop where
  position : ∀ u ∈ w.units, w.position? u = some (home u)
  faction : ∀ u ∈ w.units, w.faction? u = some (side u)

theorem Sandbox.world_knows (w : Sandbox) :
    w.world.Knows (fun u => (w.world.position? u).getD default) (fun u => (w.world.faction? u).getD default) := by
  have hunit (u : UnitId) (hu : u ∈ w.world.units) : ∃ r, w.unit? u = some r :=
    ⟨_, by rw [unit?, getElem?_pos w.actors u (Std.ExtTreeMap.mem_keys.1 hu), Option.map_some]⟩
  constructor <;> intro u hu <;> obtain ⟨r, hr⟩ := hunit u hu
  · have hposition : w.world.position? u = some r.position := congrArg (Option.map Resident.position) hr
    rw [hposition, Option.getD_some]
  · have hfaction : w.world.faction? u = some r.faction := congrArg (Option.map Resident.faction) hr
    rw [hfaction, Option.getD_some]

/-- the sources that look for the nearest unit, each with the units that it looks for and the questions about what it
finds that are answered with yes -/
inductive LooksFor (side : UnitId → FactionId) (this : UnitId) : UnitSource → (UnitId → Bool) → List UnitTest → Prop
  | anyUnit : LooksFor side this .anyUnit (fun _ => true) [.isAlive]
  | friend : LooksFor side this .friend (fun u => side u == side this) [.isAlive, .isFriend]
  | enemy : LooksFor side this .enemy (fun u => side u != side this) [.isAlive, .isEnemy]

/-- the sources that look for the nearest place, each with the places that it looks through -/
inductive LooksThrough (w : World) : PlaceSource → List Cube → Prop
  | boulder : LooksThrough w .boulder w.boulders
  | log : LooksThrough w .log w.logs
  | workshop : LooksThrough w .workshop w.workshops

namespace Context

variable {cx : Context} {this : UnitId} {home : UnitId → Cube} {side : UnitId → FactionId}

def candidates (cx : Context) (this : UnitId) (wanted : UnitId → Bool) : List UnitId :=
  cx.world.units.filter fun u => u ≠ this && cx.world.isAlive u && wanted u

theorem mem_candidates {wanted : UnitId → Bool} {u : UnitId} :
    u ∈ cx.candidates this wanted ↔ u ∈ cx.world.units ∧ u ≠ this ∧ cx.world.isAlive u = true ∧ wanted u = true := by
  simp [candidates, and_assoc]

theorem nearestUnit_eq (hknows : cx.world.Knows home side) (hlisted : this ∈ cx.world.units)
    (wanted : Option FactionId → Bool) :
    cx.nearestUnit this wanted =
      .ok ((nearest? (home this) ((cx.candidates this fun u => wanted (some (side u))).map fun u => (u, home u))).map
        .unit) := by
  have hothers : (cx.world.units.filter fun u => u ≠ this && cx.world.isAlive u && wanted (cx.world.faction? u)) =
      cx.candidates this fun u => wanted (some (side u)) :=
    List.filter_congr fun u hu => by rw [hknows.faction u hu]
  have hplaced : (cx.candidates this fun u => wanted (some (side u))).filterMap
        (fun u => (cx.world.position? u).map (u, ·)) =
      (cx.candidates this fun u => wanted (some (side u))).map fun u => (u, home u) := by
    rw [← List.filterMap_eq_map]
    refine List.filterMap_congr fun u hu => ?_
    rw [hknows.position u (mem_candidates.1 hu).1]
    rfl
  simp only [nearestUnit, positionOf, hknows.position this hlisted, hothers, hplaced]
  rfl

theorem unitFrom_eq (hthis : cx.unit? = some this) (hknows : cx.world.Knows home side) (hlisted : this ∈ cx.world.units)
    {source : UnitSource} {wanted : UnitId → Bool} {tests : List UnitTest} (h : LooksFor side this source wanted tests)
    (s : Span) : cx.unitFrom s source =
      .ok ((nearest? (home this) ((cx.candidates this wanted).map fun u => (u, home u))).map .unit) := by
  have hmine : cx.world.faction? this = some (side this) := hknows.faction this hlisted
  have hunit : cx.this s = .ok this := by rw [Context.this, hthis]
  cases h with
  | anyUnit =>
    simp only [unitFrom, hunit]
    exact nearestUnit_eq hknows hlisted fun _ => true
  | friend =>
    simp only [unitFrom, hunit]
    change cx.nearestUnit this (fun f => f.isSome && f == cx.world.faction? this) = _
    rw [nearestUnit_eq hknows hlisted, hmine]
    rfl
  | enemy =>
    simp only [unitFrom, hunit]
    change cx.nearestUnit this (fun f => f.isSome && f != cx.world.faction? this) = _
    rw [nearestUnit_eq hknows hlisted, hmine]
    rfl

theorem placeFrom_eq (hthis : cx.unit? = some this) (hknows : cx.world.Knows home side)
    (hlisted : this ∈ cx.world.units) {source : PlaceSource} {places : List Cube}
    (h : LooksThrough cx.world source places) (s : Span) :
    cx.placeFrom s source = .ok ((nearest? (home this) (places.map fun c => (c, c))).map .position) := by
  have hhere : cx.here s = .ok (home this) := by
    rw [here, Context.this, hthis]
    change cx.positionOf this = _
    rw [positionOf, hknows.position this hlisted]
  cases h <;> simp only [placeFrom, nearestPlace, hhere] <;> rfl

/-- questions about sides compare those of the two units -/
theorem testUnit_side (hthis : cx.unit? = some this) (hknows : cx.world.Knows home side)
    (hlisted : this ∈ cx.world.units) {v : UnitId} (hv : v ∈ cx.world.units) (s : Span) :
    cx.testUnit s v .isFriend = .ok (side v == side this) ∧ cx.testUnit s v .isEnemy = .ok (side v != side this) := by
  have hunit : cx.this s = .ok this := by rw [Context.this, hthis]
  have hmine : cx.factionOf this = .ok (side this) := by rw [factionOf, hknows.faction this hlisted]
  have htheirs : cx.factionOf v = .ok (side v) := by rw [factionOf, hknows.faction v hv]
  constructor
  · simp only [testUnit, hunit, hmine, htheirs, bind, Except.bind, pure, Except.pure, BEq.comm]
  · simp only [testUnit, hunit, hmine, htheirs, bind, Except.bind, pure, Except.pure, bne_comm]

/-- what a source finds passes the questions that go with it -/
theorem testUnit_of_looksFor (hthis : cx.unit? = some this) (hknows : cx.world.Knows home side)
    (hlisted : this ∈ cx.world.units) {source : UnitSource} {wanted : UnitId → Bool} {tests : List UnitTest}
    (h : LooksFor side this source wanted tests) {v : UnitId} (hv : v ∈ cx.candidates this wanted) {test : UnitTest}
    (ht : test ∈ tests) (s : Span) : cx.readyFor s test = .ok () ∧ cx.testUnit s v test = .ok true := by
  obtain ⟨hmem, -, halive, hwanted⟩ := mem_candidates.1 hv
  obtain ⟨hfriend, henemy⟩ := testUnit_side hthis hknows hlisted hmem s
  have hready : cx.this s >>= (fun _ => .ok ()) = .ok () := by rw [Context.this, hthis]; rfl
  have hlives : cx.readyFor s .isAlive = .ok () ∧ cx.testUnit s v .isAlive = .ok true :=
    ⟨rfl, congrArg Except.ok halive⟩
  cases h with
  | anyUnit => exact List.mem_singleton.1 ht ▸ hlives
  | friend =>
    rcases List.mem_pair.1 ht with rfl | rfl
    · exact hlives
    · exact ⟨hready, hfriend.trans (congrArg Except.ok hwanted)⟩
  | enemy =>
    rcases List.mem_pair.1 ht with rfl | rfl
    · exact hlives
    · exact ⟨hready, henemy.trans (congrArg Except.ok hwanted)⟩

end Context

namespace Expr

theorem run_unitTest {ρ : Type} [Picker ρ] {cx : Context} {s : Span} {test : UnitTest} {e : Expr} {u : UnitId}
    {b : Bool} {p p' : ρ} (hready : cx.readyFor s test = .ok ()) (he : (e.eval cx).run p = (.ok (some (.unit u)), p'))
    (htest : cx.testUnit s u test = .ok b) :
    ((Expr.unitTest s test e).eval cx).run p = (.ok (some (.boolean b)), p') := by
  have hkind : e.checkKind .unit (some (.unit u)) = .ok (some (.unit u)) := rfl
  rw [eval, Eval.run_bind_ok (Eval.run_liftExcept_eq.2 ⟨hready, rfl⟩), Eval.run_bind_ok he,
    Eval.run_bind_ok (Eval.run_liftExcept_eq.2 ⟨hkind, rfl⟩)]
  exact Eval.run_bind_ok (Eval.run_liftExcept_eq.2 ⟨htest, rfl⟩)

/-- **The nearest are found.** In a world that knows its units, `anyUnit`, `friend` and `enemy` look for the living
units other than the one that executes the task, the latter two for those on its side and those on another. They have no
value exactly if there are none, and else find the first listed of those at the least distance; that is another unit than
the executing one, and where it is asked about, it is alive and a friend or an enemy as it should be. Likewise `boulder`,
`log` and `workshop` have no value exactly if none is listed, and else find the first listed one at the least
distance. -/
theorem nearest_found (ρ : Type) [Picker ρ] (cx : Context) (this : UnitId) (home : UnitId → Cube)
    (side : UnitId → FactionId) (hthis : cx.unit? = some this) (hlisted : this ∈ cx.world.units)
    (hknows : cx.world.Knows home side) :
    (∀ source wanted tests, LooksFor side this source wanted tests → ∃ found : Option UnitId,
      (∀ (s : Span) (p : ρ), ((Expr.unit s source).eval cx).run p = (.ok (found.map .unit), p)) ∧
      (found = none ↔ ¬ ∃ u ∈ cx.world.units, u ≠ this ∧ cx.world.isAlive u = true ∧ wanted u = true) ∧
      ∀ v, found = some v →
        FirstNearest (home this) home
          (cx.world.units.filter fun u => u ≠ this && cx.world.isAlive u && wanted u) v ∧ v ≠ this ∧
        ∀ (s : Span) (e : Expr) (p p' : ρ), (e.eval cx).run p = (.ok (some (.unit v)), p') →
          ∀ test ∈ tests, ((Expr.unitTest s test e).eval cx).run p = (.ok (some (.boolean true)), p')) ∧
    ∀ source places, LooksThrough cx.world source places → ∃ found : Option Cube,
      (∀ (s : Span) (p : ρ), ((Expr.place s source).eval cx).run p = (.ok (found.map .position), p)) ∧
      (found = none ↔ places = []) ∧ ∀ c, found = some c → FirstNearest (home this) id places c := by
  constructor
  · intro source wanted tests h
    obtain ⟨hnone, hfirst⟩ := nearest?_spec (home this) home (cx.candidates this wanted)
    refine ⟨_, fun s p => Eval.run_liftExcept_eq.2 ⟨cx.unitFrom_eq hthis hknows hlisted h s, rfl⟩, ?_, fun v hv => ?_⟩
    · rw [hnone, List.eq_nil_iff_forall_not_mem, not_exists]
      simp only [Context.mem_candidates]
    · have hmem : v ∈ cx.candidates this wanted := (hfirst v hv).mem
      refine ⟨hfirst v hv, (Context.mem_candidates.1 hmem).2.1, fun s e p p' he test ht => ?_⟩
      obtain ⟨hready, htest⟩ := Context.testUnit_of_looksFor hthis hknows hlisted h hmem ht s
      exact run_unitTest hready he htest
  · intro source places h
    obtain ⟨hnone, hfirst⟩ := nearest?_spec (home this) id places
    exact ⟨_, fun s p => Eval.run_liftExcept_eq.2 ⟨cx.placeFrom_eq hthis hknows hlisted h s, rfl⟩, hnone, hfirst⟩

/-- a unit with a dead friend beside it, two friends a little further off, an enemy between them, and boulders in two
directions -/
def meadow : Sandbox :=
  (Sandbox.addUnit · { id := ⟨5⟩, faction := ⟨1⟩, position := ⟨2, 4, 0⟩ }) <|
  (Sandbox.addUnit · { id := ⟨4⟩, faction := ⟨2⟩, position := ⟨3, 3, 0⟩ }) <|
  (Sandbox.addUnit · { id := ⟨3⟩, faction := ⟨1⟩, position := ⟨4, 2, 0⟩ }) <|
  (Sandbox.addUnit · { id := ⟨2⟩, faction := ⟨1⟩, position := ⟨2, 1, 0⟩, alive := false }) <|
  (Sandbox.addUnit · { id := ⟨1⟩, faction := ⟨1⟩, position := ⟨2, 2, 0⟩ })
    { size := ⟨6, 6, 1⟩, boulders := [⟨5, 5, 0⟩, ⟨0, 2, 0⟩, ⟨2, 0, 0⟩] }

/-- of the two friends at the same distance the first listed is found, though the enemy is nearer and the dead one
nearest; of the boulders it is the first of the two near ones; and there is no log -/
theorem nearest_found_meadow :
    let cx : Context := { unit? := some ⟨1⟩, store := .empty, selection := {}, world := meadow.world }
    let home (u : UnitId) := (cx.world.position? u).getD default
    let side (u : UnitId) := (cx.world.faction? u).getD default
    let value (e : Expr) := ((e.eval cx).run (⟨[]⟩ : Replay)).1
    ⟨1⟩ ∈ cx.world.units ∧ cx.world.Knows home side ∧
      value (.unit {} .friend) = .ok (some (.unit ⟨3⟩)) ∧ FirstNearest (home ⟨1⟩) home [⟨3⟩, ⟨5⟩] ⟨3⟩ ∧
      value (.unitTest {} .isFriend (.unit {} .friend)) = .ok (some (.boolean true)) ∧
      value (.unit {} .enemy) = .ok (some (.unit ⟨4⟩)) ∧
      value (.place {} .boulder) = .ok (some (.position ⟨0, 2, 0⟩)) ∧
      FirstNearest (home ⟨1⟩) id meadow.boulders ⟨0, 2, 0⟩ ∧ value (.place {} .log) = .ok none := by
  intro cx home side value
  have hlisted : ⟨1⟩ ∈ cx.world.units := by decide +kernel
  have hfriend : value (.unit {} .friend) = .ok (some (.unit ⟨3⟩)) := by decide +kernel
  have hboulder : value (.place {} .boulder) = .ok (some (.position ⟨0, 2, 0⟩)) := by decide +kernel
  have hfriends :
      (cx.world.units.filter fun u => u ≠ ⟨1⟩ && cx.world.isAlive u && side u == side ⟨1⟩) = [⟨3⟩, ⟨5⟩] := by
    decide +kernel
  have hknows : cx.world.Knows home side := meadow.world_knows
  obtain ⟨hunits, hplaces⟩ := nearest_found Replay cx ⟨1⟩ home side rfl hlisted hknows
  obtain ⟨u, hrun, -, hu⟩ := hunits _ _ _ .friend
  obtain ⟨-, rfl, ⟨⟩⟩ :=
    Option.map_eq_some_iff.1 (Except.ok.inj ((congrArg Prod.fst (hrun {} ⟨[]⟩)).symm.trans hfriend))
  obtain ⟨hnearest, -, htests⟩ := hu ⟨3⟩ rfl
  obtain ⟨c, hrun', -, hc⟩ := hplaces _ _ .boulder
  obtain ⟨-, rfl, ⟨⟩⟩ :=
    Option.map_eq_some_iff.1 (Except.ok.inj ((congrArg Prod.fst (hrun' {} ⟨[]⟩)).symm.trans hboulder))
  exact ⟨hlisted, hknows, hfriend, hfriends ▸ hnearest,
    congrArg Prod.fst (htests {} _ _ _ (hrun {} ⟨[]⟩) .isFriend (by simp)), by decide +kernel, hboulder, hc _ rfl,
    by decide +kernel⟩

end Expr

end Errand
