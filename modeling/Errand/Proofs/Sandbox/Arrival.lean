/-
Arrivals: how long a unit of a sandbox is on its way.

A step goes to a neighbour that is nearer to the goal on the straight line, as measured in floats. Where that
measurement is not deceived (`ExactWays`) the step is one along a shortest way, so after `k` ticks the unit is `k` steps
from where it began (`OnWay`), unless it has been stopped. In a sandbox without obstacles it never is, for there is
always a next cube on the way (`course_walk`). What the other units do in between does not matter (`move_arrives`).
-/
import Errand.Proofs.Sandbox.Incidents
import Errand.Proofs.Sandbox.Walking

namespace Errand

/-- on the shortest ways from `p` to `q`, distances in floats tell a cube from its neighbours as exact ones do -/
def Cube.ExactWays (p q : Cube) : Prop :=
  ∀ c n, p.Between c q → n ∈ c.adjacent → (c.distance q ≤ n.distance q ↔ c.squaredDistance q ≤ n.squaredDistance q)

namespace Sandbox

open Incident

variable {w w' : Sandbox} {u : UnitId} {a b : Actor} {p q c : Cube} {k : Nat} {x : Incident} {xs : List Incident}

/-! ## Open ground -/

/-- no cube inside the bounds is an obstacle, and both cubes are inside -/
structure Unobstructed (w : Sandbox) (p q : Cube) : Prop where
  free : ∀ c, w.inBounds c = true → w.isPassable c = true
  source : w.inBounds p = true
  goal : w.inBounds q = true

theorem inBounds_iff : w.inBounds c = true ↔
    (0 ≤ c.x.toInt ∧ c.x.toInt < w.size.x.toInt) ∧ (0 ≤ c.y.toInt ∧ c.y.toInt < w.size.y.toInt) ∧
      0 ≤ c.z.toInt ∧ c.z.toInt < w.size.z.toInt := by
  simp [inBounds, Int64.le_iff_toInt_le, Int64.lt_iff_toInt_lt, and_assoc]

theorem within_of_between {l m r n : Int} (hl : 0 ≤ l ∧ l < n) (hr : 0 ≤ r ∧ r < n)
    (h : (l - m).natAbs + (m - r).natAbs = (l - r).natAbs) : 0 ≤ m ∧ m < n := by
  omega

/-- the shortest ways between cubes inside the bounds stay inside -/
theorem inBounds_between (hp : w.inBounds p = true) (hq : w.inBounds q = true) (h : p.Between c q) :
    w.inBounds c = true := by
  rw [inBounds_iff] at *
  obtain ⟨hx, hy, hz⟩ := h.axes
  exact ⟨within_of_between hp.1 hq.1 hx, within_of_between hp.2.1 hq.2.1 hy, within_of_between hp.2.2 hq.2.2 hz⟩

theorem Unobstructed.opens (h : w.Unobstructed p q) (hopens : Opens w w') : w'.Unobstructed p q where
  free c hc := hopens.passable c (h.free c ((inBounds_congr hopens.size c).symm.trans hc))
  source := (inBounds_congr hopens.size p).trans h.source
  goal := (inBounds_congr hopens.size q).trans h.goal

/-- nothing but filling cubes closes any -/
theorem opens_undergo (h : ¬ x.Fills) : Opens w (w.undergo x) := by
  cases x with
  | drop i c => cases i <;> exact .of_terrainAt rfl fun _ => .inl rfl
  | change x =>
    cases x with
    | addUnit r => exact .of_terrainAt rfl fun _ => .inl rfl
    | setTerrain c t => exact absurd trivial h
    | event e => exact w.opens_happen e

/-! ## The way -/

/-- the unit has gone `k` steps of a shortest way from `p` to `q` and is going on -/
structure OnWay (p q : Cube) (k : Nat) (b : Actor) : Prop where
  busy : b.Busy
  activity : b.activity = .moving q
  between : p.Between b.unit.position q
  gone : p.manhattan b.unit.position = k
  early : k < max 1 (p.manhattan q)

/-- where the unit can be after `k` ticks -/
inductive Course (p q : Cube) (k : Nat) (b : Actor) : Prop
  | onWay (h : OnWay p q k b)
  | arrived (hs : b.status = .completed) (hposition : b.unit.position = q) (hdue : max 1 (p.manhattan q) ≤ k)
  | failed (hs : b.status = .failed)

/-- **A tick is a step of a shortest way**: the unit arrives, or goes on, or is stopped by an obstacle -/
theorem course_walk (h : OnWay p q k b) (hexact : p.ExactWays q) :
    Course p q (k + 1) (w.walk b q (· = q)) ∧
      (w.Unobstructed p q → (w.walk b q (· = q)).status ≠ .failed) := by
  have hearly := h.early
  have hbetween : k + b.unit.position.manhattan q = p.manhattan q := h.gone ▸ h.between
  obtain ⟨hhere, hb⟩ | ⟨haway, ⟨hnone, hb⟩ | ⟨n, hn, hthere⟩⟩ := w.walk_cases b q (· = q)
  · -- it was there from the beginning
    have hq : b.unit.position = q := of_decide_eq_true hhere
    have hleft : b.unit.position.manhattan q = 0 := Cube.manhattan_eq_zero.2 hq
    rw [hb]
    exact ⟨.arrived rfl hq (by omega), fun _ => nofun⟩
  · -- there is no step, so something is in the way
    rw [hb]
    refine ⟨.failed rfl, fun hfree => ?_⟩
    obtain ⟨n, hstep, hnearer⟩ := Cube.exists_nearer (of_decide_eq_false haway)
    have hn := Cube.mem_adjacent.2 hstep
    have hpassable : w.isPassable n = true :=
      hfree.free n (inBounds_between hfree.source hfree.goal (h.between.next hstep hnearer).1)
    have hcloser : n ∈ w.closer b.unit.position q := by
      rw [mem_closer, hexact _ _ h.between hn, Nat.not_le]
      exact ⟨hn, hpassable, (Cube.squaredDistance_lt_iff hstep).2 hnearer⟩
    rw [closer_of_stepToward? hnone] at hcloser
    cases hcloser
  · -- the step is nearer to the goal, so it is one along a shortest way
    obtain ⟨hadjacent, -, hcloser⟩ := mem_closer.1 (mem_of_stepToward? hn)
    have hstep := Cube.mem_adjacent.1 hadjacent
    rw [hexact _ _ h.between hadjacent, Nat.not_le, Cube.squaredDistance_lt_iff hstep] at hcloser
    obtain ⟨hnext, hgone⟩ := h.between.next hstep hcloser
    obtain ⟨hq, hb⟩ | ⟨hq, hb⟩ := hthere
    · have hleft : n.manhattan q = 0 := Cube.manhattan_eq_zero.2 (of_decide_eq_true hq)
      rw [hb]
      exact ⟨.arrived rfl (of_decide_eq_true hq) (by omega), fun _ => nofun⟩
    · have hleft : n.manhattan q ≠ 0 := fun h => of_decide_eq_false hq (Cube.manhattan_eq_zero.1 h)
      rw [hb]
      refine ⟨.onWay ⟨⟨h.busy.alive, h.busy.status⟩, h.activity, hnext, hgone.trans (by rw [h.gone]), by omega⟩,
        fun _ hs => ?_⟩
      cases h.busy.status.symm.trans hs

theorem course_advance (hexact : p.ExactWays q) (hb : w.actors[u]? = some b) (h : Course p q k b) :
    ∃ b', w.advance.actors[u]? = some b' ∧ Course p q (k + 1) b' ∧
      (w.Unobstructed p q → b.status ≠ .failed → b'.status ≠ .failed) := by
  obtain ⟨before, after, hkeys⟩ := exists_split hb
  obtain ⟨hbefore, hafter⟩ := actors_of_split hkeys
  rw [hafter]
  have hnow := hbefore.trans hb
  have hpassed (hs : b.status ≠ .inProgress) :
      ((before.foldl advanceUnit w).advanceUnit u).actors[u]? = some b := by
    rw [advanceUnit_of_rests hnow fun hbusy => absurd hbusy.status hs, hnow]
  cases h with
  | onWay h =>
    obtain ⟨hcourse, hgoes⟩ := course_walk (w := before.foldl advanceUnit w) h hexact
    rw [advanceUnit_of_busy hnow h.busy, h.activity]
    exact ⟨_, actors_modifyActor_self hnow _, hcourse,
      fun hfree _ => hgoes (hfree.opens (w.opens_foldl_advanceUnit before))⟩
  | arrived hs hposition hdue =>
    exact ⟨b, hpassed (by simp [hs]), .arrived hs hposition (Nat.le_succ_of_le hdue), fun _ => id⟩
  | failed hs => exact ⟨b, hpassed (by simp [hs]), .failed hs, fun _ => id⟩

/-- whatever happens to the others, the unit is on its way for as many steps as there are ticks; if there are no
obstacles and none are made, it is not stopped -/
theorem course_undergone (clear : Prop) (hexact : p.ExactWays q) (hspared : Spared u w xs)
    (hfills : clear → ∀ x ∈ xs, ¬ x.Fills) (hb : w.actors[u]? = some b) (h : OnWay p q 0 b)
    (hopen : clear → w.Unobstructed p q) :
    ∃ b', (w.undergone xs).actors[u]? = some b' ∧ Course p q (ticks xs) b' ∧ (clear → b'.status ≠ .failed) := by
  have hrun := undergone_induct (u := u) (Q := fun x => clear → ¬ x.Fills)
    (P := fun k w => ∃ b, w.actors[u]? = some b ∧ Course p q k b ∧ (clear → w.Unobstructed p q ∧ b.status ≠ .failed))
    ?_ ?_ (fun x hx ho => hfills ho x hx) hspared
    ⟨b, hb, .onWay h, fun ho => ⟨hopen ho, by simp [h.busy.status]⟩⟩
  · obtain ⟨b', hb', hcourse, hgoes⟩ := hrun
    exact ⟨b', hb', Nat.zero_add (ticks xs) ▸ hcourse, fun ho => (hgoes ho).2⟩
  · rintro k w x ⟨b, hb, hcourse, hgoes⟩ hfill hspares hx
    exact ⟨b, (actors_undergo hspares hx).trans hb, hcourse,
      fun ho => ⟨(hgoes ho).1.opens (opens_undergo (hfill ho)), (hgoes ho).2⟩⟩
  · rintro k w ⟨b, hb, hcourse, hgoes⟩
    obtain ⟨b', hb', hcourse', hgoes'⟩ := course_advance hexact hb hcourse
    exact ⟨b', hb', hcourse', fun ho =>
      ⟨(hgoes ho).1.opens (w.opens_foldl_advanceUnit _), hgoes' (hgoes ho).1 (hgoes ho).2⟩⟩

/-- **A move takes as many ticks as there are steps.** Tell a living unit to go to a passable cube, and let anything
happen that spares it. Where distances are not deceived on the shortest ways, the unit has arrived or failed once as
many ticks have passed as there are steps to its target, or one tick if it is there already. If no cube inside the
bounds is an obstacle, the unit stands inside them and no cube is filled meanwhile, then it is in progress up to that
tick and has arrived with it. -/
theorem move_arrives (w : Sandbox) (u : UnitId) (a : Actor) (target : Cube) (sprint : Bool)
    (ha : w.actors[u]? = some a) (halive : a.unit.alive = true) (hpassable : w.isPassable target = true)
    (hexact : a.unit.position.ExactWays target) (xs : List Incident)
    (hspared : Spared u (w.command u (.moveTo target sprint)) xs) :
    let due := max 1 (a.unit.position.manhattan target)
    let now := (w.command u (.moveTo target sprint)).undergone xs
    (due ≤ ticks xs → now.status u = .completed ∧ now.positionOf? u = some target ∨ now.status u = .failed) ∧
    ((∀ c, w.inBounds c = true → w.isPassable c = true) → w.inBounds a.unit.position = true →
      (∀ x ∈ xs, ¬ x.Fills) →
      (ticks xs < due → now.status u = .inProgress) ∧
      (due ≤ ticks xs → now.status u = .completed ∧ now.positionOf? u = some target)) := by
  intro due now
  have hstart : (w.command u (.moveTo target sprint)).actors[u]? =
      some { a with activity := .moving target, status := .inProgress } := by
    rw [command, hpassable]
    exact actors_start ha halive _ _
  have honWay : OnWay a.unit.position target 0 { a with activity := .moving target, status := .inProgress } :=
    ⟨⟨halive, rfl⟩, rfl, by simp [Cube.Between, Cube.manhattan_self], Cube.manhattan_self _, by omega⟩
  have hinside : w.inBounds target = true := (Bool.and_eq_true _ _ ▸ hpassable).1
  obtain ⟨b, hb, hcourse, hgoes⟩ := course_undergone
    ((∀ c, w.inBounds c = true → w.isPassable c = true) ∧ w.inBounds a.unit.position = true ∧ ∀ x ∈ xs, ¬ x.Fills)
    hexact hspared (fun ho => ho.2.2) hstart honWay
    fun ho => (Unobstructed.mk ho.1 ho.2.1 hinside).opens (w.opens_command u _)
  have hstatus : now.status u = b.status := by simp [now, Sandbox.status, hb]
  have hposition : now.positionOf? u = some b.unit.position := positionOf?_of_actor hb
  rw [hstatus, hposition]
  cases hcourse with
  | onWay h =>
    have hearly : ticks xs < due := h.early
    exact ⟨fun hdue => absurd hdue (Nat.not_le.2 hearly),
      fun _ _ _ => ⟨fun _ => h.busy.status, fun hdue => absurd hdue (Nat.not_le.2 hearly)⟩⟩
  | arrived hs hp hdue =>
    exact ⟨fun _ => .inl ⟨hs, congrArg some hp⟩,
      fun _ _ _ => ⟨fun hearly => absurd hdue (Nat.not_le.2 hearly), fun _ => ⟨hs, congrArg some hp⟩⟩⟩
  | failed hs =>
    exact ⟨fun _ => .inr hs, fun hfree hsource hfills => absurd hs (hgoes ⟨hfree, hsource, hfills⟩)⟩

/-- open ground with two units -/
def yard : Sandbox :=
  [{ id := ⟨7⟩, faction := ⟨1⟩, position := ⟨0, 0, 0⟩ },
    { id := ⟨8⟩, faction := ⟨2⟩, position := ⟨2, 2, 0⟩ }].foldl addUnit { size := ⟨3, 3, 1⟩ }

/-- while time passes twice, somebody comes to the yard, is slain there, and lets fall a log -/
def bustle : List Incident :=
  [.change (.addUnit { id := ⟨9⟩, faction := ⟨1⟩, position := ⟨2, 1, 0⟩ }), tick,
    .change (.event (.command ⟨8⟩ (.attack ⟨9⟩))), .drop .log ⟨2, 1, 0⟩, tick]

/-- two steps take two ticks -/
theorem move_arrives_yard :
    let begun := yard.command ⟨7⟩ (.moveTo ⟨1, 1, 0⟩ false)
    yard.isAlive ⟨7⟩ = true ∧ yard.isPassable ⟨1, 1, 0⟩ = true ∧ Cube.ExactWays ⟨0, 0, 0⟩ ⟨1, 1, 0⟩ ∧
      Spared ⟨7⟩ begun bustle ∧ ticks bustle = 2 ∧ (begun.undergone (bustle.take 4)).status ⟨7⟩ = .inProgress ∧
      (begun.undergone bustle).status ⟨7⟩ = .completed ∧
      (begun.undergone bustle).positionOf? ⟨7⟩ = some ⟨1, 1, 0⟩ := by
  intro begun
  have hunit : yard.actors[(⟨7⟩ : UnitId)]? =
      some { unit := { id := ⟨7⟩, faction := ⟨1⟩, position := ⟨0, 0, 0⟩ } } := by decide +kernel
  have hpassable : yard.isPassable ⟨1, 1, 0⟩ = true := by decide +kernel
  have hexact : Cube.ExactWays ⟨0, 0, 0⟩ ⟨1, 1, 0⟩ := by
    have hsquare : ∀ c ∈ ([⟨0, 0, 0⟩, ⟨1, 0, 0⟩, ⟨0, 1, 0⟩, ⟨1, 1, 0⟩] : List Cube), ∀ n ∈ c.adjacent,
        (c.distance ⟨1, 1, 0⟩ ≤ n.distance ⟨1, 1, 0⟩ ↔
          c.squaredDistance ⟨1, 1, 0⟩ ≤ n.squaredDistance ⟨1, 1, 0⟩) := by
      decide +kernel
    intro c n hbetween hn
    refine hsquare c ?_ n hn
    obtain ⟨hx, hy, hz⟩ := hbetween.axes
    simp only [Int64.toInt_zero, Int64.toInt_one] at hx hy hz
    have hx : c.x.toInt = 0 ∨ c.x.toInt = 1 := by omega
    have hy : c.y.toInt = 0 ∨ c.y.toInt = 1 := by omega
    have hz : c.z.toInt = 0 := by omega
    rcases hx with hx | hx <;> rcases hy with hy | hy <;> simp [Cube.ext_toInt, hx, hy, hz]
  have hspared : Spared ⟨7⟩ begun bustle := by
    simp [bustle, Spared, Incident.Spares, Change.Slays, Change.Frees, tick]
  have hspared' : Spared ⟨7⟩ begun (bustle.take 4) := by
    simp [bustle, Spared, Incident.Spares, Change.Slays, Change.Frees, tick]
  have hfree (c : Cube) (hc : yard.inBounds c = true) : yard.isPassable c = true := by
    rw [isPassable, hc]
    rfl
  have hfills : ∀ x ∈ bustle, ¬ x.Fills := by simp [bustle, Incident.Fills, tick]
  have harrives (xs : List Incident) (hxs : Spared ⟨7⟩ begun xs) :=
    (move_arrives yard ⟨7⟩ _ ⟨1, 1, 0⟩ false hunit rfl hpassable hexact xs hxs).2 hfree (by decide +kernel)
  obtain ⟨-, harrived⟩ := harrives bustle hspared hfills
  obtain ⟨hgoing, -⟩ := harrives (bustle.take 4) hspared' fun x hx => hfills x (List.mem_of_mem_take hx)
  exact ⟨by decide +kernel, hpassable, hexact, hspared, by decide, hgoing (by decide), harrived (by decide)⟩

end Sandbox

end Errand
