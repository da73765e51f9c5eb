/-
Walking: where the units of a sandbox come to stand.

A unit is moved in its own turn and by nobody else, one step at a time onto a passable cube, and what it reports of the
end of its way is true of the place where it stands (`Treads`). Commands and deaths move nobody, and work breaks rock
and trees but closes no cube (`Opens`). So whoever stands on a passable cube always will (`advance_treads`).
-/
import Errand.Proofs.Cube.Adjacent
import Errand.Proofs.Sandbox.Conservation

namespace Errand

namespace Sandbox

variable {w w' w'' : Sandbox} {u v : UnitId} {a b : Actor} {c target : Cube} {f : Actor → Actor}

/-! ## Steps -/

/-- what the turn of a unit may do to its place: `w` is the sandbox before the turn, `a` and `b` are the unit before and
after it -/
structure Treads (w : Sandbox) (a b : Actor) : Prop where
  /-- a unit that moves or follows goes one step, onto a passable cube; no other leaves its place -/
  step : b.unit.position ≠ a.unit.position →
    ((∃ target, a.activity = .moving target) ∨ ∃ target, a.activity = .following target) ∧
      a.unit.position.manhattan b.unit.position = 1 ∧ w.isPassable b.unit.position = true
  /-- a move is completed at its target -/
  arrived : ∀ target, a.activity = .moving target → a.status ≠ .completed → b.status = .completed →
    b.unit.position = target
  /-- a pursuit is completed beside a living unit -/
  caught : ∀ target, a.activity = .following target → a.status ≠ .completed → b.status = .completed →
    ∃ other, w.unit? target = some other ∧ other.alive = true ∧ b.unit.position.touches other.position = true
  /-- who fails has not moved -/
  failed : b.status = .failed → b.unit.position = a.unit.position

theorem Treads.refl (w : Sandbox) (a : Actor) : Treads w a a where
  step h := absurd rfl h
  arrived _ _ h h' := absurd h' h
  caught _ _ h h' := absurd h' h
  failed _ := rfl

/-- a walk is one step onto a passable cube, or none; it is completed where it should be, and fails on the spot -/
theorem walk_spec (hs : a.status = .inProgress) (goal : Cube) (arrived : Cube → Bool) :
    let b := w.walk a goal arrived
    (b.unit.position ≠ a.unit.position →
      a.unit.position.manhattan b.unit.position = 1 ∧ w.isPassable b.unit.position = true) ∧
    (b.status = .completed → arrived b.unit.position = true) ∧
    (b.status = .failed → b.unit.position = a.unit.position) := by
  intro b
  obtain ⟨harrived, hb⟩ | ⟨-, ⟨-, hb⟩ | ⟨n, hn, ⟨harrived, hb⟩ | ⟨-, hb⟩⟩⟩ := w.walk_cases a goal arrived
  · rw [show b = _ from hb]
    exact ⟨fun h => absurd rfl h, fun _ => harrived, nofun⟩
  · rw [show b = _ from hb]
    exact ⟨fun h => absurd rfl h, nofun, fun _ => rfl⟩
  all_goals
    obtain ⟨hadjacent, hpassable, -⟩ := mem_closer.1 (mem_of_stepToward? hn)
    rw [show b = _ from hb]
  · exact ⟨fun _ => ⟨Cube.mem_adjacent.1 hadjacent, hpassable⟩, fun _ => harrived, nofun⟩
  · refine ⟨fun _ => ⟨Cube.mem_adjacent.1 hadjacent, hpassable⟩, fun h => ?_, fun h => ?_⟩
    all_goals cases hs.symm.trans h

/-- **A turn moves its unit as it should** -/
theorem Turn.treads (hturn : Turn w u w') (ha : w.actors[u]? = some a) :
    ∃ b, w'.actors[u]? = some b ∧ Treads w a b := by
  cases hturn with
  | absent hnone => cases ha.symm.trans hnone
  | rests => exact ⟨a, ha, .refl w a⟩
  | moves ha' hbusy hmoving =>
    cases ha.symm.trans ha'
    obtain ⟨hstep, harrived, hfailed⟩ := walk_spec (w := w) hbusy.status _ _
    refine ⟨_, actors_modifyActor_self ha _, fun h => ⟨.inl ⟨_, hmoving⟩, hstep h⟩, fun t ht _ h => ?_,
      fun t ht => ?_, hfailed⟩
    · cases hmoving.symm.trans ht
      exact of_decide_eq_true (harrived h)
    · cases hmoving.symm.trans ht
  | works ha' hbusy hworking =>
    cases ha.symm.trans ha'
    refine ⟨_, actors_modifyActor_self ha _, fun h => absurd rfl h, fun t ht => ?_, fun t ht => ?_, fun _ => rfl⟩
    all_goals cases hworking.symm.trans ht
  | finishes ha' hbusy hworking =>
    cases ha.symm.trans ha'
    obtain ⟨item?, hb⟩ := actors_completeWork ha _
    refine ⟨_, actors_modifyActor_self hb _, fun h => absurd rfl h, fun t ht => ?_, fun t ht => ?_, fun _ => rfl⟩
    all_goals cases hworking.symm.trans ht
  | follows ha' hbusy hfollowing hother halive =>
    cases ha.symm.trans ha'
    obtain ⟨hstep, harrived, hfailed⟩ := walk_spec (w := w) hbusy.status _ _
    refine ⟨_, actors_modifyActor_self ha _, fun h => ⟨.inr ⟨_, hfollowing⟩, hstep h⟩, fun t ht => ?_,
      fun t ht _ h => ?_, hfailed⟩
    · cases hfollowing.symm.trans ht
    · cases hfollowing.symm.trans ht
      exact ⟨_, hother, halive, harrived h⟩
  | loses ha' hbusy hfollowing =>
    cases ha.symm.trans ha'
    refine ⟨_, actors_modifyActor_self ha _, fun h => absurd rfl h, fun t ht => ?_, fun t ht _ h => ?_, fun _ => rfl⟩
    · cases hfollowing.symm.trans ht
    · cases h

/-! ## Passable cubes -/

/-- as large, and passable wherever it was -/
structure Opens (w w' : Sandbox) : Prop where
  size : w'.size = w.size
  passable : ∀ c, w.isPassable c = true → w'.isPassable c = true

theorem Opens.refl (w : Sandbox) : Opens w w := ⟨rfl, fun _ => id⟩

theorem Opens.trans (h : Opens w w') (h' : Opens w' w'') : Opens w w'' :=
  ⟨h'.size.trans h.size, fun c hc => h'.passable c (h.passable c hc)⟩

theorem inBounds_congr (h : w'.size = w.size) (c : Cube) : w'.inBounds c = w.inBounds c := by
  simp only [inBounds, h]

/-- nothing is closed where the terrain is as before, or gone -/
theorem Opens.of_terrainAt (hsize : w'.size = w.size)
    (hterrain : ∀ c, w'.terrainAt c = w.terrainAt c ∨ w'.terrainAt c = .air) : Opens w w' := by
  refine ⟨hsize, fun c hc => ?_⟩
  rw [isPassable, Bool.and_eq_true] at hc ⊢
  refine ⟨(inBounds_congr hsize c).trans hc.1, ?_⟩
  obtain h | h := hterrain c
  · rw [h]
    exact hc.2
  · rw [h]
    rfl

theorem opens_modifyActor (w : Sandbox) (u : UnitId) (f : Actor → Actor) : Opens w (w.modifyActor u f) :=
  .of_terrainAt rfl fun _ => .inl rfl

theorem terrainAt_setTerrain (w : Sandbox) (c : Cube) (t : Terrain) (c' : Cube) :
    (w.setTerrain c t).terrainAt c' = if c = c' then t else w.terrainAt c' := by
  unfold setTerrain terrainAt
  by_cases ht : t = .air <;> by_cases hc : c = c' <;>
    simp [ht, hc, Std.ExtTreeMap.getElem?_erase, Std.ExtTreeMap.getElem?_insert]

/-- work leaves the terrain as it is, but for the cube that it is done at, which it may clear -/
theorem terrainAt_completeWork (w : Sandbox) (u : UnitId) (target c : Cube) :
    (w.completeWork u target).terrainAt c = w.terrainAt c ∨
      c = target ∧ (w.completeWork u target).terrainAt c = .air := by
  unfold completeWork
  repeat' split
  all_goals first
    | exact .inl rfl
    | change (w.setTerrain target .air).terrainAt c = w.terrainAt c ∨
        c = target ∧ (w.setTerrain target .air).terrainAt c = .air
      rw [terrainAt_setTerrain]
      by_cases h : target = c
      · exact .inr ⟨h.symm, if_pos h⟩
      · exact .inl (if_neg h)

theorem size_completeWork (w : Sandbox) (u : UnitId) (target : Cube) : (w.completeWork u target).size = w.size := by
  unfold completeWork
  repeat' split
  all_goals rfl

theorem opens_completeWork (w : Sandbox) (u : UnitId) (target : Cube) : Opens w (w.completeWork u target) :=
  .of_terrainAt (w.size_completeWork u target) fun c => (w.terrainAt_completeWork u target c).imp_right And.right

theorem Turn.opens (h : Turn w u w') : Opens w w' := by
  cases h with
  | absent | rests => exact .refl w
  | moves | works | follows | loses => exact w.opens_modifyActor u _
  | finishes => exact (w.opens_completeWork u _).trans (opens_modifyActor _ u _)

theorem opens_foldl_advanceUnit (w : Sandbox) (us : List UnitId) : Opens w (us.foldl advanceUnit w) :=
  List.foldlRecOn us advanceUnit (motive := Opens w) (.refl w) fun w' h u _ => h.trans (w'.turn u).opens

theorem opens_start (w : Sandbox) (u : UnitId) (activity : Activity) (status : ActionStatus) :
    Opens w (w.start u activity status) := w.opens_modifyActor u _

theorem opens_command (w : Sandbox) (u : UnitId) (c : Command) : Opens w (w.command u c) := by
  cases c with
  | attack target =>
    unfold command
    simp only []
    split
    · exact (w.opens_modifyActor target _).trans (opens_start _ u _ _)
    · exact w.opens_start u _ _
  | _ => exact w.opens_start u _ _

theorem opens_happen (w : Sandbox) (e : Event) : Opens w (w.happen e) := by
  cases e with
  | command u c => exact w.opens_command u c
  | abort u | kill u => exact w.opens_modifyActor u _
  | advance => exact w.opens_foldl_advanceUnit _

/-! ## Places -/

theorem positionOf?_congr (h : w'.actors[u]? = w.actors[u]?) : w'.positionOf? u = w.positionOf? u := by
  rw [positionOf?, positionOf?, unit?, unit?, h]

theorem positionOf?_of_actor (ha : w.actors[u]? = some a) : w.positionOf? u = some a.unit.position := by
  simp [positionOf?, unit?, ha]

theorem positionOf?_modifyActor (hf : ∀ a, (f a).unit.position = a.unit.position) (v : UnitId) :
    (w.modifyActor u f).positionOf? v = w.positionOf? v := by
  rw [positionOf?, unit?, actors_modifyActor]
  split
  · cases ha : w.actors[v]? <;> simp [positionOf?, unit?, ha, hf]
  · rfl

theorem positionOf?_start (w : Sandbox) (u : UnitId) (activity : Activity) (status : ActionStatus) (v : UnitId) :
    (w.start u activity status).positionOf? v = w.positionOf? v := by
  apply positionOf?_modifyActor
  intro a
  split <;> rfl

theorem positionOf?_kill (w : Sandbox) (u v : UnitId) : (w.kill u).positionOf? v = w.positionOf? v := by
  apply positionOf?_modifyActor
  exact fun _ => rfl

theorem positionOf?_abort (w : Sandbox) (u v : UnitId) : (w.abort u).positionOf? v = w.positionOf? v := by
  apply positionOf?_modifyActor
  exact fun _ => rfl

/-- **Nobody is moved by a command** -/
theorem positionOf?_command (w : Sandbox) (u : UnitId) (c : Command) (v : UnitId) :
    (w.command u c).positionOf? v = w.positionOf? v := by
  cases c with
  | attack target =>
    unfold command
    simp only []
    split
    · exact (positionOf?_start _ u _ _ v).trans (w.positionOf?_kill target v)
    · exact w.positionOf?_start u _ _ v
  | _ => exact w.positionOf?_start u _ _ v

/-- the unit stands on a passable cube -/
def Stands (w : Sandbox) (u : UnitId) : Prop := ∃ c, w.positionOf? u = some c ∧ w.isPassable c = true

/-- who is not moved still stands if no cube is closed -/
theorem Stands.stays (h : w.Stands u) (hopens : Opens w w') (hstays : w'.positionOf? u = w.positionOf? u) :
    w'.Stands u := by
  obtain ⟨c, hc, hpassable⟩ := h
  exact ⟨c, hstays.trans hc, hopens.passable c hpassable⟩

theorem Turn.stands (hturn : Turn w u w') (h : w.Stands v) : w'.Stands v := by
  by_cases huv : u = v
  · subst v
    obtain ⟨c, hc, hpassable⟩ := h
    cases ha : w.actors[u]? with
    | none => simp [positionOf?, unit?, ha] at hc
    | some a =>
      obtain ⟨b, hb, htreads⟩ := hturn.treads ha
      cases (positionOf?_of_actor ha).symm.trans hc
      refine ⟨_, positionOf?_of_actor hb, hturn.opens.passable _ ?_⟩
      by_cases hstep : b.unit.position = a.unit.position
      · rw [hstep]
        exact hpassable
      · exact (htreads.step hstep).2.2
  · exact h.stays hturn.opens (positionOf?_congr (hturn.actors_of_ne huv))

theorem Stands.happen (h : w.Stands u) (e : Event) : (w.happen e).Stands u := by
  cases e with
  | command v c => exact h.stays (w.opens_happen _) (w.positionOf?_command v c u)
  | abort v => exact h.stays (w.opens_happen _) (w.positionOf?_abort v u)
  | kill v => exact h.stays (w.opens_happen _) (w.positionOf?_kill v u)
  | advance =>
    exact List.foldlRecOn w.actors.keys advanceUnit (motive := fun w => w.Stands u) h
      fun w' h v _ => (w'.turn v).stands h

theorem Stands.after (h : w.Stands u) (events : List Event) : (w.after events).Stands u :=
  List.foldlRecOn events Sandbox.happen (motive := fun w => w.Stands u) h fun _ h e _ => h.happen e

/-- **Everybody treads on passable cubes.** Take the turn of any unit in a tick, in the sandbox as the units before it
have left it. Nobody else is moved. The unit itself is only moved if it moves or follows somebody, and then by one step
onto a passable cube; if a move is completed it is at its target, if a pursuit is completed the unit that was followed
is alive and at hand, and if the unit fails it is where it was. The place that it then has it keeps for the rest of the
tick. So whatever is commanded, whoever is killed and however much time passes, a unit that stands on a passable cube
never leaves such cubes. -/
theorem advance_treads (w : Sandbox) (u : UnitId) :
    (∀ before after, w.actors.keys = before ++ u :: after →
      let now := before.foldl advanceUnit w
      let next := now.advanceUnit u
      (∀ v, v ≠ u → next.positionOf? v = now.positionOf? v) ∧
      ∃ a b, w.actors[u]? = some a ∧ now.actors[u]? = some a ∧ next.actors[u]? = some b ∧
        w.advance.actors[u]? = some b ∧ Treads now a b) ∧
    ∀ events, w.Stands u → (w.after events).Stands u := by
  constructor
  · intro before after hkeys now next
    obtain ⟨hbefore, hafter⟩ := actors_of_split hkeys
    have hmem : u ∈ w.actors := Std.ExtTreeMap.mem_keys.1 (by simp [hkeys])
    have ha : w.actors[u]? = some w.actors[u] := getElem?_pos w.actors u hmem
    obtain ⟨b, hb, htreads⟩ := (now.turn u).treads (hbefore.trans ha)
    exact ⟨fun v hv => positionOf?_congr (actors_advanceUnit_of_ne hv.symm), _, b, ha, hbefore.trans ha, hb,
      hafter.trans hb, htreads⟩
  · exact fun events h => h.after events

/-- a corridor behind a rock, in which one unit goes on while another follows it -/
def corridor : Sandbox :=
  [{ id := ⟨7⟩, faction := ⟨1⟩, position := ⟨3, 0, 0⟩ },
    { id := ⟨8⟩, faction := ⟨1⟩, position := ⟨0, 0, 0⟩ }].foldl addUnit
      (({ size := ⟨6, 1, 1⟩ } : Sandbox).setTerrain ⟨5, 0, 0⟩ .rock) |>.after
    [.command ⟨7⟩ (.moveTo ⟨2, 0, 0⟩ false), .command ⟨8⟩ (.follow ⟨7⟩)]

/-- the pursuer's turn comes after that of the pursued, which has come nearer: one step, and it is beside it -/
theorem advance_treads_corridor :
    let now := corridor.advanceUnit ⟨7⟩
    corridor.actors.keys = [⟨7⟩] ++ ⟨8⟩ :: [] ∧ now.positionOf? ⟨7⟩ = some ⟨2, 0, 0⟩ ∧
      (∃ a b, now.actors[(⟨8⟩ : UnitId)]? = some a ∧ corridor.advance.actors[(⟨8⟩ : UnitId)]? = some b ∧
        b.status = .completed ∧ b.unit.position = ⟨1, 0, 0⟩ ∧ a.unit.position.manhattan b.unit.position = 1 ∧
        now.isPassable b.unit.position = true) ∧
      (corridor.after [.advance, .kill ⟨7⟩, .command ⟨8⟩ (.moveTo ⟨4, 0, 0⟩ true), .advance, .advance]).Stands ⟨8⟩ := by
  intro now
  have hkeys : corridor.actors.keys = [⟨7⟩] ++ ⟨8⟩ :: [] := by decide +kernel
  obtain ⟨hturns, hstands⟩ := advance_treads corridor ⟨8⟩
  obtain ⟨-, a, b, -, ha, -, hb, htreads⟩ := hturns _ _ hkeys
  have hbefore : now.actors[(⟨8⟩ : UnitId)]? = some
      { unit := { id := ⟨8⟩, faction := ⟨1⟩, position := ⟨0, 0, 0⟩ }, activity := .following ⟨7⟩,
        status := .inProgress } := by
    decide +kernel
  have hafter : corridor.advance.actors[(⟨8⟩ : UnitId)]? = some
      { unit := { id := ⟨8⟩, faction := ⟨1⟩, position := ⟨1, 0, 0⟩ }, status := .completed } := by
    decide +kernel
  cases hbefore.symm.trans ha
  cases hafter.symm.trans hb
  obtain ⟨-, hstep, hpassable⟩ := htreads.step (by decide)
  refine ⟨hkeys, by decide +kernel, ⟨_, _, ha, hb, rfl, rfl, hstep, hpassable⟩, hstands _ ⟨⟨0, 0, 0⟩, ?_, ?_⟩⟩
  · decide +kernel
  · decide +kernel

end Sandbox

end Errand
