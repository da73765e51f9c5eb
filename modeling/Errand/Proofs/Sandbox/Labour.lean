/-
Labour: when the work of a unit in a sandbox is done, and where.

Who is at work has a tick to go at least, and no more of them than work takes; its target is inside the bounds and at
hand (`AtWork`). All that can happen keeps this so (`Diligent.undergo`), because work is only begun within reach and a
unit stays in its place until it is done. A unit that is left alone counts its ticks down (`Shift`). Before the last of
them its turns move no item and break no terrain; in the last one its work is completed, at the target and nowhere else
(`turn_shift`).
-/
import Errand.Proofs.Sandbox.Incidents
import Errand.Proofs.Sandbox.Walking

namespace Errand

namespace Sandbox

open Incident

variable {w w' : Sandbox} {u v : UnitId} {a b : Actor} {c target : Cube} {remaining k n : Nat} {f : Actor → Actor}
  {x : Incident} {xs : List Incident} {r : Resident}

/-! ## Work within reach -/

/-- the unit can go on with its work, which takes `n` ticks -/
structure AtWork (w : Sandbox) (n : Nat) (a : Actor) (target : Cube) (remaining : Nat) : Prop where
  least : 1 ≤ remaining
  most : remaining ≤ n
  inside : w.inBounds target = true
  near : a.unit.position.touches target = true

/-- work takes `n` ticks, which is one at least, and everybody who is at work can go on with it -/
structure Diligent (w : Sandbox) (n : Nat) : Prop where
  least : 1 ≤ n
  length : w.workTicks = n
  atWork : ∀ (u : UnitId) (a : Actor) (target : Cube) (remaining : Nat), w.actors[u]? = some a →
    a.status = .inProgress → a.activity = .working target remaining → w.AtWork n a target remaining

theorem AtWork.congr (h : w.AtWork n a target remaining) (hsize : w'.size = w.size) :
    w'.AtWork n a target remaining :=
  ⟨h.least, h.most, (inBounds_congr hsize target).trans h.inside, h.near⟩

theorem Diligent.congr (h : w.Diligent n) (hsize : w'.size = w.size) (hticks : w'.workTicks = w.workTicks)
    (hactors : w'.actors = w.actors) : w'.Diligent n :=
  ⟨h.least, hticks.trans h.length, fun u b target remaining hb hs hworking =>
    (h.atWork u b target remaining (hactors ▸ hb) hs hworking).congr hsize⟩

/-- one unit is changed, and can go on with its work if it has any -/
theorem Diligent.of_others (h : w.Diligent n) (hsize : w'.size = w.size) (hticks : w'.workTicks = w.workTicks)
    (hothers : ∀ v, v ≠ u → w'.actors[v]? = w.actors[v]?)
    (hself : ∀ b target remaining, w'.actors[u]? = some b → b.status = .inProgress →
      b.activity = .working target remaining → w.AtWork n b target remaining) : w'.Diligent n := by
  refine ⟨h.least, hticks.trans h.length, fun v b target remaining hb hs hworking => ?_⟩
  by_cases hv : v = u
  · subst v
    exact (hself b target remaining hb hs hworking).congr hsize
  · exact (h.atWork v b target remaining ((hothers v hv).symm.trans hb) hs hworking).congr hsize

theorem Diligent.modifyActor (h : w.Diligent n) (hf : ∀ a target remaining, w.actors[u]? = some a →
      (f a).status = .inProgress → (f a).activity = .working target remaining → w.AtWork n (f a) target remaining) :
    (w.modifyActor u f).Diligent n := by
  refine h.of_others (u := u) ?_ ?_ ?_ ?_
  · rfl
  · rfl
  · exact fun v hv => actors_modifyActor_of_ne hv.symm f
  · intro b target remaining hb hs hworking
    cases ha : w.actors[u]? with
    | none => simp [actors_modifyActor, ha] at hb
    | some a =>
      cases (actors_modifyActor_self ha f).symm.trans hb
      exact hf a target remaining ha hs hworking

/-- the unit is at work no longer, if it was -/
theorem Diligent.leaves (h : w.Diligent n)
    (hf : ∀ a target remaining, w.actors[u]? = some a → (f a).activity ≠ .working target remaining) :
    (w.modifyActor u f).Diligent n :=
  h.modifyActor fun a target remaining ha _ hworking => absurd hworking (hf a target remaining ha)

/-- work is begun by a living unit within reach -/
theorem Diligent.start (h : w.Diligent n) {activity : Activity} {status : ActionStatus}
    (hstart : ∀ a target remaining, w.actors[u]? = some a → status = .inProgress →
      activity = .working target remaining → w.AtWork n a target remaining) :
    (w.start u activity status).Diligent n := by
  apply h.modifyActor
  intro a target remaining ha hs hworking
  split at hs
  · rename_i halive
    simp only [halive, if_true] at hworking ⊢
    have hwork := hstart a target remaining ha hs hworking
    exact ⟨hwork.least, hwork.most, hwork.inside, hwork.near⟩
  · cases hs

/-- whatever else is begun is no work -/
theorem Diligent.start_other (h : w.Diligent n) {activity : Activity} (status : ActionStatus)
    (hother : ∀ target remaining, activity ≠ .working target remaining) : (w.start u activity status).Diligent n :=
  h.start fun _ target remaining _ _ hworking => absurd hworking (hother target remaining)

theorem Diligent.kill (h : w.Diligent n) (u : UnitId) : (w.kill u).Diligent n := by
  apply h.leaves
  exact fun _ _ _ _ => nofun

theorem Diligent.abort (h : w.Diligent n) (u : UnitId) : (w.abort u).Diligent n := by
  apply h.leaves
  exact fun _ _ _ _ => nofun

theorem begun_eq_inProgress {possible : Bool} : begun possible = .inProgress ↔ possible = true := by
  cases possible <;> simp [begun]

theorem Diligent.command (h : w.Diligent n) (u : UnitId) (c : Command) : (w.command u c).Diligent n := by
  cases c with
  | moveTo | follow => exact h.start_other _ fun _ _ => nofun
  | attack target =>
    unfold Sandbox.command
    simp only []
    split
    · exact (h.kill target).start_other _ fun _ _ => nofun
    · exact h.start_other _ fun _ _ => nofun
  | workAt target =>
    refine h.start fun a target remaining ha hs hworking => ?_
    cases hworking
    have hreach := begun_eq_inProgress.1 hs
    rw [canReach, positionOf?_of_actor ha, Bool.and_eq_true] at hreach
    exact ⟨h.length ▸ h.least, h.length.le, hreach.2, hreach.1⟩

/-! ## Turns -/

/-- walking does not turn into work -/
theorem activity_walk_ne (h : a.activity ≠ .working target remaining) (goal : Cube) (arrived : Cube → Bool) :
    (w.walk a goal arrived).activity ≠ .working target remaining := by
  obtain ⟨-, hb⟩ | ⟨-, ⟨-, hb⟩ | ⟨n, -, ⟨-, hb⟩ | ⟨-, hb⟩⟩⟩ := w.walk_cases a goal arrived
  all_goals rw [hb]
  · nofun
  · nofun
  · nofun
  · exact h

theorem workTicks_completeWork (w : Sandbox) (u : UnitId) (target : Cube) :
    (w.completeWork u target).workTicks = w.workTicks := by
  unfold completeWork
  repeat' split
  all_goals rfl

theorem Turn.diligent (hturn : Turn w u w') (h : w.Diligent n) : w'.Diligent n := by
  cases hturn with
  | absent | rests => exact h
  | moves ha _ hactivity | follows ha _ hactivity =>
    refine h.leaves fun b target remaining hb => ?_
    cases ha.symm.trans hb
    exact activity_walk_ne (by simp [hactivity]) _ _
  | works ha hbusy hworking hmore =>
    refine h.modifyActor fun a target remaining ha' _ hworking' => ?_
    cases ha.symm.trans ha'
    cases hworking'
    have hwork := h.atWork _ _ _ _ ha hbusy.status hworking
    have hmost := hwork.most
    exact ⟨by omega, by omega, hwork.inside, hwork.near⟩
  | finishes ha =>
    obtain ⟨item?, hb⟩ := actors_completeWork ha _
    refine h.of_others (u := u) (w.size_completeWork u _) (w.workTicks_completeWork u _) ?_ ?_
    · exact fun v hv => (actors_modifyActor_of_ne hv.symm _).trans (actors_completeWork_of_ne hv.symm _)
    · intro b' target remaining hb' _ hworking
      cases (actors_modifyActor_self hb _).symm.trans hb'
      cases hworking
  | loses => exact h.leaves fun _ _ _ _ => nofun

theorem Diligent.foldl_advanceUnit (h : w.Diligent n) (us : List UnitId) : (us.foldl advanceUnit w).Diligent n :=
  List.foldlRecOn us advanceUnit (motive := (·.Diligent n)) h fun w' h u _ => (w'.turn u).diligent h

/-- **Nothing makes anybody work out of reach or overtime** -/
theorem Diligent.undergo (h : w.Diligent n) (x : Incident) : (w.undergo x).Diligent n := by
  cases x with
  | drop i c => cases i <;> exact h.congr rfl rfl rfl
  | change x =>
    cases x with
    | setTerrain c t => exact h.congr rfl rfl rfl
    | addUnit r =>
      refine h.of_others (u := r.id) ?_ ?_ ?_ ?_
      · rfl
      · rfl
      · exact fun v hv => (w.actors_addUnit r v).trans (if_neg hv.symm)
      · intro b target remaining hb hs
        cases (w.actors_addUnit r r.id).symm.trans hb |>.symm.trans (if_pos rfl)
        cases hs
    | event e =>
      cases e with
      | command u c => exact h.command u c
      | abort u => exact h.abort u
      | kill u => exact h.kill u
      | advance => exact h.foldl_advanceUnit _

theorem Diligent.undergone (h : w.Diligent n) (xs : List Incident) : (w.undergone xs).Diligent n :=
  List.foldlRecOn xs Sandbox.undergo (motive := (·.Diligent n)) h fun _ h x _ => h.undergo x

/-! ## What work concerns -/

/-- nothing has been moved or broken, and nobody has been changed but for what he is about -/
structure SameGoods (w w' : Sandbox) : Prop where
  terrain : w'.terrain = w.terrain
  lying : ∀ i, w'.lying i = w.lying i
  units : ∀ v, w'.unit? v = w.unit? v

/-- what has been moved or broken was at one cube, and only in the hands of one unit anything has changed -/
structure GoodsAt (w w' : Sandbox) (u : UnitId) (target : Cube) : Prop where
  terrain : ∀ c, c ≠ target → w'.terrainAt c = w.terrainAt c
  lying : ∀ i, (w'.lying i).filter (· ≠ target) = (w.lying i).filter (· ≠ target)
  own : ∃ item?, w'.unit? u = (w.unit? u).map ({ · with carrying? := item? })
  others : ∀ v, v ≠ u → w'.unit? v = w.unit? v

theorem filter_ne_erase (cs : List Cube) (c : Cube) :
    (cs.erase c).filter (fun d => !decide (d = c)) = cs.filter (fun d => !decide (d = c)) := by
  induction cs with
  | nil => rfl
  | cons d cs ih =>
    rw [List.erase_cons]
    by_cases h : d = c <;> simp [h, ih]

theorem unit?_congr (h : w'.actors[u]? = w.actors[u]?) : w'.unit? u = w.unit? u := by
  rw [unit?, unit?, h]

theorem unit?_of_actor (ha : w.actors[u]? = some a) : w.unit? u = some a.unit := by
  rw [unit?, ha]
  rfl

theorem sameGoods_modifyActor (hf : ∀ a, (f a).unit = a.unit) : SameGoods w (w.modifyActor u f) where
  terrain := rfl
  lying i := by cases i <;> rfl
  units v := by
    rw [unit?, actors_modifyActor]
    split
    · cases ha : w.actors[v]? <;> simp [unit?, ha, hf]
    · rfl

theorem sameGoods_start (w : Sandbox) (u : UnitId) (activity : Activity) (status : ActionStatus) :
    SameGoods w (w.start u activity status) := by
  apply sameGoods_modifyActor
  intro a
  split <;> rfl

theorem goodsAt_completeWork (ha : w.actors[u]? = some a) (target : Cube) :
    GoodsAt w (w.completeWork u target) u target where
  terrain c hc := (w.terrainAt_completeWork u target c).resolve_right fun h => hc h.1
  lying i := by
    unfold completeWork
    repeat' split
    all_goals cases i <;> simp [lying, carry, modifyActor, addBoulder, addLog, setTerrain, filter_ne_erase]
  own := by
    obtain ⟨item?, hb⟩ := actors_completeWork ha target
    exact ⟨item?, by rw [unit?_of_actor hb, unit?_of_actor ha]; rfl⟩
  others v hv := unit?_congr (actors_completeWork_of_ne hv.symm target)

theorem GoodsAt.trans_same {w'' : Sandbox} (h : GoodsAt w w' u target) (h' : SameGoods w' w'') :
    GoodsAt w w'' u target where
  terrain c hc := by
    rw [terrainAt, h'.terrain]
    exact h.terrain c hc
  lying i := by rw [h'.lying, h.lying]
  own := by
    rw [h'.units]
    exact h.own
  others v hv := (h'.units v).trans (h.others v hv)

/-! ## Shifts -/

/-- the unit `k` ticks after it has begun work that takes `n`: it has counted them down, or it is done -/
inductive Shift (start : Resident) (target : Cube) (n k : Nat) (b : Actor) : Prop
  | working (hunit : b.unit = start) (hactivity : b.activity = .working target (n - k))
      (hs : b.status = .inProgress) (hmore : k < n)
  | done (hs : b.status = .completed) (hdone : n ≤ k)

variable {start : Resident}

theorem advanceUnit_shift (halive : start.alive = true) (hb : w.actors[u]? = some b) (h : Shift start target n k b) :
    w.advanceUnit u =
      if n ≤ k then w
      else if k + 1 = n then
        (w.completeWork u target).modifyActor u fun a => Actor.ended a .completed a.unit.position
      else w.modifyActor u ({ · with activity := .working target (n - (k + 1)) }) := by
  cases h with
  | working hunit hactivity hs hmore =>
    rw [advanceUnit_of_busy hb ⟨hunit ▸ halive, hs⟩, hactivity, if_neg (Nat.not_le.2 hmore)]
    simp only []
    by_cases hlast : k + 1 = n
    · rw [if_pos hlast, if_neg (by omega)]
    · rw [if_neg hlast, if_pos (by omega), Nat.sub_sub]
  | done hs hdone => rw [if_pos hdone, advanceUnit_of_rests hb fun hbusy => by cases hs.symm.trans hbusy.status]

/-- **A turn of a shift**: before the last one nothing is moved or broken, in the last one the work is completed, within
reach and with no effect elsewhere, and after that there is nothing to do -/
theorem turn_shift (hdiligent : w.Diligent n) (halive : start.alive = true) (hb : w.actors[u]? = some b)
    (h : Shift start target n k b) :
    let next := w.advanceUnit u
    (k + 1 < n → SameGoods w next) ∧
    (k + 1 = n → w.canReach u target = true ∧ GoodsAt w next u target ∧
      next = (w.completeWork u target).modifyActor u fun a => Actor.ended a .completed a.unit.position) ∧
    (n ≤ k → next = w) := by
  intro next
  have hnext : next = _ := advanceUnit_shift halive hb h
  refine ⟨fun hmore => ?_, fun hlast => ?_, fun hdone => ?_⟩
  · rw [hnext, if_neg (by omega), if_neg (by omega)]
    exact sameGoods_modifyActor fun _ => rfl
  · rw [if_neg (by omega), if_pos hlast] at hnext
    cases h with
    | working hunit hactivity hs =>
      have hwork := hdiligent.atWork u b target _ hb hs hactivity
      refine ⟨?_, ?_, hnext⟩
      · rw [canReach, positionOf?_of_actor hb, hwork.inside]
        exact Bool.and_eq_true_iff.2 ⟨hwork.near, rfl⟩
      · rw [hnext]
        exact (goodsAt_completeWork hb target).trans_same (sameGoods_modifyActor fun _ => rfl)
    | done hs hdone => exact absurd hdone (by omega)
  · rw [hnext, if_pos hdone]

theorem shift_advance (halive : start.alive = true) (hb : w.actors[u]? = some b) (h : Shift start target n k b) :
    ∃ b', w.advance.actors[u]? = some b' ∧ Shift start target n (k + 1) b' := by
  obtain ⟨w', hsame, hafter⟩ := w.actors_advance u
  have hb' := hsame.trans hb
  rw [hafter, advanceUnit_shift halive hb' h]
  cases h with
  | working hunit hactivity hs hmore =>
    rw [if_neg (Nat.not_le.2 hmore)]
    by_cases hlast : k + 1 = n
    · obtain ⟨item?, hdone⟩ := actors_completeWork hb' target
      rw [if_pos hlast]
      exact ⟨_, actors_modifyActor_self hdone _, .done rfl hlast.ge⟩
    · rw [if_neg hlast]
      exact ⟨_, actors_modifyActor_self hb' _, .working hunit rfl hs (by omega)⟩
  | done hs hdone =>
    rw [if_pos hdone]
    exact ⟨b, hb', .done hs (Nat.le_succ_of_le hdone)⟩

/-- as long as the unit is spared, every tick is one of its shift -/
theorem shift_undergone (halive : start.alive = true) (hspared : Spared u w xs) (hb : w.actors[u]? = some b)
    (h : Shift start target n 0 b) :
    ∃ b', (w.undergone xs).actors[u]? = some b' ∧ Shift start target n (ticks xs) b' := by
  have hrun := undergone_induct (u := u) (Q := fun _ => True)
    (P := fun k w => ∃ b, w.actors[u]? = some b ∧ Shift start target n k b) ?_ ?_ (fun _ _ => trivial) hspared
    ⟨b, hb, h⟩
  · rwa [Nat.zero_add] at hrun
  · rintro k w x ⟨b, hb, h⟩ - hspares hx
    exact ⟨b, (actors_undergo hspares hx).trans hb, h⟩
  · rintro k w ⟨b, hb, h⟩
    exact shift_advance halive hb h

/-- work that has been accepted is that of a living unit within reach -/
theorem workAt_accepted (h : (w.command u (.workAt target)).status u = .inProgress) :
    ∃ a, w.actors[u]? = some a ∧ a.unit.alive = true ∧
      (w.command u (.workAt target)).actors[u]? =
        some { a with activity := .working target w.workTicks, status := .inProgress } := by
  cases ha : w.actors[u]? with
  | none => simp [Sandbox.status, command, Sandbox.start, actors_modifyActor, ha] at h
  | some a =>
    cases halive : a.unit.alive with
    | false =>
      have hdead : w.isAlive u = false := by simp [isAlive, unit?, ha, halive]
      have hfails := (failsOnly_start hdead (.working target w.workTicks) (begun (w.canReach u target))).own
      simp [Sandbox.status, command, hfails, ha] at h
    | true =>
      have hbegun := actors_start ha halive (.working target w.workTicks) (begun (w.canReach u target))
      have hs : begun (w.canReach u target) = .inProgress := by simpa [Sandbox.status, command, hbegun] using h
      exact ⟨a, rfl, halive, hs ▸ hbegun⟩

/-- **Work is applied once, within reach, after its time.** Let anything happen to a sandbox that has no units in the
beginning, whose work takes `n` ticks, or one if `n` is none. Whoever is at work has a tick to go at least and no
more than work takes, and a target inside the bounds and at hand. Now let a unit be told to work, and let it begin.
As long as it is spared it is in progress up to the last of these ticks, unchanged, and has completed its work with
that one. In its turns before the last one nothing is moved, broken or handed over; in the last one its work is
completed, within reach and with no effect but at its target and in its own hands; and its turns after that leave the
sandbox as it was. -/
theorem work_applied_once (w : Sandbox) (n : Nat) (hempty : w.actors = ∅) (xs : List Incident) :
    let now := (w.withWorkTicks n).undergone xs
    let due := max n 1
    now.workTicks = due ∧
    (∀ (u : UnitId) (a : Actor) (target : Cube) (remaining : Nat), now.actors[u]? = some a → a.status = .inProgress →
      a.activity = .working target remaining →
      1 ≤ remaining ∧ remaining ≤ due ∧ now.inBounds target = true ∧ a.unit.position.touches target = true) ∧
    ∀ (u : UnitId) (target : Cube), (now.command u (.workAt target)).status u = .inProgress →
      SameGoods now (now.command u (.workAt target)) ∧
      ∀ ys, Spared u (now.command u (.workAt target)) ys →
        let later := (now.command u (.workAt target)).undergone ys
        (ticks ys < due → later.status u = .inProgress ∧ later.unit? u = now.unit? u) ∧
        (due ≤ ticks ys → later.status u = .completed) ∧
        ∀ before after, later.actors.keys = before ++ u :: after →
          let turn := before.foldl advanceUnit later
          let next := turn.advanceUnit u
          (ticks ys + 1 < due → SameGoods turn next) ∧
          (ticks ys + 1 = due → turn.canReach u target = true ∧ GoodsAt turn next u target ∧
            next = (turn.completeWork u target).modifyActor u fun a => Actor.ended a .completed a.unit.position) ∧
          (due ≤ ticks ys → next = turn) := by
  intro now due
  have hbegin : (w.withWorkTicks n).Diligent due := by
    refine ⟨Nat.le_max_right n 1, rfl, fun u a target remaining ha => ?_⟩
    have hnobody : (w.withWorkTicks n).actors = ∅ := hempty
    simp [hnobody] at ha
  have hnow := hbegin.undergone xs
  refine ⟨hnow.length, fun u a target remaining ha hs hworking => ?_, fun u target haccepted =>
    ⟨now.sameGoods_start u _ _, fun ys hspared => ?_⟩⟩
  · obtain ⟨hleast, hmost, hinside, hnear⟩ := hnow.atWork u a target remaining ha hs hworking
    exact ⟨hleast, hmost, hinside, hnear⟩
  obtain ⟨a, ha, halive, hstart⟩ := workAt_accepted haccepted
  intro later
  have hbegun : Shift a.unit target due 0 { a with activity := .working target now.workTicks, status := .inProgress } :=
    .working rfl (by rw [hnow.length]; rfl) rfl hnow.least
  obtain ⟨b, hb, hshift⟩ := shift_undergone halive hspared hstart hbegun
  have hstatus : later.status u = b.status := by simp [later, Sandbox.status, hb]
  refine ⟨fun hearly => ?_, fun hdue => ?_, fun before after hkeys => ?_⟩
  · obtain ⟨hunit, -, hs, -⟩ | ⟨-, hdone⟩ := hshift
    · exact ⟨hstatus.trans hs, by rw [unit?_of_actor hb, unit?_of_actor ha, hunit]⟩
    · exact absurd hdone (Nat.not_le.2 hearly)
  · obtain ⟨-, -, -, hmore⟩ | ⟨hs, -⟩ := hshift
    · exact absurd hdue (Nat.not_le.2 hmore)
    · exact hstatus.trans hs
  · have hlater : later.Diligent due := (hnow.command u (.workAt target)).undergone ys
    exact turn_shift (hlater.foldl_advanceUnit before) halive ((actors_of_split hkeys).1.trans hb) hshift

/-- a rock between two units, who are told to work on it, the second one tick before the first -/
def quarry : List Incident :=
  [.change (.setTerrain ⟨1, 0, 0⟩ .rock), .change (.addUnit { id := ⟨7⟩, faction := ⟨1⟩, position := ⟨0, 0, 0⟩ }),
    .change (.addUnit { id := ⟨8⟩, faction := ⟨2⟩, position := ⟨2, 0, 0⟩ }),
    .change (.event (.command ⟨8⟩ (.workAt ⟨1, 0, 0⟩))), tick]

/-- the rock is broken by the second unit, and the first one picks up the boulder when its own time has come -/
theorem work_applied_once_quarry :
    let now := (({ size := ⟨3, 1, 1⟩ } : Sandbox).withWorkTicks 2).undergone quarry
    let begun := now.command ⟨7⟩ (.workAt ⟨1, 0, 0⟩)
    let later := begun.undergone [tick]
    now.workTicks = 2 ∧ begun.status ⟨7⟩ = .inProgress ∧ Spared ⟨7⟩ begun [tick, tick] ∧
      later.status ⟨7⟩ = .inProgress ∧ later.terrainAt ⟨1, 0, 0⟩ = .air ∧ later.boulders = [⟨1, 0, 0⟩] ∧
      later.actors.keys = [] ++ ⟨7⟩ :: [⟨8⟩] ∧ GoodsAt later (later.advanceUnit ⟨7⟩) ⟨7⟩ ⟨1, 0, 0⟩ ∧
      (begun.undergone [tick, tick]).status ⟨7⟩ = .completed ∧ (begun.undergone [tick, tick]).boulders = [] := by
  intro now begun later
  obtain ⟨hlength, -, hwork⟩ := work_applied_once { size := ⟨3, 1, 1⟩ } 2 rfl quarry
  have haccepted : begun.status ⟨7⟩ = .inProgress := by decide +kernel
  have hspared : Spared ⟨7⟩ begun [tick] := by simp [Spared, Incident.Spares, Change.Slays, Change.Frees, tick]
  have hspared' : Spared ⟨7⟩ begun [tick, tick] := by simp [Spared, Incident.Spares, Change.Slays, Change.Frees, tick]
  have hkeys : later.actors.keys = [] ++ ⟨7⟩ :: [⟨8⟩] := by decide +kernel
  obtain ⟨-, hshift⟩ := hwork ⟨7⟩ ⟨1, 0, 0⟩ haccepted
  obtain ⟨hgoing, -, hturns⟩ := hshift [tick] hspared
  obtain ⟨-, hdone, -⟩ := hshift [tick, tick] hspared'
  obtain ⟨-, hlast, -⟩ := hturns [] [⟨8⟩] hkeys
  exact ⟨hlength, haccepted, hspared', (hgoing (by decide)).1, by decide +kernel, by decide +kernel, hkeys,
    (hlast (by decide)).2.1, hdone (by decide), by decide +kernel⟩

end Sandbox

end Errand
