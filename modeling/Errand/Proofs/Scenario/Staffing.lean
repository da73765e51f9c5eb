/-
Staffing: which schedulers a scenario gets, and which task stands where in their pools.

A faction gets a scheduler when it has a unit in the sandbox or an order (`mem_factions`); of the units of a layout with
one number the last is in the sandbox (`Remains`). The orders come to a list of shares, one for each task that they ask
for; the place of a share in this list is the number of its task, and the share says all about it (`get?_setup`). The
pools start empty, and each share enters that of its faction when its turn comes (`scheduler?_carryOut`). So the members
of a pool are the shares of its faction in order, and it gives them away in this order up to priority
(`Scheduler.ordered_eq_mergeSort`). `setup_staffs` puts this together.
-/
import Errand.Proofs.Scenario.Setup
import Errand.Proofs.Scheduler.Order

namespace Errand

/-! ## Factions -/

namespace Sandbox

theorem mem_factions {w : Sandbox} {f : FactionId} :
    f ∈ w.factions ↔ ∃ (i : UnitId) (a : Actor), w.actors[i]? = some a ∧ a.unit.faction = f := by
  rw [factions, Std.ExtTreeMap.foldl_eq_foldl_toList,
    FactionId.mem_foldl_insert fun b : UnitId × Actor => b.2.unit.faction]
  simp [Std.ExtTreeMap.mem_toList_iff_getElem?_eq_some]

/-- the unit is listed, and no unit behind it has its number -/
def Remains (us : List Resident) (u : Resident) : Prop :=
  ∃ before behind, us = before ++ u :: behind ∧ ∀ v ∈ behind, v.id ≠ u.id

/-- a unit at the end remains, and displaces those with its number -/
theorem remains_concat {us : List Resident} {u last : Resident} :
    Remains (us ++ [last]) u ↔ u = last ∨ Remains us u ∧ u.id ≠ last.id := by
  constructor
  · rintro ⟨before, behind, hus, hbehind⟩
    obtain rfl | ⟨behind, last', rfl⟩ := List.eq_nil_or_concat behind
    · exact .inl (List.singleton_inj.1 (List.append_inj' hus rfl).2).symm
    · rw [List.concat_eq_append] at hus hbehind
      obtain ⟨rfl, hlast⟩ := List.append_inj' (hus.trans (List.append_assoc before (u :: behind) [last']).symm) rfl
      obtain rfl := List.singleton_inj.1 hlast
      exact .inr ⟨⟨before, behind, rfl, fun v hv => hbehind v (by simp [hv])⟩, (hbehind last (by simp)).symm⟩
  · rintro (rfl | ⟨⟨before, behind, rfl, hbehind⟩, hlast⟩)
    · exact ⟨us, [], rfl, by simp⟩
    · refine ⟨before, behind ++ [last], by simp, fun v hv => ?_⟩
      rcases List.mem_append.1 hv with hv | hv
      · exact hbehind v hv
      · rw [List.mem_singleton.1 hv]
        exact hlast.symm

/-- adding units in turn leaves those that remain; the induction takes them from the end, where it is decided -/
theorem actors_addUnits {w : Sandbox} (hw : w.actors = ∅) (us : List Resident) (i : UnitId) (a : Actor) :
    (us.foldl addUnit w).actors[i]? = some a ↔ ∃ u, Remains us u ∧ u.id = i ∧ a = { unit := u } := by
  induction us using List.reverseRecOn with
  | nil => simp [hw, Remains]
  | append_singleton us last ih =>
    rw [List.foldl_append, List.foldl_cons, List.foldl_nil, addUnit, Std.ExtTreeMap.getElem?_insert]
    simp only [remains_concat, Std.compare_eq_iff_eq]
    by_cases hi : last.id = i
    · rw [if_pos hi]
      constructor
      · intro ha
        exact ⟨last, .inl rfl, hi, (Option.some.inj ha).symm⟩
      · rintro ⟨u, rfl | ⟨-, hne⟩, hu, rfl⟩
        · rfl
        · exact absurd (hu.trans hi.symm) hne
    · rw [if_neg hi, ih]
      constructor
      · rintro ⟨u, hr, hu, ha⟩
        exact ⟨u, .inr ⟨hr, fun he => hi (he ▸ hu)⟩, hu, ha⟩
      · rintro ⟨u, rfl | ⟨hr, -⟩, hu, ha⟩
        · exact absurd hu hi
        · exact ⟨u, hr, hu, ha⟩

end Sandbox

theorem Layout.actors_build (l : Layout) (workTicks : Nat) (i : UnitId) (a : Actor) :
    (l.build workTicks).actors[i]? = some a ↔ ∃ u, Sandbox.Remains l.units u ∧ u.id = i ∧ a = { unit := u } := by
  refine Sandbox.actors_addUnits ?_ l.units i a
  refine List.foldlRecOn l.terrain _ (motive := fun w => Sandbox.actors w = ∅) rfl fun w hw p _ => hw

theorem Scenario.mem_factions (s : Scenario) (workTicks : Nat) (f : FactionId) :
    f ∈ s.factions (s.layout.build workTicks) ↔
      (∃ u, Sandbox.Remains s.layout.units u ∧ u.faction = f) ∨ ∃ o ∈ s.orders, o.faction = f := by
  rw [factions, FactionId.mem_foldl_insert Order.faction, Sandbox.mem_factions]
  simp only [Layout.actors_build]
  constructor
  · rintro (⟨-, -, ⟨u, hr, -, rfl⟩, rfl⟩ | ho)
    · exact .inl ⟨u, hr, rfl⟩
    · exact .inr ho
  · rintro (⟨u, hr, rfl⟩ | ho)
    · exact .inl ⟨u.id, { unit := u }, ⟨u, hr, rfl, rfl⟩, rfl⟩
    · exact .inr ho

/-! ## Shares -/

/-- one task that is asked for: the order, and what is selected for the task -/
structure Share where
  order : Order
  selection : Selection

/-- a share for each selected cube; without cubes one share without a selection -/
def Order.shares (o : Order) : List Share :=
  match o.selections with
  | [] => [⟨o, {}⟩]
  | cubes => cubes.map fun c => ⟨o, .ofCube c⟩

namespace Share

def task (e : Share) : Task :=
  (Task.make e.order.template.name e.order.template.priority e.order.template.body).withSelection e.selection

/-- a task that is as its share has it, and waits -/
structure Filled (e : Share) (task : Task) : Prop where
  waits : task.Waits
  initial : task.initial = .empty
  name : task.name = e.order.template.name
  priority : task.priority = e.order.template.priority
  body : task.body = e.order.template.body.reset
  selection : task.selection = e.selection

theorem filled_join (e : Share) (s : SchedulerId) : e.Filled (e.task.enrolled.join s) where
  waits := e.task.waits_enrolled.join s
  initial := rfl
  name := rfl
  priority := rfl
  body := Stmt.reset_reset _
  selection := rfl

end Share

namespace Order

variable {o : Order}

theorem order_of_mem_shares {e : Share} (h : e ∈ o.shares) : e.order = o := by
  unfold shares at h
  split at h
  · rw [List.mem_singleton.1 h]
  · obtain ⟨c, -, rfl⟩ := List.mem_map.1 h
    rfl

theorem tasks_eq_shares (o : Order) : o.tasks = o.shares.map Share.task := by
  unfold tasks shares Template.instantiate
  cases o.selections with
  | nil => rfl
  | cons c cs => simp [Share.task]

theorem length_shares (o : Order) : o.shares.length = o.tasks.length := by rw [tasks_eq_shares, List.length_map]

end Order

/-- the tasks of a faction among those that orders ask for; the first of all has a given number -/
def roll (first : Nat) (f : FactionId) (orders : List Order) : List TaskId :=
  ((orders.flatMap Order.shares).findIdxs (·.order.faction = f) first).map TaskId.mk

theorem Order.findIdxs_shares {o : Order} {l : List Share} (hl : ∀ e ∈ l, e.order = o) (f : FactionId) (first : Nat) :
    l.findIdxs (·.order.faction = f) first = if o.faction = f then List.range' first l.length else [] := by
  induction l generalizing first with
  | nil => simp
  | cons e l ih =>
    rw [List.findIdxs_cons, hl e List.mem_cons_self, ih fun e' he' => hl e' (List.mem_cons_of_mem _ he')]
    by_cases hf : o.faction = f <;> simp [hf, List.range'_succ]

theorem roll_cons (first : Nat) (f : FactionId) (o : Order) (orders : List Order) :
    roll first f (o :: orders) =
      (if o.faction = f then TaskId.range first o.tasks.length else []) ++
        roll (first + o.tasks.length) f orders := by
  rw [roll, List.flatMap_cons, List.findIdxs_append, Order.findIdxs_shares fun e => Order.order_of_mem_shares,
    List.map_append, o.length_shares]
  split <;> rfl

/-! ## Pools -/

namespace Scheduler

theorem enterAll_append (s : Scheduler) (ts us : List TaskId) : s.enterAll (ts ++ us) = (s.enterAll ts).enterAll us :=
  List.foldl_append ..

theorem map_task_enterAll (s : Scheduler) (ts : List TaskId) :
    (s.enterAll ts).entries.map (·.task) = s.entries.map (·.task) ++ ts := by
  induction ts generalizing s with
  | nil => simp [enterAll]
  | cons t ts ih =>
    have hrest := ih (s.enter t)
    simpa [enter, enterAll] using hrest

end Scheduler

namespace Application

variable {ρ : Type} {app app' : Application ρ} {s : SchedulerId}

theorem scheduler?_schedule {t : TaskId} (h : app.schedule s t = (.ok (), app')) (s' : SchedulerId) :
    app'.scheduler? s' = (app.scheduler? s').map (·.enterAll (if s' = s then [t] else [])) := by
  obtain ⟨e, he⟩ | ⟨sched, task, hs, -, -, -, he⟩ := app.schedule_cases s t
  · rw [h] at he
    cases he
  · rw [h] at he
    obtain rfl := (Prod.mk.inj he).2
    rw [scheduler?_withScheduler hs]
    split
    · subst s'
      rw [hs]
      rfl
    · cases app.scheduler? s' <;> rfl

/-- tasks that are registered one after the other enter one pool in turn -/
theorem scheduler?_scheduleAll {name : String} {ts : List TaskId} (h : app.scheduleAll s name ts = .ok app')
    (s' : SchedulerId) :
    app'.scheduler? s' = (app.scheduler? s').map (·.enterAll (if s' = s then ts else [])) := by
  induction ts generalizing app with
  | nil =>
    obtain rfl := Except.ok.inj h
    simp [Scheduler.enterAll]
  | cons t ts ih =>
    rw [scheduleAll] at h
    split at h
    · cases h
    · rename_i hfirst
      rw [ih h, scheduler?_schedule hfirst, Option.map_map]
      congr 1
      funext sched
      split <;> rfl

theorem staffed_of_scheduleAll (h : app.Untouched) {o : Order} (hs : app.schedulerFor? o.faction = some s)
    (hall : (app.instantiate o.template o.selections).2.scheduleAll s o.template.name
      (app.instantiate o.template o.selections).1 = .ok app') : Staffed [o] app app' := by
  by_cases hp : o.problems = []
  · obtain ⟨app₁, hall₁, hstaffed⟩ := scheduleAll_members h hs hp
    obtain rfl := Except.ok.inj (hall₁.symm.trans hall)
    exact hstaffed
  · rw [scheduleAll_stuck h.pools hs hp] at hall
    cases hall

theorem carryOut_cons {o : Order} {orders : List Order} {ids : List TaskId}
    (hall : app.carryOut (o :: orders) = .ok (ids, app')) :
    ∃ s app₁ more, app.schedulerFor? o.faction = some s ∧
      (app.instantiate o.template o.selections).2.scheduleAll s o.template.name
        (app.instantiate o.template o.selections).1 = .ok app₁ ∧
      app₁.carryOut orders = .ok (more, app') := by
  cases hs : app.schedulerFor? o.faction with
  | none =>
    simp only [carryOut, hs] at hall
    cases hall
  | some s =>
    simp only [carryOut, hs] at hall
    cases hfirst : (app.instantiate o.template o.selections).2.scheduleAll s o.template.name
        (app.instantiate o.template o.selections).1 with
    | error e =>
      rw [hfirst] at hall
      cases hall
    | ok app₁ =>
      rw [hfirst] at hall
      change (app₁.carryOut orders).bind _ = _ at hall
      cases hrest : app₁.carryOut orders with
      | error e =>
        rw [hrest] at hall
        cases hall
      | ok r =>
        rw [hrest] at hall
        cases hall
        exact ⟨s, app₁, r.1, rfl, hfirst, hrest⟩

/-- **Every pool gets the tasks of its faction in order**; the induction is on the orders that are still to come -/
theorem scheduler?_carryOut {orders : List Order} {ids : List TaskId} (h : app.Untouched)
    (hall : app.carryOut orders = .ok (ids, app')) (s' : SchedulerId) :
    app'.scheduler? s' =
      (app.scheduler? s').map fun sched => sched.enterAll (roll app.tasks.size sched.faction orders) := by
  induction orders generalizing app ids with
  | nil =>
    obtain ⟨-, rfl⟩ := Prod.mk.inj (Except.ok.inj hall)
    simp [Scheduler.enterAll, roll]
  | cons o orders ih =>
    obtain ⟨s, app₁, more, hs, hfirst, hrest⟩ := carryOut_cons hall
    have hstaffed := staffed_of_scheduleAll h hs hfirst
    have hsize : app₁.tasks.size = app.tasks.size + o.tasks.length := by
      simpa using hstaffed.size (by simp [hs])
    have hids : (app.instantiate o.template o.selections).1 = TaskId.range app.tasks.size o.tasks.length :=
      congrArg Prod.fst (app.addTasks_eq o.tasks)
    have hsame : (app.instantiate o.template o.selections).2.scheduler? s' = app.scheduler? s' :=
      congrArg (fun r => r.2.scheduler? s') (app.addTasks_eq o.tasks)
    rw [ih hstaffed.untouched hrest, scheduler?_scheduleAll hfirst, hids, hsame, hsize, Option.map_map]
    cases hs' : app.scheduler? s' with
    | none => rfl
    | some sched =>
      -- the pool is the one of the order exactly when it is that of its faction
      have hown : s' = s ↔ o.faction = sched.faction := by
        obtain ⟨sched₁, hsched, hfaction⟩ := (schedulerFor?_eq_some h.pools).1 hs
        constructor
        · rintro rfl
          rw [← hfaction, Option.some.inj (hsched.symm.trans hs')]
        · intro hf
          exact h.pools.apart s' s sched sched₁ hs' hsched (hf.symm.trans hfaction.symm)
      simp only [Option.map_some, Function.comp_apply, Scheduler.faction_enterAll, hown, ← Scheduler.enterAll_append,
        roll_cons]

def place (app : Application ρ) (e : Share) : Task :=
  match app.schedulerFor? e.order.faction with
  | none => e.task.enrolled
  | some s => e.task.enrolled.join s

theorem members_eq_shares {o : Order} (hf : (app.schedulerFor? o.faction).isSome) :
    app.members o = o.shares.map app.place := by
  obtain ⟨s, hs⟩ := Option.isSome_iff_exists.1 hf
  simp only [members, hs, o.tasks_eq_shares, List.map_map]
  refine List.map_congr_left fun e he => ?_
  simp [place, Order.order_of_mem_shares he, hs]

/-- **The place of a share is the number of its task** -/
theorem get?_staffed {orders : List Order} (h : Staffed orders app app')
    (hf : ∀ o ∈ orders, (app.schedulerFor? o.faction).isSome) {k : Nat} {e : Share}
    (he : (orders.flatMap Order.shares)[k]? = some e) :
    ∃ pool, app.schedulerFor? e.order.faction = some pool ∧
      app'.tasks.get? ⟨app.tasks.size + k⟩ = some (e.task.enrolled.join pool) := by
  obtain ⟨o, ho, heo⟩ := List.mem_flatMap.1 (List.mem_of_getElem? he)
  obtain ⟨pool, hpool⟩ := Option.isSome_iff_exists.1 (hf o ho)
  rw [← Order.order_of_mem_shares heo] at hpool
  have hmembers : orders.flatMap app.members = (orders.flatMap Order.shares).map app.place := by
    rw [List.map_flatMap]
    exact List.flatMap_congr fun o ho => members_eq_shares (hf o ho)
  refine ⟨pool, hpool, ?_⟩
  have hplace : app.place e = e.task.enrolled.join pool := by simp only [place, hpool]
  rw [Arena.get?, h.tasks, Arena.size, Array.getElem?_append_right (Nat.le_add_right ..), Nat.add_sub_cancel_left,
    List.getElem?_toArray, hmembers, List.getElem?_map, he, Option.map_some, hplace]

/-- pools that only get members stay with their factions -/
theorem map_faction_schedulers {f : Scheduler → List TaskId}
    (h : ∀ s, app'.scheduler? s = (app.scheduler? s).map fun sched => sched.enterAll (f sched)) :
    app'.schedulers.toList.map (·.faction) = app.schedulers.toList.map (·.faction) := by
  apply List.ext_getElem?
  intro i
  have hi : app'.schedulers[i]? = app.schedulers[i]?.map fun sched => sched.enterAll (f sched) := h ⟨i⟩
  rw [List.getElem?_map, List.getElem?_map, Array.getElem?_toList, Array.getElem?_toList, hi, Option.map_map]
  congr 1
  funext sched
  exact Scheduler.faction_enterAll _ _

/-- the members of a pool, all of which are there, sorted by priority -/
theorem Pools.ordered_eq (h : app.Pools) {sched : Scheduler} (hs : app.scheduler? s = some sched) :
    sched.ordered app.tasks = (sched.entries.map (·.task)).mergeSort (Scheduler.asUrgent app.tasks) := by
  rw [Scheduler.ordered_eq_mergeSort (h.orderly s sched hs), List.filter_eq_self.2]
  intro t ht
  obtain ⟨task, hget, -⟩ := (h.agree s t).1 ((holds_of_scheduler? hs).2 (Scheduler.contains_iff.2 ht))
  rw [hget]
  rfl

theorem entries_of_mem_recruits {first : Nat} {fs : List FactionId} {sched : Scheduler}
    (h : sched ∈ recruits first fs) : sched.entries = [] := by
  obtain ⟨i, hi, rfl⟩ := List.mem_mapIdx.1 h
  rfl

end Application

namespace Scenario

open Application

variable {ρ : Type}

/-! ## Set-up -/

def shares (s : Scenario) : List Share := s.orders.flatMap Order.shares

theorem length_shares (s : Scenario) : s.shares.length = (s.orders.flatMap Order.tasks).length := by
  simp only [shares, List.length_flatMap, Order.length_shares]

variable {s : Scenario} {settings : Settings} {picker : ρ} {app : Application ρ} {world : Sandbox} {ids : List TaskId}

/-- what set-up leaves: a handle for each share, the tasks of all orders, and in each pool the shares of its faction -/
theorem setup_leaves (h : s.setup settings picker = .ok (app, world, ids)) :
    ids = TaskId.range 0 s.shares.length ∧ Staffed s.orders (s.hired settings picker) app ∧
      ∀ pool, app.scheduler? pool = ((s.hired settings picker).scheduler? pool).map fun sched =>
        sched.enterAll (roll 0 sched.faction s.orders) := by
  have huntouched := (s.addSchedulers_hired settings picker).2
  obtain ⟨-, app', hall, hstaffed⟩ | ⟨pre, o, post, -, -, -, hstuck⟩ :=
    carryOut_cases huntouched fun o ho => schedulerFor?_hired ho settings picker
  · rw [setup_eq, hall] at h
    obtain ⟨rfl, hrest⟩ := Prod.mk.inj (Except.ok.inj h)
    obtain ⟨-, rfl⟩ := Prod.mk.inj hrest
    rw [length_shares]
    exact ⟨rfl, hstaffed, scheduler?_carryOut huntouched hall⟩
  · rw [setup_eq, hstuck] at h
    cases h

theorem ascending_factions (s : Scenario) (w : Sandbox) : (s.factions w).toList.Pairwise (·.number < ·.number) := by
  refine Std.ExtTreeSet.ordered_toList.imp fun {f g} hlt => ?_
  have hnumber : compare f.number g.number = .lt := hlt
  exact Std.compare_eq_lt.1 hnumber

/-- a pool has nothing but the shares of its faction, in order -/
theorem map_task_pool {pool : SchedulerId} {sched : Scheduler} (h : s.setup settings picker = .ok (app, world, ids))
    (hs : app.scheduler? pool = some sched) : sched.entries.map (·.task) = roll 0 sched.faction s.orders := by
  obtain ⟨-, -, hpools⟩ := setup_leaves h
  obtain ⟨recruit, hrecruit, rfl⟩ := Option.map_eq_some_iff.1 ((hpools pool).symm.trans hs)
  have hempty : recruit.entries = [] :=
    entries_of_mem_recruits (List.mem_toArray.1 (Array.mem_of_getElem? hrecruit))
  rw [Scheduler.map_task_enterAll, hempty, Scheduler.faction_enterAll]
  rfl

/-- the task of a share is in the pool of its faction and in no other -/
theorem get?_setup (h : s.setup settings picker = .ok (app, world, ids)) {k : Nat} {e : Share}
    (he : s.shares[k]? = some e) :
    ∃ task pool, app.tasks.get? ⟨k⟩ = some task ∧ e.Filled task ∧ app.schedulerFor? e.order.faction = some pool ∧
      (∀ other, other ∈ task.schedulers ↔ other = pool) ∧ ∀ other, app.Holds other ⟨k⟩ ↔ other = pool := by
  obtain ⟨-, hstaffed, -⟩ := setup_leaves h
  obtain ⟨pool, hpool, hget⟩ := get?_staffed hstaffed (fun o ho => schedulerFor?_hired ho settings picker) he
  have hempty : (s.hired settings picker).tasks.size = 0 := rfl
  rw [hempty, Nat.zero_add] at hget
  have hjoined : ∀ other, other ∈ (e.task.enrolled.join pool).schedulers ↔ other = pool := fun other =>
    Task.mem_schedulers_join.trans (or_iff_left Std.ExtTreeSet.not_mem_empty)
  refine ⟨_, pool, hget, e.filled_join pool, (hstaffed.factions _).trans hpool, hjoined, fun other => ?_⟩
  rw [hstaffed.untouched.pools.agree, Arena.joined_of_get? hget, hjoined]

/-- **Set-up lays the tasks of a scenario out faithfully.** When it succeeds, each faction with an order or with a unit
that remains in the sandbox has one scheduler, no other faction has any, and they come in ascending order. The handles
are the numbers from 0 on, one for each share, and nobody is busy. The task of each share is as the share has it, waits,
and is in the pool of the share's faction and in no other. Each pool has the tasks of its faction registered in order,
and lists them sorted by priority, stably. -/
theorem setup_staffs (h : s.setup settings picker = .ok (app, world, ids)) :
    ((app.schedulers.toList.map (·.faction)).Pairwise (·.number < ·.number) ∧
      ∀ f, f ∈ app.schedulers.toList.map (·.faction) ↔
        (∃ u, Sandbox.Remains s.layout.units u ∧ u.faction = f) ∨ ∃ o ∈ s.orders, o.faction = f) ∧
    (ids = TaskId.range 0 s.shares.length ∧ app.tasks.size = s.shares.length ∧ app.claims = ∅) ∧
    (∀ k e, s.shares[k]? = some e → ∃ task pool, app.tasks.get? ⟨k⟩ = some task ∧ e.Filled task ∧
      app.schedulerFor? e.order.faction = some pool ∧ (∀ other, other ∈ task.schedulers ↔ other = pool) ∧
      ∀ other, app.Holds other ⟨k⟩ ↔ other = pool) ∧
    ∀ sched ∈ app.schedulers, sched.entries.map (·.task) = roll 0 sched.faction s.orders ∧
      sched.ordered app.tasks = (roll 0 sched.faction s.orders).mergeSort (Scheduler.asUrgent app.tasks) := by
  obtain ⟨hids, hstaffed, hpools⟩ := setup_leaves h
  have hfactions : app.schedulers.toList.map (·.faction) =
      (s.factions (s.layout.build settings.workTicks)).toList :=
    (map_faction_schedulers hpools).trans (map_faction_recruits 0 _)
  have hsize : app.tasks.size = s.shares.length := by
    rw [hstaffed.size fun o ho => schedulerFor?_hired ho settings picker, length_shares]
    exact Nat.zero_add _
  refine ⟨⟨?_, fun f => ?_⟩, ⟨hids, hsize, hstaffed.untouched.claims⟩, fun k e => get?_setup h, fun sched hm => ?_⟩
  · rw [hfactions]
    exact s.ascending_factions _
  · rw [hfactions, Std.ExtTreeSet.mem_toList, mem_factions]
  · have hsched := hstaffed.untouched.pools.scheduler?_id hm
    have htasks := map_task_pool h hsched
    exact ⟨htasks, (hstaffed.untouched.pools.ordered_eq hsched).trans (congrArg (List.mergeSort · _) htasks)⟩

/-- a unit that changes sides, one that does not, and orders for their side and for one without units -/
def festival : Scenario where
  layout :=
    { size := ⟨2, 2, 1⟩
      units :=
        [{ id := ⟨1⟩, faction := ⟨9⟩, position := ⟨0, 0, 0⟩ }, { id := ⟨2⟩, faction := ⟨4⟩, position := ⟨1, 0, 0⟩ },
          { id := ⟨1⟩, faction := ⟨4⟩, position := ⟨0, 1, 0⟩ }] }
  orders :=
    [{ faction := ⟨7⟩, template := ⟨"sweep", 1, .print {} (.place {} .selected)⟩
       selections := [⟨0, 0, 0⟩, ⟨1, 0, 0⟩] },
      { faction := ⟨4⟩, template := ⟨"cook", 0, .print {} (.boolean {} true)⟩ },
      { faction := ⟨7⟩, template := ⟨"dance", 5, .print {} (.boolean {} true)⟩ },
      { faction := ⟨7⟩, template := ⟨"rest", 1, .print {} (.boolean {} false)⟩ }]

/-- the side that was left has no scheduler; the dance comes before what was ordered before it, and nothing else does -/
theorem setup_staffs_festival :
    ∃ app world, festival.setup {} () = .ok (app, world, [⟨0⟩, ⟨1⟩, ⟨2⟩, ⟨3⟩, ⟨4⟩]) ∧
      ⟨9⟩ ∉ app.schedulers.toList.map (·.faction) ∧
      (∃ task pool, app.tasks.get? ⟨3⟩ = some task ∧ task.name = "dance" ∧ app.schedulerFor? ⟨7⟩ = some pool ∧
        ∀ other, app.Holds other ⟨3⟩ ↔ other = pool) ∧
      ∀ sched ∈ app.schedulers, sched.faction = ⟨7⟩ → sched.entries.map (·.task) = [⟨0⟩, ⟨1⟩, ⟨3⟩, ⟨4⟩] ∧
        sched.ordered app.tasks = [⟨3⟩, ⟨0⟩, ⟨1⟩, ⟨4⟩] := by
  obtain ⟨-, app, hsetup, -⟩ | ⟨pre, o, post, ho, -, hp, -⟩ := festival.setup_cases {} ()
  · obtain ⟨⟨-, hfactions⟩, ⟨hids, -, -⟩, hplaces, hpools⟩ := setup_staffs hsetup
    have hcount : festival.shares.length = 5 := by decide
    rw [hids, hcount] at hsetup
    refine ⟨app, _, hsetup, ?_, ?_, fun sched hm hf => ?_⟩
    · rw [hfactions]
      rintro (⟨u, hr, hu⟩ | ⟨o, ho, hf⟩)
      · have hunits : festival.layout.units =
            [] ++ [festival.layout.units[0]] ++ [festival.layout.units[1]] ++ [festival.layout.units[2]] := rfl
        rw [hunits, Sandbox.remains_concat, Sandbox.remains_concat, Sandbox.remains_concat] at hr
        obtain rfl | ⟨rfl | ⟨rfl | ⟨⟨before, behind, hnil, -⟩, -⟩, -⟩, hne⟩ := hr
        · exact absurd hu (by decide)
        · exact absurd hu (by decide)
        · exact hne rfl
        · exact List.append_ne_nil_of_right_ne_nil _ (List.cons_ne_nil _ _) hnil.symm
      · revert o
        decide
    · obtain ⟨task, pool, hget, hfilled, hpool, -, hholds⟩ := hplaces 3 ⟨festival.orders[2], {}⟩ rfl
      exact ⟨task, pool, hget, hfilled.name, hpool, hholds⟩
    · obtain ⟨hentries, hordered⟩ := hpools sched hm
      have hroll : roll 0 ⟨7⟩ festival.orders = [⟨0⟩, ⟨1⟩, ⟨3⟩, ⟨4⟩] := by decide
      rw [hf, hroll] at hentries hordered
      refine ⟨hentries, hordered.trans ?_⟩
      have hurgent : (match festival.setup {} () with
          | .ok (app, _) => [(0, 1), (0, 3), (0, 4), (1, 4), (3, 4)].map fun (i, j) =>
            Scheduler.asUrgent app.tasks ⟨i⟩ ⟨j⟩
          | .error _ => []) = [true, false, true, true, true] := by decide +kernel
      rw [hsetup] at hurgent
      simp only [List.map_cons, List.map_nil, List.cons.injEq] at hurgent
      simp [List.mergeSort, List.MergeSort.Internal.splitInTwo_fst, List.MergeSort.Internal.splitInTwo_snd, hurgent]
  · have hall : ∀ o ∈ festival.orders, o.problems = [] := by decide
    exact absurd (hall o (by simp [ho])) hp

end Scenario

end Errand
