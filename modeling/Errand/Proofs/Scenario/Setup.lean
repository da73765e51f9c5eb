/-
Set-up: what becomes of the factions and orders of a scenario.

The schedulers come first, one for each faction in turn (`addSchedulers_eq`). Then each order adds its tasks at the end
of the arena (`addTasks_eq`) and registers them with the scheduler of its faction. The tasks of an order differ in what
is selected only, and all of them have the problems of the order (`Order.problems_of_mem`), so an order without problems
is carried out as a whole (`scheduleAll_eq`) and any other is stuck at its first task. `carryOut_cases` puts this
together for all orders; in either case every faction has a scheduler, and nobody has claimed anything (`Untouched`).
-/
import Errand.Invocation.Outcome
import Errand.Proofs.Application.Assignment
import Errand.Proofs.Application.Lives

namespace Errand

/-! ## The tasks of an order -/

/-- what is checked of a selection is whether it is there -/
theorem Expr.unselected?_congr {sel sel' : Selection} (hu : sel.unit?.isNone = sel'.unit?.isNone)
    (hp : sel.position?.isNone = sel'.position?.isNone) (e : Expr) : e.unselected? sel = e.unselected? sel' := by
  unfold unselected?
  rw [hu, hp]

theorem Stmt.problems_congr {sel sel' : Selection} (hu : sel.unit?.isNone = sel'.unit?.isNone)
    (hp : sel.position?.isNone = sel'.position?.isNone) (s : Stmt) (store : Store) :
    s.problems store sel = s.problems store sel' := by
  have hunselected : s.unselected sel = s.unselected sel' := by
    simp only [unselected, funext (Expr.unselected?_congr hu hp)]
  unfold problems
  congr 1
  funext rule
  cases rule <;> simp only [problemsBy, hunselected]

namespace Order

def tasks (o : Order) : List Task := o.template.instantiate o.selections

theorem tasks_ne_nil (o : Order) : o.tasks ≠ [] := by
  unfold tasks Template.instantiate
  cases o.selections <;> simp

/-- **The first task stands for all**: whatever is selected, the checks find the same -/
theorem problems_of_mem {o : Order} {task : Task} (h : task ∈ o.tasks) : task.problems = o.problems := by
  unfold tasks Template.instantiate at h
  unfold problems Template.instantiate
  cases hs : o.selections with
  | nil =>
    rw [hs] at h
    obtain rfl := List.mem_singleton.1 h
    rfl
  | cons c cs =>
    rw [hs] at h
    obtain ⟨d, -, rfl⟩ := List.mem_map.1 h
    exact Stmt.problems_congr rfl rfl _ _

end Order

namespace Task

theorem problems_enrolled (t : Task) : t.enrolled.problems = t.problems :=
  Stmt.problems_of_reset_eq t.body.reset_reset _ _

theorem fresh_enrolled (t : Task) : t.enrolled.Fresh := fresh_release _

/-- a task waits when no unit has had it since it was added or released -/
structure Waits (t : Task) : Prop where
  unit : t.unit? = none
  fresh : t.Fresh

theorem waits_enrolled (t : Task) : t.enrolled.Waits := ⟨rfl, t.fresh_enrolled⟩

theorem Waits.join {t : Task} (h : t.Waits) (s : SchedulerId) : (t.join s).Waits :=
  ⟨h.unit, ⟨h.fresh.pristine, h.fresh.store, h.fresh.action⟩⟩

end Task

namespace TaskId

def range (first count : Nat) : List TaskId := (List.range' first count).map TaskId.mk

theorem range_succ (first count : Nat) :
    TaskId.range first (count + 1) = ⟨first⟩ :: TaskId.range (first + 1) count := by
  simp [TaskId.range, List.range'_succ]

theorem range_add (first m n : Nat) :
    TaskId.range first (m + n) = TaskId.range first m ++ TaskId.range (first + m) n := by
  have hrange := List.range'_append_1 (s := first) (m := m) (n := n)
  simp only [TaskId.range, ← hrange, List.map_append]

end TaskId

namespace Arena

theorem each_iff {P : Task → Prop} {a : Arena} : a.Each P ↔ ∀ task ∈ a.tasks, P task := by
  constructor
  · intro h task hm
    obtain ⟨i, hi, he⟩ := Array.mem_iff_getElem.1 hm
    exact h ⟨i⟩ task (he ▸ Array.getElem?_eq_getElem hi)
  · exact fun h t task ht => h task (Array.mem_of_getElem? ht)

theorem get?_append {pre post : List Task} {t : Task} :
    (⟨(pre ++ t :: post).toArray⟩ : Arena).get? ⟨pre.length⟩ = some t := by
  simp [get?]

theorem modify_append {pre post : List Task} {t : Task} (f : Task → Task) :
    (⟨(pre ++ t :: post).toArray⟩ : Arena).modify ⟨pre.length⟩ f = ⟨(pre ++ f t :: post).toArray⟩ := by
  have hlist : (pre ++ t :: post).modify pre.length f = pre ++ f t :: post := by
    rw [List.modify_eq_take_cons_drop (by simp)]
    simp
  unfold modify
  congr 1
  apply Array.toList_inj.1
  rw [Array.toList_modify]
  exact hlist

end Arena

namespace Scheduler

/-- the pool with one member more -/
def enter (s : Scheduler) (t : TaskId) : Scheduler :=
  { s with entries := s.entries ++ [⟨t, s.nextSeq⟩], nextSeq := s.nextSeq + 1 }

/-- the pool after some tasks have entered it in turn -/
def enterAll (s : Scheduler) (ts : List TaskId) : Scheduler := ts.foldl enter s

theorem faction_enterAll (s : Scheduler) (ts : List TaskId) : (s.enterAll ts).faction = s.faction := by
  induction ts generalizing s with
  | nil => rfl
  | cons t ts ih => exact ih (s.enter t)

end Scheduler

namespace Application

variable {ρ : Type} {app app' : Application ρ}

/-- nobody has claimed anything yet: every task waits -/
structure Untouched (app : Application ρ) : Prop where
  pools : app.Pools
  claims : app.claims = ∅
  waits : app.tasks.Each Task.Waits

theorem Untouched.regular (h : app.Untouched) : app.Regular where
  agree u t := by
    have hfree : app.tasks.holder? t = none := by
      rw [Option.eq_none_iff_forall_ne_some]
      intro v hv
      obtain ⟨task, ht, hu⟩ := Arena.holder?_eq_some.1 hv
      rw [(h.waits t task ht).unit] at hu
      cases hu
    simp [h.claims, hfree]
  pools := h.pools
  coherent t task ht := (h.waits t task ht).fresh.coherent

/-! ## Schedulers -/

theorem schedulerFor?_eq_some (h : app.Pools) {f : FactionId} {s : SchedulerId} :
    app.schedulerFor? f = some s ↔ ∃ sched, app.scheduler? s = some sched ∧ sched.faction = f := by
  unfold schedulerFor?
  constructor
  · intro hf
    obtain ⟨sched, hfind, rfl⟩ := Option.map_eq_some_iff.1 hf
    exact ⟨sched, h.scheduler?_id (Array.mem_of_find?_eq_some hfind), by simpa using Array.find?_some hfind⟩
  · rintro ⟨sched, hs, rfl⟩
    have hsome : (app.schedulers.find? (·.faction = sched.faction)).isSome :=
      Array.find?_isSome.2 ⟨sched, Array.mem_of_getElem? hs, by simp⟩
    obtain ⟨other, hfind⟩ := Option.isSome_iff_exists.1 hsome
    -- two schedulers of one faction are the same
    have hother : app.scheduler? other.id = some other := h.scheduler?_id (Array.mem_of_find?_eq_some hfind)
    have hfaction : other.faction = sched.faction := by simpa using Array.find?_some hfind
    rw [hfind, h.apart s other.id sched other hs hother hfaction.symm]
    rfl

theorem schedulerFor?_eq_none {f : FactionId} :
    app.schedulerFor? f = none ↔ ∀ sched ∈ app.schedulers, sched.faction ≠ f := by
  simp [schedulerFor?]

theorem schedulerFor?_withScheduler (h : app.Pools) {s : SchedulerId} {sched new : Scheduler} {tasks : Arena}
    (hs : app.scheduler? s = some sched) (hnew : new.faction = sched.faction)
    (h' : Pools { app.withScheduler s new with tasks }) (f : FactionId) :
    schedulerFor? { app.withScheduler s new with tasks } f = app.schedulerFor? f := by
  apply Option.ext
  intro s'
  rw [schedulerFor?_eq_some h, schedulerFor?_eq_some h', scheduler?_withScheduler hs]
  split
  · subst s'
    simp [hs, hnew]
  · rfl

/-- the schedulers that some factions get, the first of them with a given number -/
def recruits (first : Nat) (fs : List FactionId) : List Scheduler :=
  fs.mapIdx fun i f => { id := ⟨first + i⟩, faction := f }

theorem recruits_cons (first : Nat) (f : FactionId) (fs : List FactionId) :
    recruits first (f :: fs) = { id := ⟨first⟩, faction := f } :: recruits (first + 1) fs := by
  simp [recruits, List.mapIdx_cons, Nat.add_assoc, Nat.add_comm 1]

theorem map_faction_recruits (first : Nat) (fs : List FactionId) : (recruits first fs).map (·.faction) = fs := by
  induction fs generalizing first with
  | nil => rfl
  | cons f fs ih => rw [recruits_cons, List.map_cons, ih]

/-- **Every new faction gets a scheduler**, in the order in which they come -/
theorem addSchedulers_eq {fs : List FactionId} (h : app.Pools) (hd : fs.Nodup)
    (hnew : ∀ f ∈ fs, app.schedulerFor? f = none) :
    app.addSchedulers fs =
        .ok { app with schedulers := app.schedulers ++ (recruits app.schedulers.size fs).toArray } ∧
      Pools { app with schedulers := app.schedulers ++ (recruits app.schedulers.size fs).toArray } := by
  induction fs generalizing app with
  | nil => simpa [addSchedulers, recruits] using h
  | cons f fs ih =>
    rw [List.nodup_cons] at hd
    have hf := hnew f List.mem_cons_self
    have hnew' : ∀ g ∈ fs, schedulerFor?
        { app with schedulers := app.schedulers.push { id := ⟨app.schedulers.size⟩, faction := f } } g = none := by
      intro g hg
      rw [schedulerFor?_eq_none]
      intro sched hs
      rcases Array.mem_push.1 hs with hs | rfl
      · exact schedulerFor?_eq_none.1 (hnew g (List.mem_cons_of_mem _ hg)) sched hs
      · rintro rfl
        exact hd.1 hg
    obtain ⟨hrest, hpools⟩ := ih (h.addScheduler hf) hd.2 hnew'
    have hschedulers : app.schedulers.push { id := ⟨app.schedulers.size⟩, faction := f } ++
        (recruits (app.schedulers.size + 1) fs).toArray =
        app.schedulers ++ (recruits app.schedulers.size (f :: fs)).toArray := by
      apply Array.toList_inj.1
      simp [recruits_cons]
    simp only [Array.size_push, hschedulers] at hrest hpools
    refine ⟨?_, hpools⟩
    simp only [addSchedulers, addScheduler, hf]
    exact hrest

/-! ## Tasks -/

/-- added tasks come last and get the next numbers -/
theorem addTasks_eq (app : Application ρ) (ts : List Task) :
    app.addTasks ts =
      (TaskId.range app.tasks.size ts.length,
        { app with tasks := ⟨app.tasks.tasks ++ (ts.map Task.enrolled).toArray⟩ }) := by
  induction ts generalizing app with
  | nil => simp [addTasks, TaskId.range]
  | cons t ts ih =>
    have hrest := ih (app.addTask t).2
    have hsize : (app.addTask t).2.tasks.size = app.tasks.size + 1 := Array.size_push ..
    have htasks : (app.addTask t).2.tasks.tasks = app.tasks.tasks.push t.enrolled := rfl
    rw [hsize, htasks] at hrest
    have happend : app.tasks.tasks.push t.enrolled ++ (ts.map Task.enrolled).toArray =
        app.tasks.tasks ++ ((t :: ts).map Task.enrolled).toArray := by
      apply Array.toList_inj.1
      simp
    rw [happend] at hrest
    simp only [addTasks, hrest, List.length_cons, TaskId.range_succ]
    rfl

theorem pools_addTasks (h : app.Pools) (ts : List Task) : (app.addTasks ts).2.Pools := by
  induction ts generalizing app with
  | nil => exact h
  | cons t ts ih => exact ih (h.addTask t)

/-- a task that is there, fit and not yet a member is registered -/
theorem schedule_eq (h : app.Pools) {s : SchedulerId} {sched : Scheduler} {t : TaskId} {task : Task}
    (hs : app.scheduler? s = some sched) (ht : app.tasks.get? t = some task) (hnew : s ∉ task.schedulers) :
    app.schedule s t =
      if task.problems = [] then
        (.ok (), { app.withScheduler s (sched.enter t) with tasks := app.tasks.modify t (·.join s) })
      else (.error (.illFormed t), app) := by
  have hcontains : sched.contains t = false := by
    rw [← Bool.not_eq_true, h.contains_iff hs ht]
    exact hnew
  obtain rfl := h.number s sched hs
  unfold schedule Scheduler.schedule
  simp only [hs, ht, hcontains, Task.isWellFormed]
  by_cases hp : task.problems = []
  · simp [hp, Scheduler.enter]
  · simp [hp, withScheduler_self hs]

/-- **Tasks without problems are registered in turn**; the induction is on those that are still to come -/
theorem scheduleAll_eq {s : SchedulerId} {sched : Scheduler} {pre ts : List Task} (h : app.Pools)
    (hs : app.scheduler? s = some sched) (htasks : app.tasks = ⟨(pre ++ ts).toArray⟩)
    (hnew : ∀ task ∈ ts, s ∉ task.schedulers) (hp : ∀ task ∈ ts, task.problems = []) (name : String) :
    app.scheduleAll s name (TaskId.range pre.length ts.length) =
        .ok { app.withScheduler s (sched.enterAll (TaskId.range pre.length ts.length)) with
          tasks := ⟨(pre ++ ts.map (·.join s)).toArray⟩ } ∧
      Pools { app.withScheduler s (sched.enterAll (TaskId.range pre.length ts.length)) with
        tasks := ⟨(pre ++ ts.map (·.join s)).toArray⟩ } := by
  induction ts generalizing app sched pre with
  | nil =>
    have hsame : { app.withScheduler s (sched.enterAll (TaskId.range pre.length 0)) with
        tasks := ⟨(pre ++ [].map (Task.join · s)).toArray⟩ } = app := by
      simp only [TaskId.range, List.range'_zero, List.map_nil, Scheduler.enterAll, List.foldl_nil,
        withScheduler_self hs, ← htasks]
    rw [List.length_nil, hsame]
    exact ⟨rfl, h⟩
  | cons t ts ih =>
    have ht : app.tasks.get? ⟨pre.length⟩ = some t := by
      rw [htasks]
      exact Arena.get?_append
    have hnone := hnew t List.mem_cons_self
    have hfit := hp t List.mem_cons_self
    have hmodify : app.tasks.modify ⟨pre.length⟩ (·.join s) = ⟨((pre ++ [t.join s]) ++ ts).toArray⟩ := by
      rw [htasks, Arena.modify_append, List.append_assoc]
      rfl
    have hschedule := schedule_eq h hs ht hnone
    rw [if_pos hfit, hmodify] at hschedule
    let next : Application ρ :=
      { app.withScheduler s (sched.enter ⟨pre.length⟩) with tasks := ⟨((pre ++ [t.join s]) ++ ts).toArray⟩ }
    have hnext : next.Pools := by
      have hregister : (app.schedule s ⟨pre.length⟩).2.Pools := by
        obtain he | hr := app.schedule_registers s ⟨pre.length⟩
        · rwa [he]
        · exact h.register hr
      rwa [hschedule] at hregister
    have hs' : next.scheduler? s = some (sched.enter ⟨pre.length⟩) := by
      rw [scheduler?_withScheduler hs, if_pos rfl]
    obtain ⟨hrest, hpools⟩ := ih hnext hs' rfl (fun task hm => hnew task (List.mem_cons_of_mem _ hm))
      (fun task hm => hp task (List.mem_cons_of_mem _ hm))
    have hfrom : TaskId.range pre.length (t :: ts).length =
        ⟨pre.length⟩ :: TaskId.range (pre ++ [t.join s]).length ts.length := by
      rw [List.length_append]
      exact TaskId.range_succ _ _
    have happend : (pre ++ [t.join s]) ++ ts.map (·.join s) = pre ++ (t :: ts).map (·.join s) := by simp
    rw [withScheduler_withScheduler, happend] at hrest hpools
    rw [hfrom]
    refine ⟨?_, hpools⟩
    rw [scheduleAll, hschedule]
    exact hrest

/-! ## Orders -/

def members (app : Application ρ) (o : Order) : List Task :=
  match app.schedulerFor? o.faction with
  | none => []
  | some s => o.tasks.map (·.enrolled.join s)

/-- what has become of an application in which orders were carried out -/
structure Staffed (orders : List Order) (app app' : Application ρ) : Prop where
  untouched : app'.Untouched
  factions : ∀ f, app'.schedulerFor? f = app.schedulerFor? f
  tasks : app'.tasks.tasks = app.tasks.tasks ++ (orders.flatMap app.members).toArray

theorem length_members {o : Order} (hf : (app.schedulerFor? o.faction).isSome) :
    (app.members o).length = o.tasks.length := by
  obtain ⟨s, hs⟩ := Option.isSome_iff_exists.1 hf
  simp [members, hs]

namespace Staffed

variable {app'' : Application ρ} {o : Order} {orders : List Order}

theorem nil (h : app.Untouched) : Staffed [] app app := ⟨h, fun _ => rfl, by simp⟩

theorem cons (h : Staffed [o] app app') (h' : Staffed orders app' app'') : Staffed (o :: orders) app app'' where
  untouched := h'.untouched
  factions f := (h'.factions f).trans (h.factions f)
  tasks := by
    have hmembers : app'.members = app.members := by
      funext o
      simp only [members, h.factions]
    rw [h'.tasks, h.tasks, hmembers]
    apply Array.toList_inj.1
    simp

theorem size (h : Staffed orders app app') (hf : ∀ o ∈ orders, (app.schedulerFor? o.faction).isSome) :
    app'.tasks.size = app.tasks.size + (orders.flatMap Order.tasks).length := by
  have hlength : orders.map (fun o => (app.members o).length) = orders.map (fun o => o.tasks.length) :=
    List.map_congr_left fun o ho => length_members (hf o ho)
  simp only [Arena.size, h.tasks, Array.size_append, List.size_toArray, List.length_flatMap, hlength]

/-- a task that was not there before is in the pool of the order that asked for it -/
theorem holds (h : Staffed orders app app') {t : TaskId} (ht : app.tasks.size ≤ t.index)
    (ht' : t.index < app'.tasks.size) : ∃ o ∈ orders, ∃ s, app.schedulerFor? o.faction = some s ∧ app'.Holds s t := by
  have hget : app'.tasks.get? t = some app'.tasks.tasks[t.index] := Array.getElem?_eq_getElem ht'
  have hnew : app'.tasks.tasks[t.index] ∈ orders.flatMap app.members := by
    simp only [h.tasks, Array.getElem_append_right ht]
    simp
  obtain ⟨o, ho, hm⟩ := List.mem_flatMap.1 hnew
  unfold members at hm
  split at hm
  · cases hm
  · rename_i s hs
    obtain ⟨task, -, he⟩ := List.mem_map.1 hm
    refine ⟨o, ho, s, hs, ?_⟩
    rw [h.untouched.pools.agree, Arena.joined_of_get? hget, ← he, Task.mem_schedulers_join]
    exact .inl rfl

end Staffed

/-- **An order without problems is carried out as a whole** -/
theorem scheduleAll_members (h : app.Untouched) {o : Order} {s : SchedulerId}
    (hs : app.schedulerFor? o.faction = some s) (hp : o.problems = []) :
    ∃ app', (app.instantiate o.template o.selections).2.scheduleAll s o.template.name
        (app.instantiate o.template o.selections).1 = .ok app' ∧ Staffed [o] app app' := by
  obtain ⟨sched, hsched, -⟩ := (schedulerFor?_eq_some h.pools).1 hs
  have hadded : app.instantiate o.template o.selections = _ := app.addTasks_eq o.tasks
  let added : Application ρ :=
    { app with tasks := ⟨(app.tasks.tasks.toList ++ o.tasks.map Task.enrolled).toArray⟩ }
  have htasks : { app with tasks := ⟨app.tasks.tasks ++ (o.tasks.map Task.enrolled).toArray⟩ } = added := by
    have harray : app.tasks.tasks ++ (o.tasks.map Task.enrolled).toArray =
        (app.tasks.tasks.toList ++ o.tasks.map Task.enrolled).toArray := by
      apply Array.toList_inj.1
      simp
    simp only [added, harray]
  have hpools : added.Pools := by
    have := pools_addTasks h.pools o.tasks
    rwa [addTasks_eq, htasks] at this
  have hnew : ∀ task ∈ o.tasks.map Task.enrolled, s ∉ task.schedulers := by
    intro task hm
    obtain ⟨t, -, rfl⟩ := List.mem_map.1 hm
    exact Std.ExtTreeSet.not_mem_empty
  have hfit : ∀ task ∈ o.tasks.map Task.enrolled, task.problems = [] := by
    intro task hm
    obtain ⟨t, ht, rfl⟩ := List.mem_map.1 hm
    rw [t.problems_enrolled, Order.problems_of_mem ht, hp]
  obtain ⟨hall, hpools'⟩ := scheduleAll_eq hpools hsched rfl hnew hfit o.template.name
  rw [List.length_map, List.map_map] at hall hpools'
  rw [hadded, htasks]
  refine ⟨_, hall, ⟨hpools', h.claims, Arena.each_iff.2 fun task hm => ?_⟩, ?_, ?_⟩
  · rw [List.mem_toArray, List.mem_append] at hm
    rcases hm with hm | hm
    · exact Arena.each_iff.1 h.waits task (Array.mem_toList_iff.1 hm)
    · obtain ⟨t, -, rfl⟩ := List.mem_map.1 hm
      exact t.waits_enrolled.join s
  · exact schedulerFor?_withScheduler h.pools hsched (Scheduler.faction_enterAll _ _) hpools'
  · apply Array.toList_inj.1
    simp [members, hs]

/-- **An order with problems is stuck at its first task** -/
theorem scheduleAll_stuck (h : app.Pools) {o : Order} {s : SchedulerId} (hs : app.schedulerFor? o.faction = some s)
    (hp : o.problems ≠ []) :
    (app.instantiate o.template o.selections).2.scheduleAll s o.template.name
        (app.instantiate o.template o.selections).1 =
      .error (.unscheduled o.template.name (.illFormed ⟨app.tasks.size⟩)) := by
  obtain ⟨sched, hsched, -⟩ := (schedulerFor?_eq_some h).1 hs
  obtain ⟨t, ts, ho⟩ := List.exists_cons_of_ne_nil o.tasks_ne_nil
  have hproblems : t.enrolled.problems ≠ [] := by
    rwa [t.problems_enrolled, Order.problems_of_mem (ho ▸ List.mem_cons_self)]
  have hadded := app.addTasks_eq (t :: ts)
  have hfirst : (app.addTasks (t :: ts)).2.tasks.get? ⟨app.tasks.size⟩ = some t.enrolled := by
    rw [hadded]
    simp [Arena.get?, Arena.size]
  have hscheds : (app.addTasks (t :: ts)).2.scheduler? s = some sched := by
    rw [hadded]
    exact hsched
  have hschedule := schedule_eq (pools_addTasks h (t :: ts)) hscheds hfirst Std.ExtTreeSet.not_mem_empty
  rw [if_neg hproblems] at hschedule
  have hids : (app.addTasks (t :: ts)).1 = ⟨app.tasks.size⟩ :: TaskId.range (app.tasks.size + 1) ts.length := by
    rw [hadded]
    exact TaskId.range_succ _ _
  have hinstantiate : app.instantiate o.template o.selections = app.addTasks (t :: ts) := congrArg app.addTasks ho
  rw [hinstantiate, hids, scheduleAll, hschedule]

/-- **Orders are carried out up to the first that has problems** -/
theorem carryOut_cases {orders : List Order} (h : app.Untouched)
    (hf : ∀ o ∈ orders, (app.schedulerFor? o.faction).isSome) :
    ((∀ o ∈ orders, o.problems = []) ∧ ∃ app',
      app.carryOut orders = .ok (TaskId.range app.tasks.size (orders.flatMap Order.tasks).length, app') ∧
        Staffed orders app app') ∨
      ∃ pre o post, orders = pre ++ o :: post ∧ (∀ p ∈ pre, p.problems = []) ∧ o.problems ≠ [] ∧
        app.carryOut orders =
          .error (.unscheduled o.template.name (.illFormed ⟨app.tasks.size + (pre.flatMap Order.tasks).length⟩)) := by
  induction orders generalizing app with
  | nil => exact .inl ⟨by simp, app, rfl, .nil h⟩
  | cons o orders ih =>
    obtain ⟨s, hs⟩ := Option.isSome_iff_exists.1 (hf o List.mem_cons_self)
    by_cases hp : o.problems = []
    · obtain ⟨app₁, hall, hfirst⟩ := scheduleAll_members h hs hp
      have hsize : app₁.tasks.size = app.tasks.size + o.tasks.length := by
        simpa using hfirst.size (by simpa using hf o List.mem_cons_self)
      have hids : (app.instantiate o.template o.selections).1 = TaskId.range app.tasks.size o.tasks.length :=
        congrArg Prod.fst (app.addTasks_eq o.tasks)
      have hstep : app.carryOut (o :: orders) =
          (app₁.carryOut orders).map fun r => (TaskId.range app.tasks.size o.tasks.length ++ r.1, r.2) := by
        simp only [carryOut, hs]
        rw [hall, hids]
        change (app₁.carryOut orders).bind (fun r => .ok (_ ++ r.1, r.2)) = _
        cases app₁.carryOut orders <;> rfl
      have hf' : ∀ o ∈ orders, (app₁.schedulerFor? o.faction).isSome := by
        intro o ho
        rw [hfirst.factions]
        exact hf o (List.mem_cons_of_mem _ ho)
      rcases ih hfirst.untouched hf' with ⟨hnone, app', hrest, hstaffed⟩ | ⟨pre, p, post, rfl, hpre, hp', hrest⟩
      · refine .inl ⟨by simpa using ⟨hp, hnone⟩, app', ?_, hfirst.cons hstaffed⟩
        rw [hstep, hrest, hsize, List.flatMap_cons, List.length_append, TaskId.range_add]
        rfl
      · refine .inr ⟨o :: pre, p, post, rfl, by simpa using ⟨hp, hpre⟩, hp', ?_⟩
        rw [hstep, hrest, hsize]
        simp [Except.map, Nat.add_assoc]
    · refine .inr ⟨[], o, orders, rfl, by simp, hp, ?_⟩
      simp only [carryOut, hs]
      rw [scheduleAll_stuck h.pools hs hp]
      rfl

end Application

theorem FactionId.mem_foldl_insert {α : Type} (g : α → FactionId) (l : List α) (fs : Std.ExtTreeSet FactionId)
    (f : FactionId) : f ∈ l.foldl (fun fs x => fs.insert (g x)) fs ↔ f ∈ fs ∨ ∃ x ∈ l, g x = f := by
  induction l generalizing fs with
  | nil => simp
  | cons x l ih =>
    rw [List.foldl_cons, ih, Std.ExtTreeSet.mem_insert, Std.compare_eq_iff_eq, List.exists_mem_cons_iff, or_assoc,
      or_left_comm]

namespace Scenario

open Application

variable {ρ : Type}

/-! ## Scenarios -/

/-- every order has its faction looked after -/
theorem faction_mem_factions {s : Scenario} {o : Order} (ho : o ∈ s.orders) (w : Sandbox) :
    o.faction ∈ s.factions w := by
  rw [factions, FactionId.mem_foldl_insert Order.faction]
  exact .inr ⟨o, ho, rfl⟩

/-- the application in which the orders are carried out: all schedulers and nothing else -/
def hired (s : Scenario) (settings : Settings) (picker : ρ) : Application ρ :=
  { settings, picker, schedulers := (recruits 0 (s.factions (s.layout.build settings.workTicks)).toList).toArray }

theorem addSchedulers_hired (s : Scenario) (settings : Settings) (picker : ρ) :
    (initial settings picker).addSchedulers (s.factions (s.layout.build settings.workTicks)).toList =
        .ok (s.hired settings picker) ∧ (s.hired settings picker).Untouched := by
  have hdistinct : (s.factions (s.layout.build settings.workTicks)).toList.Nodup := by
    refine Std.ExtTreeSet.distinct_toList.imp fun hne he => hne ?_
    rw [he]
    exact Std.ReflCmp.compare_self
  have hnew : ∀ f ∈ (s.factions (s.layout.build settings.workTicks)).toList,
      (initial settings picker).schedulerFor? f = none := fun _ _ => rfl
  obtain ⟨hadded, hpools⟩ := addSchedulers_eq (Pools.initial settings picker) hdistinct hnew
  have hhired : { initial settings picker with
      schedulers := (initial settings picker).schedulers ++
        (recruits (initial settings picker).schedulers.size
          (s.factions (s.layout.build settings.workTicks)).toList).toArray } = s.hired settings picker := by
    simp [initial, hired]
  rw [hhired] at hadded hpools
  exact ⟨hadded, hpools, rfl, each_initial _ settings picker⟩

theorem schedulerFor?_hired {s : Scenario} {o : Order} (ho : o ∈ s.orders) (settings : Settings) (picker : ρ) :
    ((s.hired settings picker).schedulerFor? o.faction).isSome := by
  have hmem := Std.ExtTreeSet.mem_toList.2 (s.faction_mem_factions ho (s.layout.build settings.workTicks))
  rw [← map_faction_recruits 0 (s.factions (s.layout.build settings.workTicks)).toList] at hmem
  obtain ⟨sched, hsched, hfaction⟩ := List.mem_map.1 hmem
  rw [Option.isSome_iff_ne_none, ne_eq, schedulerFor?_eq_none]
  exact fun hall => hall sched (List.mem_toArray.2 hsched) hfaction

/-- set-up carries out the orders once the schedulers are there -/
theorem setup_eq (s : Scenario) (settings : Settings) (picker : ρ) :
    s.setup settings picker =
      ((s.hired settings picker).carryOut s.orders).map fun r => (r.2, s.layout.build settings.workTicks, r.1) := by
  unfold setup
  change ((initial settings picker).addSchedulers _).bind _ = _
  rw [(s.addSchedulers_hired settings picker).1]
  change ((s.hired settings picker).carryOut s.orders).bind _ = _
  cases (s.hired settings picker).carryOut s.orders <;> rfl

/-- **Set-up carries out all orders, or is stuck at the first that has problems** -/
theorem setup_cases (s : Scenario) (settings : Settings) (picker : ρ) :
    ((∀ o ∈ s.orders, o.problems = []) ∧ ∃ app,
      s.setup settings picker =
          .ok (app, s.layout.build settings.workTicks, TaskId.range 0 (s.orders.flatMap Order.tasks).length) ∧
        Staffed s.orders (s.hired settings picker) app) ∨
      ∃ pre o post, s.orders = pre ++ o :: post ∧ (∀ p ∈ pre, p.problems = []) ∧ o.problems ≠ [] ∧
        s.setup settings picker =
          .error (.unscheduled o.template.name (.illFormed ⟨(pre.flatMap Order.tasks).length⟩)) := by
  have huntouched := (s.addSchedulers_hired settings picker).2
  have hsetup := s.setup_eq settings picker
  have hsize : (s.hired settings picker).tasks.size = 0 := rfl
  rcases carryOut_cases huntouched fun o ho => schedulerFor?_hired ho settings picker with
    ⟨hnone, app, hall, hstaffed⟩ | ⟨pre, o, post, ho, hpre, hp, hstuck⟩
  · rw [hsize] at hall
    exact .inl ⟨hnone, app, by rw [hsetup, hall]; rfl, hstaffed⟩
  · rw [hsize, Nat.zero_add] at hstuck
    exact .inr ⟨pre, o, post, ho, hpre, hp, by rw [hsetup, hstuck]; rfl⟩

/-! ## Admission -/

theorem check_failure?_eq_none {s : Scenario} : s.check.failure? = none ↔ ∀ o ∈ s.orders, o.problems = [] := by
  have hnone : s.check.failure? = none ↔ (s.orders.flatMap Order.problems).length = 0 := by
    unfold check
    simp only []
    split
    · rename_i hcount
      exact ⟨fun _ => hcount, fun _ => rfl⟩
    · rename_i hcount
      exact ⟨nofun, fun hzero => absurd hzero hcount⟩
  rw [hnone, List.length_eq_zero_iff, List.flatMap_eq_nil_iff]

/-- **A scenario that passes its check can be set up, and no other.** Whatever the layout, the settings and the picker:
the check finds no problem exactly when set-up succeeds. When it does, it hands out one task for each instance of each
order, and each of them is in the pool of a faction with an order. When it fails, the cause is that the first task of an
order is ill-formed; the check reports problems of that order and of none before it. -/
theorem setup_admits (s : Scenario) (settings : Settings) (picker : ρ) :
    (s.check.failure? = none ↔ ∃ r, s.setup settings picker = .ok r) ∧
    (∀ app sandbox ids, s.setup settings picker = .ok (app, sandbox, ids) →
      ids = TaskId.range 0 (s.orders.flatMap fun o => o.template.instantiate o.selections).length ∧
      ∀ t ∈ ids, ∃ o ∈ s.orders, ∃ pool, app.schedulerFor? o.faction = some pool ∧ app.Holds pool t) ∧
    ∀ e, s.setup settings picker = .error e → ∃ pre o post, s.orders = pre ++ o :: post ∧
      (∀ p ∈ pre, p.problems = []) ∧ o.problems ≠ [] ∧
      e = .unscheduled o.template.name
        (.illFormed ⟨(pre.flatMap fun p => p.template.instantiate p.selections).length⟩) := by
  rw [check_failure?_eq_none]
  rcases s.setup_cases settings picker with
    ⟨hnone, app, hsetup, hstaffed⟩ | ⟨pre, o, post, ho, hpre, hp, hsetup⟩
  · refine ⟨⟨fun _ => ⟨_, hsetup⟩, fun _ => hnone⟩, ?_, ?_⟩
    · intro app' sandbox ids he
      rw [hsetup] at he
      obtain ⟨rfl, hrest⟩ := Prod.mk.inj (Except.ok.inj he)
      obtain ⟨-, rfl⟩ := Prod.mk.inj hrest
      refine ⟨rfl, fun t ht => ?_⟩
      obtain ⟨i, hi, rfl⟩ := List.mem_map.1 ht
      have hsize := hstaffed.size fun o ho => schedulerFor?_hired ho settings picker
      have hlt : i < app.tasks.size := by
        rw [hsize]
        exact (List.mem_range'_1.1 hi).2
      obtain ⟨o, ho, pool, hpool, hholds⟩ := hstaffed.holds (t := ⟨i⟩) (Nat.zero_le i) hlt
      exact ⟨o, ho, pool, (hstaffed.factions _).trans hpool, hholds⟩
    · intro e he
      rw [hsetup] at he
      cases he
  · refine ⟨⟨?_, ?_⟩, ?_, ?_⟩
    · intro hnone
      exact absurd (hnone o (by simp [ho])) hp
    · rintro ⟨r, he⟩
      rw [hsetup] at he
      cases he
    · intro app sandbox ids he
      rw [hsetup] at he
      cases he
    · intro e he
      rw [hsetup] at he
      obtain rfl := Except.error.inj he
      exact ⟨pre, o, post, ho, hpre, hp, rfl⟩

/-- an order for two cubes of an empty sandbox -/
def greeting : Scenario where
  layout := { size := ⟨2, 2, 1⟩ }
  orders :=
    [{ faction := ⟨1⟩, template := ⟨"greet", 0, .print {} (.place {} .selected)⟩, selections := [⟨0, 0, 0⟩, ⟨1, 0, 0⟩] }]

/-- after it comes one that leaves a loop where there is none -/
def straying : Scenario :=
  { greeting with orders := greeting.orders ++ [{ faction := ⟨2⟩, template := ⟨"stray", 0, .leave {}⟩ }] }

/-- the first order alone can be carried out; with the second, the third task is ill-formed -/
theorem setup_admits_greeting :
    (∃ app sandbox, greeting.setup {} () = .ok (app, sandbox, [⟨0⟩, ⟨1⟩]) ∧ app.Holds ⟨0⟩ ⟨1⟩) ∧
    ∃ pre o post, straying.orders = pre ++ o :: post ∧ o.problems ≠ [] ∧
      straying.setup {} () = .error (.unscheduled o.template.name (.illFormed ⟨2⟩)) := by
  constructor
  · obtain ⟨hiff, hplaces, -⟩ := setup_admits greeting {} ()
    obtain ⟨⟨app, sandbox, ids⟩, hsetup⟩ := hiff.1 (by decide +kernel)
    obtain ⟨hids, hholds⟩ := hplaces app sandbox ids hsetup
    have hids' : ids = [⟨0⟩, ⟨1⟩] := by
      rw [hids]
      decide
    subst hids'
    obtain ⟨o, ho, pool, hpool, hin⟩ := hholds ⟨1⟩ (by decide)
    obtain rfl := List.mem_singleton.1 ho
    have hfirst : (match greeting.setup {} () with
        | .ok (app, _) => app.schedulerFor? ⟨1⟩
        | .error _ => none) = some ⟨0⟩ := by decide +kernel
    rw [hsetup] at hfirst
    obtain rfl := Option.some.inj (hpool.symm.trans hfirst)
    exact ⟨app, sandbox, hsetup, hin⟩
  · obtain ⟨hiff, -, hfails⟩ := setup_admits straying {} ()
    cases hsetup : straying.setup {} () with
    | ok r => exact absurd (hiff.2 ⟨r, hsetup⟩) (by decide +kernel)
    | error e =>
      obtain ⟨pre, o, post, ho, -, hp, rfl⟩ := hfails e hsetup
      have hcause : (match straying.setup {} () with
          | .error (.unscheduled _ cause) => cause
          | _ => .unknownTask ⟨0⟩) = .illFormed ⟨2⟩ := by decide +kernel
      rw [hsetup] at hcause
      exact ⟨pre, o, post, ho, hp, by rw [← hcause]⟩

end Scenario

end Errand
