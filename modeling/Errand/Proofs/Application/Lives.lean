/-
Lives: what becomes of each task of an application.

`Becomes` lists what one move can make of one task. Every move takes each task along such changes or is the one that
adds it (`moves_ages`), so a property of tasks that the changes and a registration keep holds of all tasks in every run
(`run_each`). `get?_finish` says what finishing comes to: the task leaves every pool. `Regular` puts the invariants of
an application together; it holds in every run (`Regular.run`).
-/
import Errand.Proofs.Application.Claims
import Errand.Proofs.Application.Membership
import Errand.Proofs.Task.Action

namespace Errand

namespace Task

/-- ends the claim of a finished task, which then is in no pool -/
def retire (t : Task) : Task := { t.finish with schedulers := ∅ }

/-- a task as an arena takes it in -/
def enrolled (t : Task) : Task := { t with schedulers := ∅ }.release.2

/-! ## Leaving pools -/

theorem quit_of_notMem {t : Task} {s : SchedulerId} (h : s ∉ t.schedulers) : t.quit s = t := by
  have hset : (t.quit s).schedulers = t.schedulers := by
    apply Std.ExtTreeSet.ext_mem
    intro s'
    rw [mem_schedulers_quit]
    exact ⟨fun hm => hm.2, fun hm => ⟨fun he => h (he ▸ hm), hm⟩⟩
  calc t.quit s = { t with schedulers := (t.quit s).schedulers } := rfl
    _ = t := by rw [hset]

/-- leaving one pool after the other concerns the handles only -/
theorem foldl_quit (t : Task) (ss : List SchedulerId) :
    ss.foldl quit t = { t with schedulers := (ss.foldl quit t).schedulers } := by
  induction ss generalizing t with
  | nil => rfl
  | cons s ss ih => exact ih (t.quit s)

theorem mem_schedulers_foldl_quit {t : Task} {ss : List SchedulerId} {s : SchedulerId} :
    s ∈ (ss.foldl quit t).schedulers ↔ s ∉ ss ∧ s ∈ t.schedulers := by
  induction ss generalizing t with
  | nil => simp
  | cons s' ss ih => rw [List.foldl_cons, ih, mem_schedulers_quit, List.mem_cons, not_or, and_left_comm, and_assoc]

theorem foldl_quit_schedulers (t : Task) : t.schedulers.toList.foldl quit t = { t with schedulers := ∅ } := by
  have hempty : (t.schedulers.toList.foldl quit t).schedulers = ∅ := by
    rw [Std.ExtTreeSet.eq_empty_iff_forall_not_mem]
    intro s hs
    have hmem := mem_schedulers_foldl_quit.1 hs
    exact hmem.1 (Std.ExtTreeSet.mem_toList.2 hmem.2)
  rw [foldl_quit, hempty]

/-! ## Changes of one task -/

/-- one change that a move makes to a task -/
inductive Becomes (σ ρ : Type) [Host σ] [Picker ρ] : Task → Task → Prop
  | release {t : Task} : Becomes σ ρ t t.release.2
  | claim {t : Task} (u : UnitId) : Becomes σ ρ t (t.claim u)
  | advance {t : Task} (u : UnitId) (o : Outside σ ρ) : Becomes σ ρ t (t.advanced u o)
  | retire {t : Task} (hd : t.state = .done) : Becomes σ ρ t t.retire
  /-- it takes the place of another task in a pool -/
  | replace {t : Task} (s : SchedulerId) : Becomes σ ρ t (t.release.2.join s)
  | quit {t : Task} (s : SchedulerId) : Becomes σ ρ t (t.quit s)
  | setPriority {t : Task} (priority : Int64) : Becomes σ ρ t { t with priority }

end Task

namespace Application

variable {σ ρ : Type} {app app' : Application ρ}

/-! ## What finishing comes to -/

theorem leavePool_of_not_holds {s : SchedulerId} {t : TaskId} (h : ¬ app.Holds s t) : app.leavePool t s = app := by
  obtain ⟨e, he⟩ | ⟨sched, slot, hs, hi, -⟩ := app.unschedule_cases s t
  · rw [leavePool, he]
  · exact absurd ⟨sched, hs, Scheduler.contains_of_slot? hi⟩ h

/-- the task drops the handle, whether the pool holds it or not -/
theorem get?_leavePool (h : app.Pools) (t : TaskId) (s : SchedulerId) (t' : TaskId) :
    (app.leavePool t s).tasks.get? t' =
      if t = t' then (app.tasks.get? t').map (·.quit s) else app.tasks.get? t' := by
  by_cases hh : app.Holds s t
  · obtain ⟨sched, hs, hc⟩ := hh
    obtain ⟨slot, hi⟩ := Scheduler.slot?_of_contains hc
    simp only [leavePool, unschedule, hs, Scheduler.remove, hi, h.number s sched hs]
    exact Arena.get?_modify _ _ _ _
  · rw [leavePool_of_not_holds hh]
    split
    · subst t'
      cases ht : app.tasks.get? t with
      | none => rfl
      | some task =>
        have hnot : s ∉ task.schedulers := by rwa [← Arena.joined_of_get? ht, ← h.agree]
        rw [Option.map_some, Task.quit_of_notMem hnot]
    · rfl

theorem get?_leavePools (h : app.Pools) (t : TaskId) (ss : List SchedulerId) (t' : TaskId) :
    (ss.foldl (leavePool · t) app).tasks.get? t' =
      if t = t' then (app.tasks.get? t').map (ss.foldl Task.quit) else app.tasks.get? t' := by
  induction ss generalizing app with
  | nil => simp
  | cons s ss ih =>
    rw [List.foldl_cons, ih (pools_leavePool h t s), get?_leavePool h]
    split
    · rw [Option.map_map]
      rfl
    · rfl

/-- **A finished task is in no pool**; the other tasks are left alone -/
theorem get?_finish (h : app.Pools) (t : TaskId) (u : UnitId) (t' : TaskId) :
    (app.finish t u).tasks.get? t' = if t = t' then (app.tasks.get? t').map Task.retire else app.tasks.get? t' := by
  unfold finish
  simp only []
  cases ht : app.tasks.get? t with
  | none =>
    simp only [Arena.modify_of_get?_eq_none ht, ht]
    split
    · subst t'
      simp [ht]
    · rfl
  | some task =>
    have hended : Pools { app with claims := app.claims.erase u, tasks := app.tasks.modify t Task.finish } :=
      h.same rfl rfl fun task _ => task.same_finish
    simp only [Running.get?_modify_self ht]
    rw [get?_leavePools hended, Arena.get?_modify]
    split
    · subst t'
      rw [ht]
      exact congrArg some task.finish.foldl_quit_schedulers
    · rfl

end Application

/-! ## Arenas in the course of time -/

namespace Arena

def Each (P : Task → Prop) (a : Arena) : Prop := ∀ t task, a.get? t = some task → P task

theorem Each.modify {P : Task → Prop} {a : Arena} (h : a.Each P) {t : TaskId} {f : Task → Task}
    (hf : ∀ task, a.get? t = some task → P (f task)) : (a.modify t f).Each P := by
  intro t' task' ht'
  rw [get?_modify] at ht'
  split at ht'
  · subst t'
    obtain ⟨task, ht, rfl⟩ := Option.map_eq_some_iff.1 ht'
    exact hf task ht
  · exact h t' task' ht'

theorem Each.insert {P : Task → Prop} {a : Arena} (h : a.Each P) {new : Task} (hnew : P new.enrolled) :
    (a.insert new).2.Each P := by
  intro t task ht
  rw [get?_insert] at ht
  split at ht
  · obtain rfl := Option.some.inj ht
    exact hnew
  · exact h t task ht

/-- every task has come from one that was there, or that was added, by some changes -/
def Ages (σ ρ : Type) [Host σ] [Picker ρ] (a a' : Arena) : Prop :=
  ∀ t task', a'.get? t = some task' →
    ∃ task, (a.get? t = some task ∨ ∃ new : Task, task = new.enrolled) ∧
      Relation.ReflTransGen (Task.Becomes σ ρ) task task'

variable {σ ρ : Type} [Host σ] [Picker ρ] {a a' a'' : Arena}

namespace Ages

theorem refl (a : Arena) : Ages σ ρ a a := fun _ task h => ⟨task, .inl h, .refl⟩

theorem trans (h : Ages σ ρ a a') (h' : Ages σ ρ a' a'') : Ages σ ρ a a'' := by
  intro t task'' ht
  obtain ⟨task', hfrom | hnew, hbecomes'⟩ := h' t task'' ht
  · obtain ⟨task, hfrom, hbecomes⟩ := h t task' hfrom
    exact ⟨task, hfrom, hbecomes.trans hbecomes'⟩
  · exact ⟨task', .inr hnew, hbecomes'⟩

theorem modify {t : TaskId} {f : Task → Task}
    (hf : ∀ task, a.get? t = some task → Relation.ReflTransGen (Task.Becomes σ ρ) task (f task)) :
    Ages σ ρ a (a.modify t f) := by
  intro t' task' hg
  rw [get?_modify] at hg
  split at hg
  · subst t'
    obtain ⟨task, ht, rfl⟩ := Option.map_eq_some_iff.1 hg
    exact ⟨task, .inl ht, hf task ht⟩
  · exact ⟨task', .inl hg, .refl⟩

theorem insert (a : Arena) (new : Task) : Ages σ ρ a (a.insert new).2 := by
  intro t task' hg
  rw [get?_insert] at hg
  split at hg
  · exact ⟨task', .inr ⟨new, (Option.some.inj hg).symm⟩, .refl⟩
  · exact ⟨task', .inl hg, .refl⟩

/-- what changes keep, and what holds of a task at first, holds at any time -/
theorem keeps {P : Task → Prop} (h : Ages σ ρ a a') (hnew : ∀ new : Task, P new.enrolled)
    (hP : ∀ task task', Task.Becomes σ ρ task task' → P task → P task') {t : TaskId}
    (ht : ∀ task, a.get? t = some task → P task) {task' : Task} (ht' : a'.get? t = some task') : P task' := by
  obtain ⟨task, hfrom, hbecomes⟩ := h t task' ht'
  have hfirst : P task := by
    obtain hfrom | ⟨new, rfl⟩ := hfrom
    · exact ht task hfrom
    · exact hnew new
  clear hfrom ht'
  induction hbecomes with
  | refl => exact hfirst
  | tail _ hb ih => exact hP _ _ hb ih

end Ages

end Arena

namespace Application

variable {σ ρ : Type} [Host σ] [Picker ρ] {app app' : Application ρ}

open Relation (ReflTransGen)

/-- **What a move makes of the tasks** -/
theorem moves_ages (hm : Moves σ app app') (h : app.Pools) : Arena.Ages σ ρ app.tasks app'.tasks := by
  -- a change that knows what the task was
  have hconst : ∀ {t : TaskId} {task new : Task}, app.tasks.get? t = some task →
      ReflTransGen (Task.Becomes σ ρ) task new → Arena.Ages σ ρ app.tasks (app.tasks.modify t fun _ => new) := by
    intro t task new ht hb
    refine .modify fun task' ht' => ?_
    obtain rfl := Option.some.inj (ht.symm.trans ht')
    exact hb
  cases hm with
  | addTask new => exact .insert app.tasks new
  | addScheduler hf => exact .refl _
  | @replace s sched t u slot member newcomer hs hi ht hu hc hf hw =>
    have hmember := hconst ht ((ReflTransGen.single .release).tail (.quit sched.id))
    have hnewcomer := hmember.trans (.modify (t := u) fun _ _ => .single (.replace sched.id))
    cases hfreed : member.unit? <;> exact hnewcomer
  | claim hs hm hu ht hf => exact .modify fun _ _ => .single (.claim _)
  | @free t task ht =>
    have hfree := hconst ht (.single .release)
    cases hfreed : task.unit? <;> exact hfree
  | unschedule hs hi => exact .modify fun _ _ => .single (.quit _)
  | setPriority ht priority => exact .modify fun _ _ => .single (.setPriority priority)
  | advance hc ht o picker => exact hconst ht (.single (.advance _ o))
  | @finish u t task hc ht hd =>
    intro t' task' hg
    rw [get?_finish h] at hg
    split at hg
    · subst t'
      rw [ht] at hg
      obtain rfl := Option.some.inj hg
      exact ⟨task, .inl ht, .single (.retire hd)⟩
    · exact ⟨task', .inl hg, .refl⟩
  | fail hc ht hd => exact .modify fun _ _ => (ReflTransGen.single .release).tail (.setPriority _)
  | forget hc ht => exact .refl _

theorem chain_ages (hc : Chain σ app app') (h : app.Pools) : Arena.Ages σ ρ app.tasks app'.tasks := by
  have hboth : app'.Pools ∧ Arena.Ages σ ρ app.tasks app'.tasks := by
    refine hc.keeps (P := fun app' => app'.Pools ∧ Arena.Ages σ ρ app.tasks app'.tasks) ?_ ⟨h, .refl _⟩
    exact fun _ _ hm ⟨hp, ha⟩ => ⟨moves_pools hm hp, ha.trans (moves_ages hm hp)⟩
  exact hboth.2

/-- **What its changes and registrations keep of a task, a run keeps of all tasks** -/
theorem run_each {P : Task → Prop} (hnew : ∀ new : Task, P new.enrolled)
    (hP : ∀ task task', Task.Becomes σ ρ task task' → P task → P task') (hjoin : ∀ task s, P task → P (task.join s))
    (h : app.Pools) (ha : app.tasks.Each P) (ops : List (Op σ)) :
    (app.run ops).Pools ∧ (app.run ops).tasks.Each P := by
  refine run_keeps (P := fun app => app.Pools ∧ app.tasks.Each P) ?_ ?_ ⟨h, ha⟩ ops
  · exact fun _ _ hm ⟨hp, ha⟩ => ⟨moves_pools hm hp, fun t _ ht => (moves_ages hm hp).keeps hnew hP (ha t) ht⟩
  · rintro _ _ hr ⟨hp, ha⟩
    refine ⟨hp.register hr, ?_⟩
    obtain @⟨s, sched, t, task, hs, ht, hc, hw⟩ := hr
    exact ha.modify fun old hold => hjoin old _ (ha t old hold)

omit [Host σ] [Picker ρ] in
theorem each_initial (P : Task → Prop) (settings : Settings) (picker : ρ) : (initial settings picker).tasks.Each P :=
  fun t task ht => by simp [Application.initial, Arena.get?] at ht

/-! ## Coherent tasks -/

theorem coherent_becomes {task task' : Task} (hb : Task.Becomes σ ρ task task') (h : task.Coherent) :
    task'.Coherent := by
  cases hb with
  | release => exact task.fresh_release.coherent
  | claim u => exact (task.fresh_claim u).coherent
  | advance u o => exact Task.coherent_advanced h u o
  | retire hd =>
    have hended := Task.coherent_finish h hd
    exact ⟨hended.shaped, hended.records, hended.held⟩
  | replace s =>
    have hfresh := task.fresh_release.coherent
    exact ⟨hfresh.shaped, hfresh.records, hfresh.held⟩
  | quit s => exact ⟨h.shaped, h.records, h.held⟩
  | setPriority priority => exact ⟨h.shaped, h.records, h.held⟩

/-! ## Regular applications -/

/-- claims and pools are in order, and so are the tasks -/
structure Regular (app : Application ρ) : Prop where
  agree : app.Agree
  pools : app.Pools
  coherent : app.tasks.Each Task.Coherent

theorem Regular.moves (h : app.Regular) (hm : Moves σ app app') : app'.Regular where
  agree := moves_agree hm h.agree
  pools := moves_pools hm h.pools
  coherent t _ ht :=
    (moves_ages hm h.pools).keeps (fun _ => (Task.fresh_release _).coherent) (fun _ _ => coherent_becomes)
      (h.coherent t) ht

theorem Regular.chain (h : app.Regular) (hc : Chain σ app app') : app'.Regular :=
  hc.keeps (fun _ _ hm h => h.moves hm) h

/-- **Every run is regular** -/
theorem Regular.run (h : app.Regular) (ops : List (Op σ)) : (app.run ops).Regular where
  agree := run_keeps (fun _ _ => moves_agree) (fun _ _ => registers_agree) h.agree ops
  pools := run_keeps (fun _ _ => moves_pools) (fun _ _ hr h => h.register hr) h.pools ops
  coherent :=
    (run_each (fun _ => (Task.fresh_release _).coherent) (fun _ _ => coherent_becomes)
      (fun _ _ h => ⟨h.shaped, h.records, h.held⟩) h.pools h.coherent ops).2

omit [Host σ] [Picker ρ] in
theorem regular_initial (settings : Settings) (picker : ρ) : (initial settings picker).Regular :=
  ⟨Agree.initial settings picker, Pools.initial settings picker, each_initial _ settings picker⟩

end Application

end Errand
