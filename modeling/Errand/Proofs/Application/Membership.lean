/-
Membership: pools and tasks tell the same members, and every member is fit to be executed.

A membership is kept on both sides, as an entry of the scheduler and as a handle on the task. `Pools` is the invariant:
schedulers are numbered by their places and their factions differ, the entries of a pool are of different tasks and in
ascending order (`Scheduler.Orderly`), both sides tell the same (`agree`), and a task on which some handle is noted
passes the checks (`fit`). Every registration and every move keeps it (`Pools.register`, `moves_pools`); the fold by
which a finished task leaves its pools is a chain of removals. `run_membership` says what this means for every run.
-/
import Errand.Proofs.Application.Moves
import Errand.Rehearsal

namespace Errand

/-! ## One pool -/

namespace Scheduler

/-- the entries are of different tasks and in ascending order, and the next number is free -/
structure Orderly (s : Scheduler) : Prop where
  distinct : (s.entries.map (·.task)).Nodup
  ascending : s.entries.Pairwise (·.seq < ·.seq)
  below : ∀ e ∈ s.entries, e.seq < s.nextSeq

theorem contains_iff {s : Scheduler} {t : TaskId} : s.contains t = true ↔ t ∈ s.entries.map (·.task) := by
  simp [contains]

/-- where a member stands, and what a change or a removal at that place comes to -/
theorem split_of_slot? {s : Scheduler} {t : TaskId} {slot : Nat} (h : s.slot? t = some slot) :
    ∃ pre e post, s.entries = pre ++ e :: post ∧ e.task = t ∧ s.entries.eraseIdx slot = pre ++ post ∧
      ∀ f, s.entries.modify slot f = pre ++ f e :: post := by
  obtain ⟨hslot, ht, -⟩ := List.findIdx?_eq_some_iff_getElem.1 h
  have hsplit : s.entries = s.entries.take slot ++ s.entries[slot] :: s.entries.drop (slot + 1) := by simp
  refine ⟨_, _, _, hsplit, by simpa using ht, List.eraseIdx_eq_take_drop_succ _ _, fun f => ?_⟩
  rw [List.modify_eq_take_cons_drop hslot]

theorem contains_of_slot? {s : Scheduler} {t : TaskId} {slot : Nat} (h : s.slot? t = some slot) :
    s.contains t = true := by
  obtain ⟨pre, e, post, hs, ht, -⟩ := split_of_slot? h
  rw [contains_iff, hs]
  simp [ht]

theorem slot?_of_contains {s : Scheduler} {t : TaskId} (h : s.contains t = true) : ∃ slot, s.slot? t = some slot := by
  rw [← Option.isSome_iff_exists, slot?, List.findIdx?_isSome]
  exact h

theorem orderly_empty (id : SchedulerId) (faction : FactionId) : Orderly { id, faction } :=
  ⟨by simp, by simp, by simp⟩

variable {s : Scheduler}

theorem Orderly.register (h : s.Orderly) {t : TaskId} (hc : s.contains t = false) :
    Orderly { s with entries := s.entries ++ [⟨t, s.nextSeq⟩], nextSeq := s.nextSeq + 1 } where
  distinct := by
    have ht : t ∉ s.entries.map (·.task) := fun hm => by simp [contains_iff.2 hm] at hc
    rw [List.map_append, List.nodup_append]
    refine ⟨h.distinct, by simp, fun a ha b hb he => ?_⟩
    obtain rfl := List.mem_singleton.1 hb
    exact ht (he ▸ ha)
  ascending := by
    rw [List.pairwise_append]
    refine ⟨h.ascending, List.pairwise_singleton _ _, fun a ha b hb => ?_⟩
    obtain rfl := List.mem_singleton.1 hb
    exact h.below a ha
  below := by
    intro e he
    rcases List.mem_append.1 he with he | he
    · exact Nat.lt_succ_of_lt (h.below e he)
    · obtain rfl := List.mem_singleton.1 he
      exact Nat.lt_succ_self _

theorem Orderly.remove (h : s.Orderly) (slot : Nat) : Orderly { s with entries := s.entries.eraseIdx slot } where
  distinct := h.distinct.sublist ((List.eraseIdx_sublist _ _).map _)
  ascending := h.ascending.sublist (List.eraseIdx_sublist _ _)
  below e he := h.below e ((List.eraseIdx_sublist _ _).subset he)

/-- the members at a place and elsewhere -/
theorem mem_tasks_split {pre post : List Entry} {e : Entry} {t : TaskId} :
    t ∈ (pre ++ e :: post).map (·.task) ↔ t = e.task ∨ t ∈ (pre ++ post).map (·.task) := by
  simp only [List.map_append, List.map_cons, List.mem_append, List.mem_cons]
  exact or_left_comm

/-- a member stands at one place only -/
theorem Orderly.notMem_others (h : s.Orderly) {pre post : List Entry} {e : Entry} (hs : s.entries = pre ++ e :: post) :
    e.task ∉ (pre ++ post).map (·.task) ∧ ((pre ++ post).map (·.task)).Nodup := by
  have hd := h.distinct
  rw [hs, List.map_append, List.map_cons, List.nodup_middle, List.nodup_cons, ← List.map_append] at hd
  exact hd

/-- a replacement; the newcomer takes the number over with the place -/
theorem Orderly.replace (h : s.Orderly) {t u : TaskId} {slot : Nat} (hi : s.slot? t = some slot)
    (hc : s.contains u = false) :
    Orderly { s with entries := s.entries.modify slot ({ · with task := u }) } := by
  obtain ⟨pre, e, post, hs, -, -, hmod⟩ := split_of_slot? hi
  have hu : u ∉ s.entries.map (·.task) := fun hm => by simp [contains_iff.2 hm] at hc
  have hseq : (s.entries.modify slot ({ · with task := u })).map (·.seq) = s.entries.map (·.seq) := by
    rw [hmod, hs]
    simp
  refine ⟨?_, ?_, fun d hd => ?_⟩
  · rw [hs, mem_tasks_split, not_or] at hu
    simp only [hmod, List.map_append, List.map_cons]
    rw [List.nodup_middle, List.nodup_cons, ← List.map_append]
    exact ⟨hu.2, (h.notMem_others hs).2⟩
  · have ha := List.pairwise_map.2 h.ascending
    rw [← hseq] at ha
    exact List.pairwise_map.1 ha
  · have hmem : d.seq ∈ s.entries.map (·.seq) := hseq ▸ List.mem_map_of_mem hd
    obtain ⟨old, hold, he⟩ := List.mem_map.1 hmem
    exact he ▸ h.below old hold

theorem contains_eraseIdx (h : s.Orderly) {t : TaskId} {slot : Nat} (hi : s.slot? t = some slot) (t' : TaskId) :
    contains { s with entries := s.entries.eraseIdx slot } t' = true ↔ t' ≠ t ∧ s.contains t' = true := by
  obtain ⟨pre, e, post, hs, rfl, herase, -⟩ := split_of_slot? hi
  rw [contains_iff, contains_iff, herase, hs, mem_tasks_split]
  constructor
  · intro hm
    exact ⟨fun he => (h.notMem_others hs).1 (he ▸ hm), .inr hm⟩
  · rintro ⟨hne, he | hm⟩
    · exact absurd he hne
    · exact hm

theorem contains_modify (h : s.Orderly) {t u : TaskId} {slot : Nat} (hi : s.slot? t = some slot) (t' : TaskId) :
    contains { s with entries := s.entries.modify slot ({ · with task := u }) } t' = true ↔
      t' = u ∨ t' ≠ t ∧ s.contains t' = true := by
  obtain ⟨pre, e, post, hs, rfl, herase, hmod⟩ := split_of_slot? hi
  have hothers := contains_eraseIdx h hi t'
  rw [contains_iff, herase] at hothers
  rw [← hothers, contains_iff, hmod, mem_tasks_split]

end Scheduler

/-! ## Both sides of a membership -/

theorem Task.mem_schedulers_join {t : Task} {s s' : SchedulerId} :
    s' ∈ (t.join s).schedulers ↔ s' = s ∨ s' ∈ t.schedulers := by
  rw [join, Std.ExtTreeSet.mem_insert, Std.compare_eq_iff_eq, eq_comm]

theorem Task.mem_schedulers_quit {t : Task} {s s' : SchedulerId} :
    s' ∈ (t.quit s).schedulers ↔ s' ≠ s ∧ s' ∈ t.schedulers := by
  rw [quit, Std.ExtTreeSet.mem_erase, ne_eq, Std.compare_eq_iff_eq, eq_comm]

namespace Arena

/-- the task exists and has a handle noted on it -/
def Joined (a : Arena) (t : TaskId) (s : SchedulerId) : Prop := ∃ task, a.get? t = some task ∧ s ∈ task.schedulers

theorem joined_of_get? {a : Arena} {t : TaskId} {task : Task} (h : a.get? t = some task) {s : SchedulerId} :
    a.Joined t s ↔ s ∈ task.schedulers := by
  simp [Joined, h]

theorem joined_modify {a : Arena} {t : TaskId} {task : Task} (h : a.get? t = some task) (f : Task → Task)
    (t' : TaskId) (s : SchedulerId) :
    (a.modify t f).Joined t' s ↔ if t' = t then s ∈ (f task).schedulers else a.Joined t' s := by
  unfold Joined
  rw [get?_modify]
  by_cases ht : t = t'
  · subst t'
    simp [h]
  · simp [ht, Ne.symm ht]

/-- a task on which some handle is noted passes the checks -/
def Fit (a : Arena) : Prop := ∀ ⦃t task s⦄, a.get? t = some task → s ∈ task.schedulers → task.problems = []

theorem Fit.modify {a : Arena} (h : a.Fit) {t : TaskId} {f : Task → Task}
    (hf : ∀ task, a.get? t = some task → ∀ s ∈ (f task).schedulers, (f task).problems = []) : (a.modify t f).Fit := by
  intro t' task' s hg hm
  rw [get?_modify] at hg
  split at hg
  · subst t'
    obtain ⟨task, ht, rfl⟩ := Option.map_eq_some_iff.1 hg
    exact hf task ht s hm
  · exact h hg hm

theorem joined_insert (a : Arena) (task : Task) (t : TaskId) (s : SchedulerId) :
    (a.insert task).2.Joined t s ↔ a.Joined t s := by
  unfold Joined
  rw [get?_insert]
  split
  · rename_i hi
    simp [get?_eq_none_of_size_le hi.ge, Task.release, Task.restart]
  · rfl

end Arena

namespace Application

variable {σ ρ : Type} {app app' : Application ρ}

/-- the scheduler exists and has an entry for the task -/
def Holds (app : Application ρ) (s : SchedulerId) (t : TaskId) : Prop :=
  ∃ sched, app.scheduler? s = some sched ∧ sched.contains t = true

theorem holds_of_scheduler? {s : SchedulerId} {sched : Scheduler} (h : app.scheduler? s = some sched) {t : TaskId} :
    app.Holds s t ↔ sched.contains t = true := by
  simp [Holds, h]

theorem scheduler?_withScheduler {s : SchedulerId} {sched : Scheduler} (h : app.scheduler? s = some sched)
    (new : Scheduler) (tasks : Arena) (s' : SchedulerId) :
    scheduler? { app.withScheduler s new with tasks } s' = if s' = s then some new else app.scheduler? s' := by
  obtain ⟨hi, -⟩ := Array.getElem?_eq_some_iff.1 h
  cases s; cases s'
  simp only [scheduler?, withScheduler, Array.getElem?_setIfInBounds, SchedulerId.mk.injEq]
  grind

theorem holds_withScheduler {s : SchedulerId} {sched : Scheduler} (h : app.scheduler? s = some sched)
    (new : Scheduler) (tasks : Arena) (s' : SchedulerId) (t : TaskId) :
    Holds { app.withScheduler s new with tasks } s' t ↔ if s' = s then new.contains t = true else app.Holds s' t := by
  unfold Holds
  rw [scheduler?_withScheduler h]
  split <;> simp

/-! ## The invariant -/

/-- the schedulers are in order, both sides of every membership agree, and members pass the checks -/
structure Pools (app : Application ρ) : Prop where
  number : ∀ s sched, app.scheduler? s = some sched → sched.id = s
  apart : ∀ s s' sched sched', app.scheduler? s = some sched → app.scheduler? s' = some sched' →
    sched.faction = sched'.faction → s = s'
  orderly : ∀ s sched, app.scheduler? s = some sched → sched.Orderly
  agree : ∀ s t, app.Holds s t ↔ app.tasks.Joined t s
  fit : app.tasks.Fit

namespace Pools

theorem initial (settings : Settings) (picker : ρ) : (initial settings picker).Pools := by
  constructor <;> simp [Application.initial, scheduler?, Holds, Arena.Joined, Arena.Fit, Arena.get?]

theorem contains_iff (h : app.Pools) {s : SchedulerId} {sched : Scheduler} {t : TaskId} {task : Task}
    (hs : app.scheduler? s = some sched) (ht : app.tasks.get? t = some task) :
    sched.contains t = true ↔ s ∈ task.schedulers := by
  rw [← holds_of_scheduler? hs, h.agree, Arena.joined_of_get? ht]

/-- claims and picker do not matter -/
theorem of_eq (h : app.Pools) (hs : app'.schedulers = app.schedulers) (ht : app'.tasks = app.tasks) : app'.Pools := by
  have hsched : ∀ s, app'.scheduler? s = app.scheduler? s := fun s => by rw [scheduler?, hs]; rfl
  constructor
  · simpa only [hsched] using h.number
  · simpa only [hsched] using h.apart
  · simpa only [hsched] using h.orderly
  · simpa only [Holds, hsched, ht] using h.agree
  · exact ht ▸ h.fit

/-- whatever became free, the pools are left alone -/
theorem freeing (h : app.Pools) (freed : Option UnitId) : (app.freeing freed).Pools := by
  cases freed with
  | none => exact h
  | some u => exact h.of_eq rfl rfl

theorem addTask (h : app.Pools) (t : Task) : (app.addTask t).2.Pools := by
  refine ⟨h.number, h.apart, h.orderly, fun s t' => ?_, fun t' task s hg hm => ?_⟩
  · exact (h.agree s t').trans (app.tasks.joined_insert t t' s).symm
  · obtain ⟨old, hold, hmold⟩ := (app.tasks.joined_insert t t' s).1 ⟨task, hg, hm⟩
    have hlt : t'.index ≠ app.tasks.size := by
      intro he
      rw [Arena.get?_eq_none_of_size_le he.ge] at hold
      exact absurd hold (by simp)
    rw [Application.addTask, Arena.get?_insert, if_neg hlt] at hg
    exact h.fit hg hm

/-- a new pool is empty, has the next number and is the first of its faction -/
theorem addScheduler (h : app.Pools) {f : FactionId} (hf : app.schedulerFor? f = none) :
    Pools { app with schedulers := app.schedulers.push { id := ⟨app.schedulers.size⟩, faction := f } } := by
  have hother : ∀ s sched, app.scheduler? s = some sched → sched.faction ≠ f := by
    intro s sched hs
    have hfind := Array.find?_eq_none.1 (Option.map_eq_none_iff.1 hf) sched (Array.mem_of_getElem? hs)
    simpa using hfind
  have hlt : ∀ s sched, app.scheduler? s = some sched → s.index < app.schedulers.size := fun s sched hs =>
    (Array.getElem?_eq_some_iff.1 hs).1
  -- a scheduler of the new table is the new one or one of the old
  have hcases : ∀ s sched,
      scheduler? { app with schedulers := app.schedulers.push { id := ⟨app.schedulers.size⟩, faction := f } } s =
        some sched ↔ (s = ⟨app.schedulers.size⟩ ∧ sched = { id := ⟨app.schedulers.size⟩, faction := f }) ∨
          app.scheduler? s = some sched := by
    intro s sched
    have hpush : scheduler? { app with
        schedulers := app.schedulers.push { id := ⟨app.schedulers.size⟩, faction := f } } s = _ := Array.getElem?_push
    rw [hpush]
    split
    · rename_i he
      have hnone : app.scheduler? s ≠ some sched := fun hs => absurd (hlt s sched hs) (by omega)
      obtain rfl : s = ⟨app.schedulers.size⟩ := congrArg SchedulerId.mk he
      simp [hnone, eq_comm]
    · rename_i he
      have hs : s ≠ ⟨app.schedulers.size⟩ := fun hs => he (congrArg SchedulerId.index hs)
      simp only [hs, false_and, false_or]
      rfl
  refine ⟨fun s sched hs => ?_, fun s s' sched sched' hs hs' he => ?_, fun s sched hs => ?_, fun s t => ?_, h.fit⟩
  · obtain ⟨rfl, rfl⟩ | hs := (hcases s sched).1 hs
    · rfl
    · exact h.number s sched hs
  · obtain ⟨rfl, rfl⟩ | hs := (hcases s sched).1 hs <;> obtain ⟨rfl, rfl⟩ | hs' := (hcases s' sched').1 hs'
    · rfl
    · exact absurd he.symm (hother s' sched' hs')
    · exact absurd he (hother s sched hs)
    · exact h.apart s s' sched sched' hs hs' he
  · obtain ⟨rfl, rfl⟩ | hs := (hcases s sched).1 hs
    · exact Scheduler.orderly_empty _ f
    · exact h.orderly s sched hs
  · refine Iff.trans ⟨?_, ?_⟩ (h.agree s t)
    · rintro ⟨sched, hs, hc⟩
      obtain ⟨rfl, rfl⟩ | hs := (hcases s sched).1 hs
      · simp [Scheduler.contains] at hc
      · exact ⟨sched, hs, hc⟩
    · rintro ⟨sched, hs, hc⟩
      exact ⟨sched, (hcases s sched).2 (.inr hs), hc⟩

/-- no pool changes, and one task changes at most in how far it has come -/
theorem same (h : app.Pools) {t : TaskId} {f : Task → Task} (hs : app'.schedulers = app.schedulers)
    (ht : app'.tasks = app.tasks.modify t f) (hf : ∀ task, app.tasks.get? t = some task → Task.Same task (f task)) :
    app'.Pools := by
  have hsched : ∀ s, app'.scheduler? s = app.scheduler? s := fun s => by rw [scheduler?, hs]; rfl
  refine ⟨?_, ?_, ?_, ?_, ?_⟩
  · simpa only [hsched] using h.number
  · simpa only [hsched] using h.apart
  · simpa only [hsched] using h.orderly
  · intro s t'
    have hholds : app'.Holds s t' ↔ app.Holds s t' := by unfold Holds; rw [hsched]
    rw [hholds, h.agree, ht]
    cases hg : app.tasks.get? t with
    | none => rw [Arena.modify_of_get?_eq_none hg]
    | some task =>
      rw [Arena.joined_modify hg, (hf task hg).schedulers]
      split
      · subst t'
        exact Arena.joined_of_get? hg
      · rfl
  · rw [ht]
    refine h.fit.modify fun task hg s hm => ?_
    rw [(hf task hg).problems]
    exact h.fit hg ((hf task hg).schedulers ▸ hm)

/-- one pool changes, and some tasks with it -/
theorem update (h : app.Pools) {s : SchedulerId} {sched new : Scheduler} {tasks : Arena}
    (hs : app.scheduler? s = some sched) (hid : new.id = sched.id) (hfaction : new.faction = sched.faction)
    (hnew : new.Orderly) (hfit : tasks.Fit)
    (hagree : ∀ s' t', (if s' = s then new.contains t' = true else app.Holds s' t') ↔ tasks.Joined t' s') :
    Pools { app.withScheduler s new with tasks } := by
  have hsched := scheduler?_withScheduler hs new tasks
  -- number and faction of the new pool are those of the old one
  have hold : ∀ s' sched', scheduler? { app.withScheduler s new with tasks } s' = some sched' →
      ∃ old, app.scheduler? s' = some old ∧ sched'.id = old.id ∧ sched'.faction = old.faction := by
    intro s' sched' hs'
    rw [hsched] at hs'
    split at hs'
    · subst s'
      obtain rfl := Option.some.inj hs'
      exact ⟨sched, hs, hid, hfaction⟩
    · exact ⟨sched', hs', rfl, rfl⟩
  refine ⟨fun s' sched' hs' => ?_, fun s₁ s₂ sched₁ sched₂ h₁ h₂ he => ?_, fun s' sched' hs' => ?_,
    fun s' t' => ?_, hfit⟩
  · obtain ⟨old, ho, hid', -⟩ := hold s' sched' hs'
    rw [hid', h.number s' old ho]
  · obtain ⟨old₁, ho₁, -, hf₁⟩ := hold s₁ sched₁ h₁
    obtain ⟨old₂, ho₂, -, hf₂⟩ := hold s₂ sched₂ h₂
    exact h.apart s₁ s₂ old₁ old₂ ho₁ ho₂ (hf₁ ▸ hf₂ ▸ he)
  · rw [hsched] at hs'
    split at hs'
    · exact Option.some.inj hs' ▸ hnew
    · exact h.orderly s' sched' hs'
  · rw [holds_withScheduler hs]
    exact hagree s' t'

theorem unschedule (h : app.Pools) {s : SchedulerId} {sched : Scheduler} {t : TaskId} {slot : Nat}
    (hs : app.scheduler? s = some sched) (hi : sched.slot? t = some slot) :
    Pools { app.withScheduler s { sched with entries := sched.entries.eraseIdx slot } with
      tasks := app.tasks.modify t (·.quit sched.id) } := by
  have hord := h.orderly s sched hs
  refine h.update hs rfl rfl (hord.remove slot) ?_ fun s' t' => ?_
  · refine h.fit.modify fun task ht s' hm => ?_
    have hfit : task.problems = [] := h.fit ht (Task.mem_schedulers_quit.1 hm).2
    exact hfit
  · obtain ⟨task, ht, -⟩ := (h.agree s t).1 ((holds_of_scheduler? hs).2 (Scheduler.contains_of_slot? hi))
    rw [Arena.joined_modify ht, Task.mem_schedulers_quit, Scheduler.contains_eraseIdx hord hi, h.number s sched hs,
      ← holds_of_scheduler? hs, h.agree, h.agree, ← Arena.joined_of_get? ht]
    by_cases hs' : s' = s <;> by_cases ht' : t' = t <;> simp [hs', ht']

theorem register (h : app.Pools) (hr : Registers app app') : app'.Pools := by
  obtain @⟨s, sched, t, task, hs, ht, hc, hw⟩ := hr
  refine h.update hs rfl rfl ((h.orderly s sched hs).register hc) ?_ fun s' t' => ?_
  · refine h.fit.modify fun task' ht' s' hm => ?_
    obtain rfl := Option.some.inj (ht.symm.trans ht')
    exact List.isEmpty_iff.1 hw
  · rw [Arena.joined_modify ht, Task.mem_schedulers_join, h.number s sched hs, Scheduler.contains_iff, List.map_append,
      List.mem_append, ← Scheduler.contains_iff, ← holds_of_scheduler? hs, h.agree, h.agree, ← Arena.joined_of_get? ht]
    by_cases hs' : s' = s <;> by_cases ht' : t' = t <;> simp [hs', ht']

theorem replace (h : app.Pools) {s : SchedulerId} {sched : Scheduler} {t u : TaskId} {slot : Nat}
    {member newcomer : Task} (hs : app.scheduler? s = some sched) (hi : sched.slot? t = some slot)
    (ht : app.tasks.get? t = some member) (hu : app.tasks.get? u = some newcomer) (hc : sched.contains u = false)
    (hw : newcomer.isWellFormed = true) :
    Pools { app.withScheduler s { sched with entries := sched.entries.modify slot ({ · with task := u }) } with
      tasks := (app.tasks.modify t fun _ => member.release.2.quit sched.id).modify u
        fun n => n.release.2.join sched.id } := by
  have hord := h.orderly s sched hs
  have hne : u ≠ t := by
    rintro rfl
    rw [Scheduler.contains_of_slot? hi] at hc
    exact absurd hc (by simp)
  have hu' : (app.tasks.modify t fun _ => member.release.2.quit sched.id).get? u = some newcomer := by
    rw [Arena.get?_modify, if_neg hne.symm, hu]
  refine h.update hs rfl rfl (hord.replace hi hc) ?_ fun s' t' => ?_
  · refine Arena.Fit.modify (h.fit.modify fun task ht' s' hm => ?_) fun task hu'' s' hm => ?_
    · have hfit : member.problems = [] := h.fit ht (Task.mem_schedulers_quit.1 hm).2
      exact (member.same_release.problems).trans hfit
    · obtain rfl := Option.some.inj (hu'.symm.trans hu'')
      exact (newcomer.same_release.problems).trans (List.isEmpty_iff.1 hw)
  · have hmember : s' ∈ member.release.2.schedulers ↔ app.Holds s' t := by
      rw [h.agree, Arena.joined_of_get? ht, member.same_release.schedulers]
    have hnewcomer : s' ∈ newcomer.release.2.schedulers ↔ app.Holds s' u := by
      rw [h.agree, Arena.joined_of_get? hu, newcomer.same_release.schedulers]
    rw [Arena.joined_modify hu', Arena.joined_modify ht, Task.mem_schedulers_join, Task.mem_schedulers_quit, hmember,
      hnewcomer, ← h.agree, Scheduler.contains_modify hord hi, h.number s sched hs, ← holds_of_scheduler? hs]
    by_cases hs' : s' = s <;> by_cases ht' : t' = t <;> by_cases hu' : t' = u <;> simp_all

end Pools

/-! ## Moves and registrations keep the invariant -/

theorem pools_leavePool (h : app.Pools) (t : TaskId) (s : SchedulerId) : (app.leavePool t s).Pools := by
  obtain ⟨e, he⟩ | ⟨sched, slot, hs, hi, he⟩ := app.unschedule_cases s t
  · rwa [leavePool, he]
  · rw [leavePool, he]
    exact h.unschedule hs hi

theorem pools_finish (h : app.Pools) (t : TaskId) (u : UnitId) : (app.finish t u).Pools := by
  apply finish_keeps
  · exact h.same rfl rfl fun task _ => task.same_finish
  · exact fun app s h => pools_leavePool h t s

variable [Host σ] [Picker ρ]

/-- **Every move keeps the pools in order** -/
theorem moves_pools (hm : Moves σ app app') (h : app.Pools) : app'.Pools := by
  cases hm with
  | addTask t => exact h.addTask t
  | addScheduler hf => exact h.addScheduler hf
  | replace hs hi ht hu hc hf hw => exact (h.replace hs hi ht hu hc hw).freeing _
  | claim hs hm hu ht hf => exact h.same rfl rfl fun task _ => task.same_claim _
  | @free t task ht =>
    have hfree : Pools { app with tasks := app.tasks.modify t fun _ => task.release.2 } := by
      refine h.same rfl rfl fun task' ht' => ?_
      obtain rfl := Option.some.inj (ht.symm.trans ht')
      exact task.same_release
    exact hfree.freeing _
  | unschedule hs hi => exact h.unschedule hs hi
  | setPriority ht priority => exact h.same rfl rfl fun task _ => ⟨rfl, rfl, rfl, rfl, rfl⟩
  | @advance u t task hc ht o picker =>
    refine h.same rfl rfl fun task' ht' => ?_
    obtain rfl := Option.some.inj (ht.symm.trans ht')
    exact task.same_advanced u o
  | finish hc ht hd => exact pools_finish h _ _
  | fail hc ht hd => exact h.same rfl rfl fun task _ => task.same_release.trans ⟨rfl, rfl, rfl, rfl, rfl⟩
  | forget hc ht => exact h.of_eq rfl rfl

theorem run_pools (settings : Settings) (picker : ρ) (ops : List (Op σ)) : ((initial settings picker).run ops).Pools :=
  run_keeps (fun _ _ => moves_pools) (fun _ _ hr h => h.register hr) (Pools.initial settings picker) ops

/-! ## Numbers of registrations -/

omit [Host σ] [Picker ρ] in
theorem schedulers_freeing (app : Application ρ) (freed : Option UnitId) :
    (app.freeing freed).schedulers = app.schedulers := by
  cases freed <;> rfl

omit [Host σ] [Picker ρ] in
theorem tasks_freeing (app : Application ρ) (freed : Option UnitId) : (app.freeing freed).tasks = app.tasks := by
  cases freed <;> rfl

/-- no pool has given out more than `n` numbers -/
def Numbered (n : Nat) (schedulers : Array Scheduler) : Prop := ∀ sched ∈ schedulers, sched.nextSeq ≤ n

theorem Numbered.set {n : Nat} {schedulers : Array Scheduler} (h : Numbered n schedulers) {i : Nat} {new : Scheduler}
    (hn : new.nextSeq ≤ n) : Numbered n (schedulers.setIfInBounds i new) := by
  intro sched hs
  obtain hs | rfl := Array.mem_or_eq_of_mem_setIfInBounds hs
  · exact h sched hs
  · exact hn

omit [Host σ] [Picker ρ] in
theorem Numbered.scheduler? {n : Nat} (h : Numbered n app.schedulers) {s : SchedulerId} {sched : Scheduler}
    (hs : app.scheduler? s = some sched) : sched.nextSeq ≤ n :=
  h sched (Array.mem_of_getElem? hs)

/-- only registrations take numbers -/
theorem moves_numbered {n : Nat} (hm : Moves σ app app') (h : Numbered n app.schedulers) :
    Numbered n app'.schedulers := by
  cases hm with
  | addScheduler hf =>
    intro sched hs
    obtain hs | rfl := Array.mem_push.1 hs
    · exact h sched hs
    · exact Nat.zero_le n
  | @replace s sched t u slot member newcomer hs =>
    have hn : sched.nextSeq ≤ n := h.scheduler? hs
    rw [schedulers_freeing]
    exact h.set hn
  | free ht =>
    rw [schedulers_freeing]
    exact h
  | @unschedule s sched t slot hs =>
    have hn : sched.nextSeq ≤ n := h.scheduler? hs
    exact h.set hn
  | @finish u t =>
    apply finish_keeps (P := fun app => Numbered n app.schedulers)
    · exact h
    · intro app s h
      obtain ⟨e, he⟩ | ⟨sched, slot, hs, -, he⟩ := app.unschedule_cases s t
      · rwa [leavePool, he]
      · have hn : sched.nextSeq ≤ n := h.scheduler? hs
        rw [leavePool, he]
        exact h.set hn
  | _ => exact h

omit [Host σ] [Picker ρ] in
theorem registers_numbered {n : Nat} (hr : Registers app app') (h : Numbered n app.schedulers) :
    Numbered (n + 1) app'.schedulers := by
  obtain @⟨s, sched, t, task, hs, -, -, -⟩ := hr
  have hle : Numbered (n + 1) app.schedulers := fun sched hs => Nat.le_succ_of_le (h sched hs)
  have hn : sched.nextSeq + 1 ≤ n + 1 := Nat.succ_le_succ (h.scheduler? hs)
  exact hle.set hn

/-- a run takes as many numbers as it has calls of `schedule`, at most -/
theorem run_numbered {n : Nat} (h : Numbered n app.schedulers) (ops : List (Op σ)) :
    Numbered (n + ops.countP (·.isSchedule)) (app.run ops).schedulers := by
  induction ops generalizing app n with
  | nil => exact h
  | cons op ops ih =>
    rw [List.countP_cons]
    obtain hc | ⟨hop, hreg⟩ := app.perform_cases op
    · have hnext := ih (hc.keeps (P := fun app => Numbered n app.schedulers) (fun _ _ => moves_numbered) h)
      exact fun sched hs => (hnext sched hs).trans (by omega)
    · have hnext := ih (registers_numbered hreg h)
      rw [if_pos hop]
      exact fun sched hs => (hnext sched hs).trans (by omega)

/-! ## Runs -/

/-- **Membership in every run.** After any operations, with any arguments and hosts: a pool has an entry for a task
exactly when its handle is noted on the task; a pool has one entry for a task at most, in ascending order of their
numbers, which are below the next one, and the next one is at most the number of calls of `schedule`; schedulers are
numbered by their places and no two share a faction; every member exists and passes the checks, also after any number of
advances. -/
theorem run_membership (settings : Settings) (picker : ρ) (ops : List (Op σ)) :
    let app := (initial settings picker).run ops
    (∀ t task s sched, app.tasks.get? t = some task → app.scheduler? s = some sched →
      (sched.id ∈ task.schedulers ↔ ∃ e ∈ sched.entries, e.task = t)) ∧
    (∀ sched ∈ app.schedulers, (sched.entries.map (·.task)).Nodup ∧ sched.entries.Pairwise (·.seq < ·.seq) ∧
      (∀ e ∈ sched.entries, e.seq < sched.nextSeq) ∧ sched.nextSeq ≤ ops.countP (·.isSchedule)) ∧
    (∀ (i : Nat) (sched : Scheduler), app.schedulers[i]? = some sched → sched.id = ⟨i⟩) ∧
    (∀ (i j : Nat) (one two : Scheduler), app.schedulers[i]? = some one → app.schedulers[j]? = some two →
      one.faction = two.faction → i = j) ∧
    ∀ sched ∈ app.schedulers, ∀ e ∈ sched.entries, ∃ task, app.tasks.get? e.task = some task ∧
      task.isWellFormed = true ∧
      ∀ calls : List (UnitId × Outside σ ρ), (task.advances calls).isWellFormed = true := by
  intro app
  have hpools : app.Pools := run_pools settings picker ops
  have hat : ∀ sched ∈ app.schedulers, ∃ s, app.scheduler? s = some sched := fun sched hs => by
    obtain ⟨i, hi, he⟩ := Array.mem_iff_getElem.1 hs
    exact ⟨⟨i⟩, he ▸ Array.getElem?_eq_getElem hi⟩
  refine ⟨fun t task s sched ht hs => ?_, fun sched hs => ?_, fun i sched hs => hpools.number ⟨i⟩ sched hs,
    fun i j one two h₁ h₂ he => ?_, fun sched hs e he => ?_⟩
  · rw [hpools.number s sched hs, ← Arena.joined_of_get? ht, ← hpools.agree, holds_of_scheduler? hs,
      Scheduler.contains_iff, List.mem_map]
  · obtain ⟨s, hsome⟩ := hat sched hs
    have hord := hpools.orderly s sched hsome
    have hnum : Numbered (0 + ops.countP (·.isSchedule)) app.schedulers :=
      run_numbered (fun sched hs => absurd hs (by simp [Application.initial])) ops
    exact ⟨hord.distinct, hord.ascending, hord.below, by simpa using hnum sched hs⟩
  · exact congrArg SchedulerId.index (hpools.apart ⟨i⟩ ⟨j⟩ one two h₁ h₂ he)
  · obtain ⟨s, hsome⟩ := hat sched hs
    have hmem : sched.contains e.task = true := Scheduler.contains_iff.2 (List.mem_map_of_mem he)
    obtain ⟨task, ht, hm⟩ := (hpools.agree s e.task).1 ((holds_of_scheduler? hsome).2 hmem)
    have hchecked : task.problems = [] := hpools.fit ht hm
    refine ⟨task, ht, List.isEmpty_iff.2 hchecked, fun calls => List.isEmpty_iff.2 ?_⟩
    exact (task.same_advances calls).problems.trans hchecked

/-- three tasks and two pools; in the first pool the third task takes the place of the first -/
def handover : List (Op Rehearsal) :=
  [.addTask (Task.make "dig" 2 (.print {} (.boolean {} true))),
    .addTask (Task.make "haul" 1 (.loop {} (.boolean {} true) (.leave {}))),
    .addTask (Task.make "rest" 0 (.print {} (.boolean {} false))),
    .addScheduler ⟨1⟩, .addScheduler ⟨2⟩, .addScheduler ⟨1⟩,
    .schedule ⟨0⟩ ⟨0⟩, .schedule ⟨0⟩ ⟨1⟩, .schedule ⟨1⟩ ⟨1⟩, .schedule ⟨1⟩ ⟨7⟩,
    .replace ⟨0⟩ ⟨0⟩ ⟨2⟩ { world := { size := ⟨1, 1, 1⟩ : Setting }.world }]

/-- the newcomer has the place and the number of the task before it, and its pool is noted on it -/
theorem run_membership_handover :
    let app := (initial {} (Replay.mk [])).run handover
    let pool : Scheduler := { id := ⟨0⟩, faction := ⟨1⟩, entries := [⟨⟨2⟩, 0⟩, ⟨⟨1⟩, 1⟩], nextSeq := 2 }
    app.scheduler? ⟨0⟩ = some pool ∧ handover.countP (·.isSchedule) = 4 ∧
      ∃ task, app.tasks.get? ⟨2⟩ = some task ∧ (⟨0⟩ ∈ task.schedulers) ∧
        ∀ calls : List (UnitId × Outside Rehearsal Replay), (task.advances calls).isWellFormed = true := by
  intro app pool
  have hpool : app.scheduler? ⟨0⟩ = some pool := by decide +kernel
  obtain ⟨hlink, -, -, -, hmember⟩ := run_membership {} (Replay.mk []) handover
  have he : (⟨⟨2⟩, 0⟩ : Entry) ∈ pool.entries := by decide
  obtain ⟨task, ht, -, hcalls⟩ := hmember pool (Array.mem_of_getElem? hpool) _ he
  exact ⟨hpool, by decide, task, ht, (hlink _ task _ pool ht hpool).2 ⟨_, he, rfl⟩, hcalls⟩

end Application

end Errand
