/-
Claiming: an idle unit takes the best pending member, and all pools take note.

`Reachable` are the pools over one arena that operations make of none: registrations, replacements, removals, new
tasks, and any change of a single task, as claims, interruptions, steps and other priorities are. Their entries are in
order and of tasks that exist (`reachable_inOrder`), which is all that matters here. So the order of assignment lists
every member once, by rank (`perm_ordered`); a claim goes to the first that is free (`assignNext_eq_some`) and is seen
by every pool at once (`pending_claim`, `assigned_claim`); and claims one after the other take the pending members in
order (`assignEach_eq`). What applications do to their pools is reachable (`reachable_run`).
-/
import Errand.Proofs.Scheduler.Order

namespace Errand

namespace Arena

/-- no task is missing in the later arena -/
def Grows (a a' : Arena) : Prop := ∀ t, (∃ task, a.get? t = some task) → ∃ task, a'.get? t = some task

variable {a a' a'' : Arena}

theorem Grows.refl (a : Arena) : a.Grows a := fun _ h => h

theorem Grows.trans (h : a.Grows a') (h' : a'.Grows a'') : a.Grows a'' := fun t ht => h' t (h t ht)

theorem grows_modify (a : Arena) (t : TaskId) (f : Task → Task) : a.Grows (a.modify t f) := by
  rintro t' ⟨task, ht⟩
  rw [get?_modify]
  split
  · exact ⟨f task, by rw [ht]; rfl⟩
  · exact ⟨task, ht⟩

theorem grows_insert (a : Arena) (new : Task) : a.Grows (a.insert new).2 := by
  intro t ht
  rw [get?_insert]
  split
  · exact ⟨_, rfl⟩
  · exact ht

end Arena

namespace Scheduler

/-! ## Pools over one arena -/

/-- what operations make of no pools and no tasks -/
inductive Reachable : List Scheduler → Arena → Prop
  | empty : Reachable [] {}
  | opened {pools : List Scheduler} {tasks : Arena} (h : Reachable pools tasks) (id : SchedulerId)
      (faction : FactionId) : Reachable (pools ++ [({ id, faction } : Scheduler)]) tasks
  | inserted {pools : List Scheduler} {tasks : Arena} (h : Reachable pools tasks) (t : Task) :
      Reachable pools (tasks.insert t).2
  /-- one task is claimed, interrupted, stepped, given another priority, or changed in any other way -/
  | changed {pools : List Scheduler} {tasks : Arena} (h : Reachable pools tasks) (t : TaskId) (f : Task → Task) :
      Reachable pools (tasks.modify t f)
  | scheduled {pools : List Scheduler} {tasks : Arena} {i : Nat} {s : Scheduler} (h : Reachable pools tasks)
      (hs : pools[i]? = some s) (t : TaskId) :
      Reachable (pools.set i (s.schedule t tasks).2.1) (s.schedule t tasks).2.2
  | replaced {σ : Type} [Host σ] {pools : List Scheduler} {tasks : Arena} {i : Nat} {s : Scheduler}
      (h : Reachable pools tasks) (hs : pools[i]? = some s) (t u : TaskId) (host : σ) :
      Reachable (pools.set i (s.replace t u tasks host).2.1) (s.replace t u tasks host).2.2.1
  | removed {pools : List Scheduler} {tasks : Arena} {i : Nat} {s : Scheduler} (h : Reachable pools tasks)
      (hs : pools[i]? = some s) (t : TaskId) : Reachable (pools.set i (s.remove t tasks).2.1) (s.remove t tasks).2.2

/-- the entries are in order, and of tasks that exist -/
structure InOrder (s : Scheduler) (tasks : Arena) : Prop where
  orderly : s.Orderly
  exist : ∀ e ∈ s.entries, ∃ task, tasks.get? e.task = some task

variable {pools : List Scheduler} {s : Scheduler} {tasks : Arena} {t : TaskId}

theorem InOrder.grows {tasks' : Arena} (h : s.InOrder tasks) (hg : tasks.Grows tasks') : s.InOrder tasks' :=
  ⟨h.orderly, fun e he => hg e.task (h.exist e he)⟩

/-! ## Operations on one pool -/

theorem inOrder_schedule (h : s.InOrder tasks) (t : TaskId) :
    tasks.Grows (s.schedule t tasks).2.2 ∧ (s.schedule t tasks).2.1.InOrder (s.schedule t tasks).2.2 := by
  obtain ⟨e, he⟩ | ⟨task, ht, hc, -, he⟩ := s.schedule_cases t tasks
  · rw [he]
    exact ⟨.refl tasks, h⟩
  · rw [he]
    have hg := tasks.grows_modify t (·.join s.id)
    refine ⟨hg, h.orderly.register hc, fun d hd => hg d.task ?_⟩
    rcases List.mem_append.1 hd with hd | hd
    · exact h.exist d hd
    · obtain rfl := List.mem_singleton.1 hd
      exact ⟨task, ht⟩

theorem inOrder_replace {σ : Type} [Host σ] (h : s.InOrder tasks) (t u : TaskId) (host : σ) :
    tasks.Grows (s.replace t u tasks host).2.2.1 ∧
      (s.replace t u tasks host).2.1.InOrder (s.replace t u tasks host).2.2.1 := by
  obtain ⟨e, he⟩ | ⟨slot, member, newcomer, hi, -, hu, hc, -, -, he⟩ := s.replace_cases t u tasks host
  · rw [he]
    exact ⟨.refl tasks, h⟩
  · rw [he]
    have hg : tasks.Grows
        ((tasks.modify t fun _ => member.release.2.quit s.id).modify u fun n => n.release.2.join s.id) :=
      (tasks.grows_modify t _).trans (Arena.grows_modify _ u _)
    refine ⟨hg, h.orderly.replace hi hc, fun d hd => hg d.task ?_⟩
    obtain ⟨pre, e, post, hs, -, -, hmod⟩ := split_of_slot? hi
    simp only [hmod, List.mem_append, List.mem_cons] at hd
    rcases hd with hd | rfl | hd
    · exact h.exist d (by simp [hs, hd])
    · exact ⟨newcomer, hu⟩
    · exact h.exist d (by simp [hs, hd])

theorem inOrder_remove (h : s.InOrder tasks) (t : TaskId) :
    tasks.Grows (s.remove t tasks).2.2 ∧ (s.remove t tasks).2.1.InOrder (s.remove t tasks).2.2 := by
  obtain he | ⟨slot, -, he⟩ := s.remove_cases t tasks
  · rw [he]
    exact ⟨.refl tasks, h⟩
  · rw [he]
    have hg := tasks.grows_modify t (·.quit s.id)
    exact ⟨hg, h.orderly.remove slot, fun d hd => hg d.task (h.exist d ((List.eraseIdx_sublist _ _).subset hd))⟩

/-- an operation on one pool leaves the entries of the others alone -/
theorem inOrder_set {tasks' : Arena} {new : Scheduler} (hall : ∀ s ∈ pools, s.InOrder tasks) (i : Nat)
    (h : tasks.Grows tasks' ∧ new.InOrder tasks') : ∀ s ∈ pools.set i new, s.InOrder tasks' := by
  intro s hs
  rcases List.mem_or_eq_of_mem_set hs with hs | rfl
  · exact (hall s hs).grows h.1
  · exact h.2

/-- **Every operation leaves all pools in order** -/
theorem reachable_inOrder (h : Reachable pools tasks) : ∀ s ∈ pools, s.InOrder tasks := by
  induction h with
  | empty => exact fun s hs => absurd hs List.not_mem_nil
  | opened h id faction ih =>
    intro s hs
    rcases List.mem_append.1 hs with hs | hs
    · exact ih s hs
    · obtain rfl := List.mem_singleton.1 hs
      exact ⟨orderly_empty id faction, fun e he => absurd he List.not_mem_nil⟩
  | @inserted pools tasks h t ih => exact fun s hs => (ih s hs).grows (tasks.grows_insert t)
  | @changed pools tasks h t f ih => exact fun s hs => (ih s hs).grows (tasks.grows_modify t f)
  | @scheduled pools tasks i s h hs t ih => exact inOrder_set ih i (inOrder_schedule (ih s (List.mem_of_getElem? hs)) t)
  | @replaced σ _ pools tasks i s h hs t u host ih =>
    exact inOrder_set ih i (inOrder_replace (ih s (List.mem_of_getElem? hs)) t u host)
  | @removed pools tasks i s h hs t ih => exact inOrder_set ih i (inOrder_remove (ih s (List.mem_of_getElem? hs)) t)

/-! ## The order of assignment -/

theorem perm_ordered (h : s.InOrder tasks) : (s.ordered tasks).Perm (s.entries.map (·.task)) := by
  have hranked : (s.ranked tasks).map (·.entry.task) = s.entries.map (·.task) := by
    rw [ranked, List.map_filterMap, ← List.filterMap_eq_map]
    refine List.filterMap_congr fun e he => ?_
    obtain ⟨task, ht⟩ := h.exist e he
    rw [ht]
    rfl
  rw [ordered_eq, ← hranked]
  exact (List.mergeSort_perm _ _).map _

theorem isHeld_of_not_isFree (h : ∃ task, tasks.get? t = some task) (hf : isFree tasks t = false) :
    isHeld tasks t = true := by
  obtain ⟨task, ht⟩ := h
  simp only [isFree, isHeld, ht, Option.any_some] at hf ⊢
  rw [← Option.not_isNone, hf]
  rfl

theorem not_isFree_of_isHeld (h : isHeld tasks t = true) : isFree tasks t = false := by
  obtain ⟨task, ht, hu⟩ := (Option.any_eq_true _ _).1 h
  simp only [isFree, ht, Option.any_some]
  rw [← Option.not_isSome, hu]
  rfl

theorem exists_of_mem_ordered (h : t ∈ s.ordered tasks) : ∃ task, tasks.get? t = some task := by
  rw [ordered_eq] at h
  obtain ⟨r, hr, rfl⟩ := List.mem_map.1 h
  obtain ⟨-, task, ht, -⟩ := mem_ranked.1 (List.mem_mergeSort.1 hr)
  exact ⟨task, ht⟩

/-- the answer to a claim is the first member that is free -/
theorem assignNext_fst (s : Scheduler) (u : UnitId) (tasks : Arena) :
    (s.assignNext u tasks).1 = (s.ordered tasks).find? (isFree tasks) := by
  unfold assignNext
  cases (s.ordered tasks).find? (isFree tasks) <;> rfl

theorem assignNext_eq_some (u : UnitId) :
    (s.assignNext u tasks).1 = some t ↔
      isFree tasks t = true ∧ ∃ pre post, s.ordered tasks = pre ++ t :: post ∧ ∀ t' ∈ pre, isHeld tasks t' = true := by
  rw [assignNext_fst, List.find?_eq_some_iff_append]
  refine and_congr_right fun _ => exists_congr fun pre => exists_congr fun post => and_congr_right fun ho =>
    forall₂_congr fun t' ht' => ?_
  have hmem : t' ∈ s.ordered tasks := ho ▸ List.mem_append_left _ ht'
  rw [Bool.not_eq_true']
  exact ⟨isHeld_of_not_isFree (exists_of_mem_ordered hmem), not_isFree_of_isHeld⟩

/-- nothing is claimed exactly if all members are held -/
theorem assignNext_eq_none (h : s.InOrder tasks) (u : UnitId) :
    (s.assignNext u tasks).1 = none ↔ ∀ e ∈ s.entries, isHeld tasks e.task = true := by
  rw [assignNext_fst, List.find?_eq_none]
  constructor
  · intro hall e he
    have hmem : e.task ∈ s.ordered tasks := (perm_ordered h).mem_iff.2 (List.mem_map_of_mem he)
    exact isHeld_of_not_isFree (h.exist e he) (Bool.eq_false_iff.2 (hall e.task hmem))
  · intro hall t ht
    obtain ⟨e, he, rfl⟩ := List.mem_map.1 ((perm_ordered h).mem_iff.1 ht)
    exact Bool.eq_false_iff.1 (not_isFree_of_isHeld (hall e he))

theorem assignNext_snd {u : UnitId} (h : (s.assignNext u tasks).1 = some t) :
    (s.assignNext u tasks).2 = tasks.modify t (·.claim u) := by
  unfold assignNext at h ⊢
  cases hf : (s.ordered tasks).find? (isFree tasks) with
  | none => rw [hf] at h; cases h
  | some t' =>
    rw [hf] at h
    obtain rfl := Option.some.inj h
    rfl

/-! ## What pools see of a claim -/

theorem isHeld_modify_claim (h : ∃ task, tasks.get? t = some task) (u : UnitId) (t' : TaskId) :
    isHeld (tasks.modify t (·.claim u)) t' = (isHeld tasks t' || decide (t' = t)) := by
  obtain ⟨task, ht⟩ := h
  unfold isHeld
  rw [Arena.get?_modify]
  by_cases he : t = t'
  · subst t'
    simp [ht, Task.claim]
  · simp [he, Ne.symm he]

/-- **A claim adds its task to what is assigned**, in every pool that has it as a member -/
theorem assigned_claim (s : Scheduler) (h : ∃ task, tasks.get? t = some task) (u : UnitId) :
    s.assigned (tasks.modify t (·.claim u)) =
      (s.ordered tasks).filter fun t' => isHeld tasks t' || decide (t' = t) := by
  rw [assigned, ordered_claim]
  exact List.filter_congr fun t' _ => isHeld_modify_claim h u t'

/-! ## One claim after the other -/

def assignEach (s : Scheduler) : List UnitId → Arena → List (Option TaskId) × Arena
  | [], tasks => ([], tasks)
  | u :: us, tasks =>
    let (t, tasks) := s.assignNext u tasks
    let (ts, tasks) := s.assignEach us tasks
    (t :: ts, tasks)

/-- **Units that claim in turn take the pending members in order**, until there is none left -/
theorem assignEach_eq (h : s.Orderly) (us : List UnitId) (tasks : Arena) :
    (s.assignEach us tasks).1 = (List.range us.length).map fun i => (s.pending tasks)[i]? := by
  induction us generalizing tasks with
  | nil => rfl
  | cons u us ih =>
    have hstep : (s.assignEach (u :: us) tasks).1 =
        (s.assignNext u tasks).1 :: (s.assignEach us (s.assignNext u tasks).2).1 := rfl
    rw [hstep, ih, List.length_cons, List.range_succ_eq_map, List.map_cons, List.map_map, assignNext_eq]
    cases hp : s.pending tasks with
    | nil =>
      simp only [hp, List.getElem?_nil]
      rfl
    | cons t rest =>
      have hrest := pending_claim_first h hp u
      simp only [hrest]
      rfl

/-! ## The best pending member -/

/-- **A unit gets the best pending task, and every pool takes note.** Take any pools over one arena that operations
make, one of them and any unit. The order of assignment lists the members, each once, by falling rank. A claim answers
the first of them that no unit holds, and none exactly if all are held; then nothing changes. If it answers a task,
that task is claimed by the unit and no other task changes; every pool, in its own order, has it among the assigned
members instead of the pending ones and is otherwise as before. So units that claim in turn get the pending members in
order. -/
theorem assignNext_best (h : Reachable pools tasks) (hs : s ∈ pools) (u : UnitId) :
    (s.ordered tasks).Perm (s.entries.map (·.task)) ∧ (s.ordered tasks).Pairwise (s.Outranks tasks) ∧
    (∀ t, (s.assignNext u tasks).1 = some t ↔ isFree tasks t = true ∧
      ∃ pre post, s.ordered tasks = pre ++ t :: post ∧ ∀ t' ∈ pre, isHeld tasks t' = true) ∧
    ((s.assignNext u tasks).1 = none ↔ ∀ e ∈ s.entries, isHeld tasks e.task = true) ∧
    ((s.assignNext u tasks).1 = none → (s.assignNext u tasks).2 = tasks) ∧
    (∀ t, (s.assignNext u tasks).1 = some t →
      let tasks' := (s.assignNext u tasks).2
      Reachable pools tasks' ∧ tasks'.get? t = (tasks.get? t).map (·.claim u) ∧
      (∀ t', t' ≠ t → tasks'.get? t' = tasks.get? t') ∧
      ∀ s' ∈ pools, s'.ordered tasks' = s'.ordered tasks ∧ s'.pending tasks' = (s'.pending tasks).filter (· ≠ t) ∧
        s'.assigned tasks' = (s'.ordered tasks).filter fun t' => isHeld tasks t' || decide (t' = t)) ∧
    ∀ us : List UnitId, (s.assignEach us tasks).1 = (List.range us.length).map fun i => (s.pending tasks)[i]? := by
  have horder := reachable_inOrder h s hs
  refine ⟨perm_ordered horder, pairwise_ordered horder.orderly tasks, fun t => assignNext_eq_some u,
    assignNext_eq_none horder u, fun hn => ?_, fun t ht => ?_, fun us => assignEach_eq horder.orderly us tasks⟩
  · obtain he | ⟨t, task, -, -, -, he⟩ := s.assignNext_cases u tasks
    · rw [he]
    · rw [he] at hn
      cases hn
  · intro tasks'
    have htasks : tasks' = tasks.modify t (·.claim u) := assignNext_snd ht
    obtain ⟨hfree, -⟩ := (assignNext_eq_some u).1 ht
    obtain ⟨task, htask, -⟩ := (Option.any_eq_true _ _).1 hfree
    rw [htasks]
    refine ⟨h.changed t _, ?_, fun t' hne => ?_, fun s' _ => ?_⟩
    · rw [Arena.get?_modify, if_pos rfl]
    · rw [Arena.get?_modify, if_neg hne.symm]
    · exact ⟨ordered_claim s' tasks t u, pending_claim s' tasks t u, assigned_claim s' ⟨task, htask⟩ u⟩

end Scheduler

namespace Application

open Scheduler

variable {σ ρ : Type} {app app' : Application ρ}

/-! ## The pools of applications -/

/-- the pools and the tasks of an application are reachable -/
def Arises (app : Application ρ) : Prop := Reachable app.schedulers.toList app.tasks

theorem getElem?_of_scheduler? {s : SchedulerId} {sched : Scheduler} (h : app.scheduler? s = some sched) :
    app.schedulers.toList[s.index]? = some sched := by
  rw [Array.getElem?_toList]
  exact h

theorem arises_freeing {freed : Option UnitId} (h : app.Arises) : (app.freeing freed).Arises := by
  rw [Arises, schedulers_freeing, tasks_freeing]
  exact h

theorem arises_unschedule {s : SchedulerId} {t : TaskId} (h : app.Arises) : (app.unschedule s t).2.Arises := by
  unfold unschedule
  cases hs : app.scheduler? s with
  | none => exact h
  | some sched =>
    have hremoved := Reachable.removed h (getElem?_of_scheduler? hs) t
    rw [← Array.toList_setIfInBounds] at hremoved
    exact hremoved

variable [Host σ] [Picker ρ]

theorem moves_arises (hm : Moves σ app app') (h : app.Arises) : app'.Arises := by
  cases hm with
  | addTask t => exact h.inserted t
  | @addScheduler f hf =>
    have hopened := h.opened ⟨app.schedulers.size⟩ f
    rw [← Array.toList_push] at hopened
    exact hopened
  | @replace s sched t u slot member newcomer hs hi ht hu hc hf hw =>
    -- the host has no part in what becomes of pools and tasks
    let host : Rehearsal := { world := { size := ⟨1, 1, 1⟩ : Setting }.world }
    have hreplaced := Reachable.replaced h (getElem?_of_scheduler? hs) t u host
    simp only [Scheduler.replace, hi, hu, hc, hf, hw, ht, ← Array.toList_setIfInBounds] at hreplaced
    exact arises_freeing hreplaced
  | claim => exact h.changed _ _
  | free => exact arises_freeing (h.changed _ _)
  | @unschedule s sched t slot hs hi =>
    have hremoved := Reachable.removed h (getElem?_of_scheduler? hs) t
    simp only [Scheduler.remove, hi, ← Array.toList_setIfInBounds] at hremoved
    exact hremoved
  | setPriority => exact h.changed _ _
  | advance => exact h.changed _ _
  | finish => exact finish_keeps (P := Arises) (h.changed _ _) fun app s h => arises_unschedule h
  | fail => exact h.changed _ _
  | forget => exact h

omit [Host σ] [Picker ρ] in
theorem registers_arises (hr : Registers app app') (h : app.Arises) : app'.Arises := by
  obtain @⟨s, sched, t, task, hs, ht, hc, hw⟩ := hr
  have hscheduled := Reachable.scheduled h (getElem?_of_scheduler? hs) t
  simp only [Scheduler.schedule, ht, hc, hw, ← Array.toList_setIfInBounds] at hscheduled
  exact hscheduled

/-- **What applications make of their pools is reachable** -/
theorem reachable_run (settings : Settings) (picker : ρ) (ops : List (Op σ)) :
    let app := (initial settings picker).run ops
    Reachable app.schedulers.toList app.tasks :=
  have hinitial : (initial settings picker).Arises := Reachable.empty
  run_keeps (P := Arises) (fun _ _ => moves_arises) (fun _ _ => registers_arises) hinitial ops

/-- a pool of three after a replacement, of which two have had the least priority there is -/
def mixedPool : List (Op Rehearsal) :=
  [.addTask (Task.make "dig" Int64.minValue (.print {} (.boolean {} true))),
    .addTask (Task.make "haul" 3 (.print {} (.boolean {} true))),
    .addTask (Task.make "rest" Int64.minValue (.print {} (.boolean {} true))),
    .addTask (Task.make "guard" 0 (.print {} (.boolean {} true))),
    .addScheduler ⟨1⟩, .schedule ⟨0⟩ ⟨0⟩, .schedule ⟨0⟩ ⟨1⟩, .schedule ⟨0⟩ ⟨2⟩,
    .replace ⟨0⟩ ⟨1⟩ ⟨3⟩ { world := { size := ⟨1, 1, 1⟩ : Setting }.world }, .setPriority ⟨2⟩ 7]

/-- four units claim in turn: the least urgent task comes last, and the fourth unit goes without -/
theorem assignNext_best_mixedPool :
    let app := (initial {} (Replay.mk [])).run mixedPool
    let pool : Scheduler :=
      { id := ⟨0⟩, faction := ⟨1⟩, entries := [⟨⟨0⟩, 0⟩, ⟨⟨3⟩, 1⟩, ⟨⟨2⟩, 2⟩], nextSeq := 3 }
    Reachable app.schedulers.toList app.tasks ∧ pool ∈ app.schedulers.toList ∧
      (pool.assignEach [⟨9⟩, ⟨8⟩, ⟨7⟩, ⟨6⟩] app.tasks).1 = [some ⟨2⟩, some ⟨3⟩, some ⟨0⟩, none] := by
  intro app pool
  have hreachable : Reachable app.schedulers.toList app.tasks := reachable_run {} (Replay.mk []) mixedPool
  have hpool : app.schedulers.toList = [pool] := by decide +kernel
  have hmem : pool ∈ app.schedulers.toList := by simp [hpool]
  obtain ⟨-, -, -, -, -, -, hturns⟩ := assignNext_best hreachable hmem ⟨9⟩
  refine ⟨hreachable, hmem, ?_⟩
  have hranked : pool.ranked app.tasks = [⟨Int64.minValue, ⟨⟨0⟩, 0⟩⟩, ⟨0, ⟨⟨3⟩, 1⟩⟩, ⟨7, ⟨⟨2⟩, 2⟩⟩] := by
    decide +kernel
  have hsorted : pool.ordered app.tasks = [⟨2⟩, ⟨3⟩, ⟨0⟩] := by
    rw [Scheduler.ordered_eq, hranked]
    cbv
  have hpending : pool.pending app.tasks = [⟨2⟩, ⟨3⟩, ⟨0⟩] := by
    rw [Scheduler.pending, hsorted]
    decide +kernel
  rw [hturns, hpending]
  rfl

end Application

end Errand
