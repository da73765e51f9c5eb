/-
Pending tasks: what waits in a pool for a unit has not begun.

Whatever ends a claim resets the task, except that a finished task keeps its final state and leaves every pool. So a
task without a unit is fresh or done (`done_run`), and a done one comes into a pool only by a call of `schedule` that
names it (`revives`), which does not reset it. Barring such calls it is fresh or in no pool (`loose_run`), so every
pending task is fresh (`pending_fresh`); with one, the pool holds a task that has run (`pending_rescheduled`).
-/
import Errand.Proofs.Application.Lives
import Errand.Rehearsal

namespace Errand

/-! ## Tasks without a unit -/

namespace Task

/-- without a unit a task is fresh, unless it is finished in some sense -/
def FreshUnless (Ended : Task → Prop) (t : Task) : Prop := t.unit? = none → t.Fresh ∨ Ended t

def IsDone (t : Task) : Prop := t.state = .done

def IsLoose (t : Task) : Prop := t.schedulers = ∅

variable {σ ρ : Type} [Host σ] [Picker ρ] {task task' : Task} {Ended : Task → Prop}

/-- pools and priority do not matter -/
theorem Fresh.of_eq (h : task.Fresh) (hb : task'.body = task.body) (hs : task'.store = task'.initial)
    (ha : task'.action? = none) : task'.Fresh :=
  ⟨hb ▸ h.pristine, hs, ha⟩

/-- a task that is not held loses its freshness only by being finished -/
theorem freshUnless_becomes (hretire : ∀ t : Task, t.state = .done → Ended t.retire)
    (hquit : ∀ (t : Task) s, Ended t → Ended (t.quit s))
    (hpriority : ∀ (t : Task) priority, Ended t → Ended { t with priority }) (hb : Becomes σ ρ task task')
    (h : task.FreshUnless Ended) : task'.FreshUnless Ended := by
  intro hu
  cases hb with
  | release => exact .inl task.fresh_release
  | claim u => exact absurd hu (by simp [claim])
  | advance u o => exact absurd hu (by simp [unit?_advanced])
  | retire hd => exact .inr (hretire task hd)
  | replace s => exact .inl (task.fresh_release.of_eq rfl rfl rfl)
  | quit s => exact (h hu).imp (fun hf => hf.of_eq rfl hf.store hf.action) (hquit task s)
  | setPriority priority => exact (h hu).imp (fun hf => hf.of_eq rfl hf.store hf.action) (hpriority task priority)

theorem done_becomes (hb : Becomes σ ρ task task') (h : task.FreshUnless IsDone) : task'.FreshUnless IsDone :=
  freshUnless_becomes (fun _ hd => hd) (fun _ _ hd => hd) (fun _ _ hd => hd) hb h

theorem loose_becomes (hb : Becomes σ ρ task task') (h : task.FreshUnless IsLoose) : task'.FreshUnless IsLoose :=
  freshUnless_becomes (fun _ _ => rfl) (fun t s hl => by simp [IsLoose, quit, show t.schedulers = ∅ from hl])
    (fun _ _ hl => hl) hb h

omit [Host σ] [Picker ρ] in
theorem done_join {s : SchedulerId} (h : task.FreshUnless IsDone) : (task.join s).FreshUnless IsDone :=
  fun hu => (h hu).imp_left fun hf => hf.of_eq rfl hf.store hf.action

end Task

/-! ## Members that no unit holds -/

namespace Scheduler

theorem mem_ordered {s : Scheduler} {tasks : Arena} {t : TaskId} (h : t ∈ s.ordered tasks) : s.contains t = true := by
  unfold ordered at h
  simp only [List.mem_map, List.mem_mergeSort, List.mem_filterMap, Option.map_eq_some_iff] at h
  obtain ⟨-, ⟨e, he, task, -, rfl⟩, rfl⟩ := h
  exact contains_iff.2 (List.mem_map_of_mem he)

theorem mem_pending {s : Scheduler} {tasks : Arena} {t : TaskId} (h : t ∈ s.pending tasks) :
    s.contains t = true ∧ ∃ task, tasks.get? t = some task ∧ task.unit? = none := by
  obtain ⟨hm, hfree⟩ := List.mem_filter.1 h
  obtain ⟨task, ht, hu⟩ := (Option.any_eq_true _ _).1 hfree
  exact ⟨mem_ordered hm, task, ht, Option.isNone_iff_eq_none.1 hu⟩

end Scheduler

namespace Application

variable {σ ρ : Type} [Host σ] [Picker ρ] {app : Application ρ}

/-! ## Calls that bring back a finished task -/

/-- the call puts the task into a pool after it was done -/
def revivedBy (app : Application ρ) (t : TaskId) : Op σ → Bool
  | .schedule s t' =>
    t' = t && (app.tasks.get? t).any (fun task => task.unit?.isNone && task.state = .done) && (app.schedule s t).1.isOk
  | _ => false

/-- some call of a run does so -/
def revives (app : Application ρ) (t : TaskId) : List (Op σ) → Bool
  | [] => false
  | op :: ops => app.revivedBy t op || (app.perform op).revives t ops

omit [Host σ] [Picker ρ] in
/-- a registration that does not bring back a finished task leaves it fresh -/
theorem loose_schedule {s : SchedulerId} {t t' : TaskId} (hdone : app.tasks.Each (Task.FreshUnless Task.IsDone))
    (hloose : ∀ task, app.tasks.get? t = some task → task.FreshUnless Task.IsLoose)
    (hop : app.revivedBy t (.schedule s t' : Op σ) = false) :
    ∀ task, (app.schedule s t').2.tasks.get? t = some task → task.FreshUnless Task.IsLoose := by
  intro task' ht'
  obtain ⟨e, he⟩ | ⟨sched, -, -, -, -, -, he⟩ := app.schedule_cases s t'
  · exact hloose task' (by rwa [he] at ht')
  · rw [he, Arena.get?_modify] at ht'
    split at ht'
    · subst t'
      obtain ⟨task, ht, rfl⟩ := Option.map_eq_some_iff.1 ht'
      intro hu
      have hu' : task.unit? = none := hu
      obtain hf | hd := hdone t task ht hu'
      · exact .inl (hf.of_eq rfl hf.store hf.action)
      · have hstate : task.state = .done := hd
        simp [revivedBy, ht, hu', hstate, he, Except.isOk, Except.toBool] at hop
    · exact hloose task' ht'

theorem loose_perform {t : TaskId} {op : Op σ} (hp : app.Pools)
    (hdone : app.tasks.Each (Task.FreshUnless Task.IsDone))
    (hloose : ∀ task, app.tasks.get? t = some task → task.FreshUnless Task.IsLoose) (hop : app.revivedBy t op = false) :
    ∀ task, (app.perform op).tasks.get? t = some task → task.FreshUnless Task.IsLoose := by
  obtain hc | ⟨hs, -⟩ := app.perform_cases op
  · intro task
    exact (chain_ages hc hp).keeps (fun _ _ => .inl (Task.fresh_release _)) (fun _ _ => Task.loose_becomes) hloose
  · cases op with
    | schedule s t' => exact loose_schedule hdone hloose hop
    | _ => exact absurd hs (by simp [Op.isSchedule])

theorem done_run (hp : app.Pools) (hdone : app.tasks.Each (Task.FreshUnless Task.IsDone)) (ops : List (Op σ)) :
    (app.run ops).Pools ∧ (app.run ops).tasks.Each (Task.FreshUnless Task.IsDone) :=
  run_each (fun _ _ => .inl (Task.fresh_release _)) (fun _ _ => Task.done_becomes) (fun _ _ => Task.done_join) hp hdone
    ops

/-- barring revivals, it is fresh or in no pool; the induction is on the operations that are to come -/
theorem loose_run {t : TaskId} {ops : List (Op σ)} (hp : app.Pools)
    (hdone : app.tasks.Each (Task.FreshUnless Task.IsDone))
    (hloose : ∀ task, app.tasks.get? t = some task → task.FreshUnless Task.IsLoose) (hops : app.revives t ops = false) :
    ∀ task, (app.run ops).tasks.get? t = some task → task.FreshUnless Task.IsLoose := by
  induction ops generalizing app with
  | nil => exact hloose
  | cons op ops ih =>
    obtain ⟨hop, hops⟩ := Bool.or_eq_false_iff.1 hops
    obtain ⟨hp', hdone'⟩ := done_run hp hdone [op]
    exact ih hp' hdone' (loose_perform hp hdone hloose hop) hops

/-! ## Runs -/

/-- **Pending tasks are fresh.** After any operations, with any arguments and hosts, a task without a unit has no action
on record and is fresh or done. Unless an accepted call of `schedule` has brought it back after it was done, a member
that is pending has a tree in which nothing has begun, its initial variables, and no action on record. -/
theorem pending_fresh (settings : Settings) (picker : ρ) (ops : List (Op σ)) :
    let app := (initial settings picker).run ops
    (∀ t task, app.tasks.get? t = some task → task.unit? = none →
      task.action? = none ∧ (task.body.isPristine = true ∧ task.store = task.initial ∨ task.state = .done)) ∧
    ∀ t, (initial settings picker).revives t ops = false → ∀ sched ∈ app.schedulers, t ∈ sched.pending app.tasks →
      ∃ task, app.tasks.get? t = some task ∧ task.unit? = none ∧ task.body.isPristine = true ∧
        task.store = task.initial ∧ task.action? = none := by
  intro app
  have hinitial := regular_initial settings picker
  have hregular : app.Regular := hinitial.run ops
  obtain ⟨-, hdone⟩ : app.Pools ∧ app.tasks.Each (Task.FreshUnless Task.IsDone) :=
    done_run hinitial.pools (each_initial _ settings picker) ops
  refine ⟨fun t task ht hu => ⟨(hregular.coherent t task ht).held hu, ?_⟩, fun t hops sched hs hpending => ?_⟩
  · exact (hdone t task ht hu).imp_left fun hf => ⟨hf.pristine, hf.store⟩
  · obtain ⟨hc, task, ht, hu⟩ := Scheduler.mem_pending hpending
    obtain ⟨i, hi, he⟩ := Array.mem_iff_getElem.1 hs
    have hsome : app.scheduler? ⟨i⟩ = some sched := he ▸ Array.getElem?_eq_getElem hi
    have hmem : ⟨i⟩ ∈ task.schedulers :=
      (Arena.joined_of_get? ht).1 ((hregular.pools.agree ⟨i⟩ t).1 ((holds_of_scheduler? hsome).2 hc))
    obtain hf | hloose := loose_run hinitial.pools (each_initial _ settings picker) (each_initial _ settings picker t)
      hops task ht hu
    · exact ⟨task, ht, hu, hf.pristine, hf.store, hf.action⟩
    · rw [show task.schedulers = ∅ from hloose] at hmem
      exact absurd hmem Std.ExtTreeSet.not_mem_empty

/-- one unit, whose actions all fail -/
def clumsy : Rehearsal where
  world := { size := ⟨4, 4, 1⟩, figures := [{ id := ⟨7⟩, faction? := some ⟨1⟩ }] : Setting }.world
  final := .failed

def onePool (body : Stmt) : List (Op Rehearsal) :=
  [.addTask (Task.make "look" 2 body), .addScheduler ⟨1⟩, .schedule ⟨0⟩ ⟨0⟩]

/-- the first statement has run when the second fails, and the task is pending again -/
theorem pending_fresh_clumsy :
    let body := .sequence {} [.assign {} "seen" (.boolean {} true), .action {} .workAt (.cube {} ⟨0, 0, 0⟩)] 0
    let ops := onePool body ++ [.tick clumsy [], .tick clumsy []]
    let app := (initial {} (Replay.mk [])).run ops
    let pool : Scheduler := { id := ⟨0⟩, faction := ⟨1⟩, entries := [⟨⟨0⟩, 0⟩], nextSeq := 1 }
    (initial {} (Replay.mk [])).revives ⟨0⟩ ops = false ∧ pool ∈ app.schedulers ∧ (⟨0⟩ ∈ pool.pending app.tasks) ∧
      ∃ task, app.tasks.get? ⟨0⟩ = some task ∧ task.unit? = none ∧ task.body.isPristine = true ∧
        task.store = task.initial ∧ task.action? = none := by
  intro body ops app pool
  have hops : (initial {} (Replay.mk [])).revives ⟨0⟩ ops = false := by decide +kernel
  have hpool : pool ∈ app.schedulers := by decide +kernel
  have hpending : ⟨0⟩ ∈ pool.pending app.tasks := by decide +kernel
  exact ⟨hops, hpool, hpending, (pending_fresh {} (Replay.mk []) ops).2 ⟨0⟩ hops pool hpool hpending⟩

/-- a task that is done is put back into its pool: it is pending in its final state, with the variables it had then -/
theorem pending_rescheduled :
    let app := (initial {} (Replay.mk [])).run
      (onePool (.assign {} "seen" (.boolean {} true)) ++ [.tick clumsy [], .schedule ⟨0⟩ ⟨0⟩])
    let pool : Scheduler := { id := ⟨0⟩, faction := ⟨1⟩, entries := [⟨⟨0⟩, 1⟩], nextSeq := 2 }
    pool ∈ app.schedulers ∧ (⟨0⟩ ∈ pool.pending app.tasks) ∧
      (app.tasks.get? ⟨0⟩).any fun task =>
        task.unit? = none && task.state = .done && !task.body.isPristine && task.store != task.initial := by
  decide +kernel

end Application

end Errand
