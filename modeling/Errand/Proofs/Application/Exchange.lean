/-
Exchange: a replacement and the one that takes it back.

If a newcomer has taken the place of a member, the former member can take its place again at once: it passes the
checks, being a member before, it is free, and it is not in the pool. The entry then is what it was, number and all
(`exchanged_back`, `replace_exchanged`); each of the two tasks has the pool noted on it as before, but starts anew. So
of an application a replacement and its reverse change no pool, no priority and no other task, and of the claims only
that of the unit that held the member (`replace_back`).
-/
import Errand.Proofs.Application.Report

namespace Errand

namespace Task

variable {t : Task} {s : SchedulerId}

/-- a member that was put out of a pool and taken in again starts anew -/
theorem join_quit_release (h : s ∈ t.schedulers) : (t.release.2.quit s).release.2.join s = t.release.2 := by
  have hset : (t.schedulers.erase s).insert s = t.schedulers := by
    refine Std.ExtTreeSet.ext_mem fun s' => ?_
    rw [Std.ExtTreeSet.mem_insert, Std.ExtTreeSet.mem_erase, Std.compare_eq_iff_eq, ne_eq, Std.compare_eq_iff_eq]
    by_cases he : s = s'
    · simp [← he, h]
    · simp [he]
  simp only [release, restart, quit, join, Stmt.reset_reset, hset]

/-- a newcomer that was taken into a pool and put out again starts anew -/
theorem quit_join_release (h : s ∉ t.schedulers) : (t.release.2.join s).release.2.quit s = t.release.2 := by
  have hset : (t.schedulers.insert s).erase s = t.schedulers := by
    refine Std.ExtTreeSet.ext_mem fun s' => ?_
    rw [Std.ExtTreeSet.mem_erase, Std.ExtTreeSet.mem_insert, ne_eq, Std.compare_eq_iff_eq]
    by_cases he : s = s'
    · simp [← he, h]
    · simp [he]
  simp only [release, restart, quit, join, Stmt.reset_reset, hset]

end Task

namespace Scheduler

variable {s : Scheduler} {a b : TaskId} {slot : Nat}

/-- the pool in which `b` has taken the place of `a` -/
def exchanged (s : Scheduler) (slot : Nat) (b : TaskId) : Scheduler :=
  { s with entries := s.entries.modify slot ({ · with task := b }) }

/-- the newcomer stands where the member stood -/
theorem slot?_exchanged (hi : s.slot? a = some slot) (hc : s.contains b = false) :
    (s.exchanged slot b).slot? b = some slot := by
  obtain ⟨hlt, -, -⟩ := List.findIdx?_eq_some_iff_getElem.1 hi
  refine List.findIdx?_eq_some_iff_getElem.2 ⟨?_, ?_, ?_⟩
  · rwa [exchanged, List.length_modify]
  · simp [exchanged]
  · intro j hj hb
    -- an earlier entry for `b` would have been there before the exchange
    have hin : j < s.entries.length := hj.trans hlt
    have hold : s.entries[j].task = b := by simpa [exchanged, List.getElem_modify, hj.ne'] using hb
    have hmem : s.contains b = true := contains_iff.2 (hold ▸ List.mem_map_of_mem (List.getElem_mem _))
    rw [hc] at hmem
    cases hmem

theorem exchanged_back (hi : s.slot? a = some slot) : (s.exchanged slot b).exchanged slot a = s := by
  obtain ⟨pre, e, post, hs, rfl, -, hmod⟩ := split_of_slot? hi
  have hentries :
      (s.entries.modify slot ({ · with task := b })).modify slot ({ · with task := e.task }) = s.entries := by
    rw [List.modify_modify_eq, hmod, hs]
    rfl
  rw [exchanged, exchanged, hentries]

theorem contains_exchanged (horder : s.Orderly) (hi : s.slot? a = some slot) (hne : a ≠ b) :
    (s.exchanged slot b).contains a = false := by
  refine Bool.eq_false_iff.2 fun hmem => ?_
  obtain hab | ⟨hself, -⟩ := (contains_modify horder hi a).1 hmem
  · exact hne hab
  · exact hself rfl

/-- **The former member takes its place again**, if both sides of its membership agreed and it passes the checks -/
theorem replace_exchanged {σ : Type} [Host σ] {tasks : Arena} {member newcomer : Task} (horder : s.Orderly)
    (hi : s.slot? a = some slot) (ha : tasks.get? a = some member) (hb : tasks.get? b = some newcomer)
    (hc : s.contains b = false) (hw : member.isWellFormed = true) (hin : s.id ∈ member.schedulers)
    (hout : s.id ∉ newcomer.schedulers) (host : σ) :
    ∃ back, (s.exchanged slot b).replace b a
        ((tasks.modify a fun _ => member.release.2.quit s.id).modify b fun n => n.release.2.join s.id) host =
          (.ok none, s, back, host) ∧
      back.get? a = some member.release.2 ∧ back.get? b = some newcomer.release.2 ∧
      ∀ t, t ≠ a → t ≠ b → back.get? t = tasks.get? t := by
  have hne : a ≠ b := by
    rintro rfl
    rw [contains_of_slot? hi] at hc
    cases hc
  let left := (tasks.modify a fun _ => member.release.2.quit s.id).modify b fun n => n.release.2.join s.id
  have hgone : left.get? a = some (member.release.2.quit s.id) := by
    rw [Arena.get?_modify, if_neg hne.symm, Arena.get?_modify, if_pos rfl, ha]
    rfl
  have hcome : left.get? b = some (newcomer.release.2.join s.id) := by
    rw [Arena.get?_modify, if_pos rfl, Arena.get?_modify, if_neg hne, hb]
    rfl
  have hfree : (member.release.2.quit s.id).unit? = none := rfl
  have hfit : (member.release.2.quit s.id).isWellFormed = true := by
    rw [Task.isWellFormed, List.isEmpty_iff] at hw ⊢
    exact member.same_release.problems.trans hw
  let back := (left.modify b fun _ => (newcomer.release.2.join s.id).release.2.quit s.id).modify a
    fun n => n.release.2.join s.id
  refine ⟨back, ?_, ?_, ?_, fun t hta htb => ?_⟩
  · have hcall : (s.exchanged slot b).replace b a left host =
        (.ok none, (s.exchanged slot b).exchanged slot a, back, host) := by
      simp only [replace, slot?_exchanged hi hc, hgone, contains_exchanged horder hi hne, hcome, hfree, hfit]
      rfl
    rw [hcall, exchanged_back hi]
  · rw [Arena.get?_modify, if_pos rfl, Arena.get?_modify, if_neg hne.symm, hgone]
    exact congrArg some (Task.join_quit_release hin)
  · rw [Arena.get?_modify, if_neg hne, Arena.get?_modify, if_pos rfl, hcome]
    exact congrArg some (Task.quit_join_release hout)
  · rw [Arena.get?_modify, if_neg hta.symm, Arena.get?_modify, if_neg htb.symm, Arena.get?_modify, if_neg htb.symm,
      Arena.get?_modify, if_neg hta.symm]

end Scheduler

namespace Application

variable {σ ρ : Type} [Host σ] {app : Application ρ}

omit [Host σ] in
/-- with its scheduler at its place again an application has lost a unit at most, and got other tasks -/
theorem withScheduler_back {s : SchedulerId} {sched : Scheduler} (hs : app.scheduler? s = some sched) (new : Scheduler)
    (left tasks : Arena) (freed : Option UnitId) :
    { withScheduler (freeing { app.withScheduler s new with tasks := left } freed) s sched with tasks } =
      freeing { app with tasks } freed := by
  have hself : { app.withScheduler s sched with tasks } = { app with tasks } := by rw [withScheduler_self hs]
  cases freed with
  | none => rw [freeing, freeing, withScheduler_withScheduler, hself]
  | some u =>
    have hstruck := congrArg (freeing · (some u)) ((withScheduler_withScheduler app s new sched left tasks).trans hself)
    exact hstruck

/-- **A replacement and the one that takes it back**, in pools that are in order -/
theorem replace_back_of_pools (h : app.Pools) {s : SchedulerId} {a b : TaskId} {host : σ} {freed : Option UnitId}
    (hr : (app.replace s a b host).1 = .ok freed) (later : σ) :
    ∃ member newcomer tasks, app.tasks.get? a = some member ∧ app.tasks.get? b = some newcomer ∧
      member.unit? = freed ∧ tasks.get? a = some member.release.2 ∧ tasks.get? b = some newcomer.release.2 ∧
      (∀ t, t ≠ a → t ≠ b → tasks.get? t = app.tasks.get? t) ∧
      (app.replace s a b host).2.1.replace s b a later = (.ok none, freeing { app with tasks } freed, later) := by
  obtain ⟨e, he⟩ | ⟨sched, slot, member, newcomer, hs, hi, ha, hb, hc, -, -, he⟩ := app.replace_cases s a b host
  · rw [he] at hr
    cases hr
  · rw [he] at hr
    obtain rfl := Except.ok.inj hr
    have hin : s ∈ member.schedulers := (h.contains_iff hs ha).1 (Scheduler.contains_of_slot? hi)
    have hout : s ∉ newcomer.schedulers := fun hm => Bool.eq_false_iff.1 hc ((h.contains_iff hs hb).2 hm)
    have hwell : member.isWellFormed = true := List.isEmpty_iff.2 (h.fit ha hin)
    -- tasks note the number that the pool has in itself
    rw [← h.number s sched hs] at hin hout
    obtain ⟨tasks, hcall, hmember, hnewcomer, hothers⟩ :=
      Scheduler.replace_exchanged (h.orderly s sched hs) hi ha hb hc hwell hin hout later
    refine ⟨member, newcomer, tasks, ha, hb, rfl, hmember, hnewcomer, hothers, ?_⟩
    let left := (app.tasks.modify a fun _ => member.release.2.quit sched.id).modify b
      fun n => n.release.2.join sched.id
    let there := freeing { app.withScheduler s (sched.exchanged slot b) with tasks := left } member.unit?
    have hsched : there.scheduler? s = some (sched.exchanged slot b) := by
      rw [scheduler?, schedulers_freeing]
      exact (scheduler?_withScheduler hs _ left s).trans (if_pos rfl)
    have htasks : there.tasks = left := tasks_freeing _ _
    have hsecond : there.replace s b a later = (.ok none, { there.withScheduler s sched with tasks }, later) := by
      simp only [replace, hsched, htasks]
      rw [hcall]
      rfl
    rw [he]
    exact hsecond.trans (by rw [withScheduler_back hs])

variable [Picker ρ]

/-- **A replacement can be taken back.** After any operations, let a scheduler put `b` in the place of `a`, pending or
assigned, and at once put `a` in the place of `b`, with whatever host. The second call is accepted, frees no unit and
leaves the host alone. Then all pools are as they were before the first call, with the numbers and the order of their
entries, and so are the settings, the picker, all tasks but `a` and `b`, and the pools and the priority of these two.
Both are free and start anew. The claims are those of before, without that of the unit that held `a`, if one did. -/
theorem replace_back (settings : Settings) (picker : ρ) (ops : List (Op σ)) (s : SchedulerId) (a b : TaskId) (host : σ)
    (freed : Option UnitId) (hr : (((initial settings picker).run ops).replace s a b host).1 = .ok freed) (later : σ) :
    let app := (initial settings picker).run ops
    let there := (app.replace s a b host).2.1
    let back := (there.replace s b a later).2.1
    (there.replace s b a later).1 = .ok none ∧ (there.replace s b a later).2.2 = later ∧
    back.settings = app.settings ∧ back.picker = app.picker ∧ back.schedulers = app.schedulers ∧
    (∀ t, (back.tasks.get? t).map (fun task => (task.schedulers, task.priority)) =
      (app.tasks.get? t).map fun task => (task.schedulers, task.priority)) ∧
    (∀ t, t ≠ a → t ≠ b → back.tasks.get? t = app.tasks.get? t) ∧
    (∀ t, t = a ∨ t = b → ∃ before after, app.tasks.get? t = some before ∧ back.tasks.get? t = some after ∧
      before.Same after ∧ after.body.isPristine = true ∧ after.store = after.initial ∧ after.unit? = none ∧
      after.action? = none) ∧
    (∀ u, freed = some u ↔ app.claims[u]? = some a) ∧
    ∀ u, back.claims[u]? = if freed = some u then none else app.claims[u]? := by
  intro app there back
  have hregular : app.Regular := (regular_initial settings picker).run ops
  obtain ⟨member, newcomer, tasks, ha, hb, hheld, hmember, hnewcomer, hothers, hcall⟩ :=
    replace_back_of_pools hregular.pools hr later
  have hback : back = freeing { app with tasks } freed := congrArg (·.2.1) hcall
  have htasks : back.tasks = tasks := by rw [hback, tasks_freeing]
  rw [htasks]
  refine ⟨congrArg (·.1) hcall, congrArg (·.2.2) hcall, ?_, ?_, ?_, fun t => ?_, hothers, ?_, fun u => ?_, fun u => ?_⟩
  · rw [hback]
    cases freed <;> rfl
  · rw [hback]
    cases freed <;> rfl
  · rw [hback, schedulers_freeing]
  · by_cases hta : t = a
    · subst t
      rw [hmember, ha]
      rfl
    · by_cases htb : t = b
      · subst t
        rw [hnewcomer, hb]
        rfl
      · rw [hothers t hta htb]
  · have hanew : ∀ task : Task, task.Same task.release.2 ∧ task.release.2.body.isPristine = true ∧
        task.release.2.store = task.release.2.initial ∧ task.release.2.unit? = none ∧ task.release.2.action? = none :=
      fun task => ⟨task.same_release, task.body.isPristine_reset, rfl, rfl, rfl⟩
    rintro t (rfl | rfl)
    · exact ⟨member, _, ha, hmember, hanew member⟩
    · exact ⟨newcomer, _, hb, hnewcomer, hanew newcomer⟩
  · rw [hregular.agree u a, Arena.holder?_of_get? ha, hheld]
  · rw [hback, claims_freeing]

/-- a task that two pools share and a unit holds, and another one in the second pool only -/
def sharedTask : List (Op Rehearsal) :=
  [.addTask (Task.make "dig" 2 (.print {} (.boolean {} true))),
    .addTask (Task.make "haul" 1 (.print {} (.boolean {} true))), .addScheduler ⟨1⟩, .addScheduler ⟨2⟩,
    .schedule ⟨0⟩ ⟨0⟩, .schedule ⟨1⟩ ⟨1⟩, .schedule ⟨1⟩ ⟨0⟩, .assignNext ⟨0⟩ ⟨9⟩]

/-- both pools are as before, and the unit is free -/
theorem replace_back_sharedTask :
    let host : Rehearsal := { world := { size := ⟨1, 1, 1⟩ : Setting }.world }
    let app := (initial {} (Replay.mk [])).run sharedTask
    let there := (app.replace ⟨0⟩ ⟨0⟩ ⟨1⟩ host).2.1
    let back := (there.replace ⟨0⟩ ⟨1⟩ ⟨0⟩ host).2.1
    (app.replace ⟨0⟩ ⟨0⟩ ⟨1⟩ host).1 = .ok (some ⟨9⟩) ∧ there.schedulers ≠ app.schedulers ∧
      (there.replace ⟨0⟩ ⟨1⟩ ⟨0⟩ host).1 = .ok none ∧ back.schedulers = app.schedulers ∧
      app.claims[(⟨9⟩ : UnitId)]? = some ⟨0⟩ ∧ back.claims[(⟨9⟩ : UnitId)]? = none := by
  intro host app there back
  have hr : (app.replace ⟨0⟩ ⟨0⟩ ⟨1⟩ host).1 = .ok (some ⟨9⟩) := by decide +kernel
  obtain ⟨hcall, -, -, -, hpools, -, -, -, hheld, hclaims⟩ :=
    replace_back {} (Replay.mk []) sharedTask ⟨0⟩ ⟨0⟩ ⟨1⟩ host (some ⟨9⟩) hr host
  exact ⟨hr, by decide +kernel, hcall, hpools, (hheld ⟨9⟩).1 rfl, (hclaims ⟨9⟩).trans (if_pos rfl)⟩

end Application

end Errand
