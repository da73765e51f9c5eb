/-
Completion: what a run of a scenario counts is tasks that are done, each of them once.

A task that neither a unit nor a pool has rests: no tick claims, completes or changes it (`Keeps`, by one lemma for each
phase). A completed task is such a one, so it is not completed again. A tick reports on tasks that exist (`known_tick`),
so their names can be printed and no run is cut short. `Tallied` is the invariant of a run: the tasks completed so far
are listed once and have ended, every other task is not done and still in some pool. So the counter is the number of
tasks that are done (`run_completes`).
-/
import Errand.Proofs.Scenario.Setup
import Errand.Proofs.Application.Report

namespace Errand

/-- a task that neither a unit nor a pool has -/
structure Task.Rests (t : Task) : Prop where
  unit : t.unit? = none
  loose : t.schedulers = ∅

def Task.DoneIsLoose (t : Task) : Prop := t.state = .done → t.schedulers = ∅

theorem Task.Fresh.state {t : Task} (h : t.Fresh) : t.state = .notStarted := Stmt.state_of_isPristine h.pristine

theorem Task.Fresh.doneIsLoose {t : Task} (h : t.Fresh) : t.DoneIsLoose := by
  intro hd
  rw [h.state] at hd
  cases hd

namespace Running

open Application

variable {σ ρ : Type} {app : Application ρ} {r : Running σ ρ} {world : World}

/-! ## What rests is left alone -/

/-- a task is as it was, and the report does not tell of it -/
structure Unmoved (t : TaskId) (task : Task) (r : Running σ ρ) : Prop where
  same : r.app.tasks.get? t = some task
  completed : t ∉ r.report.completed
  assigned : ∀ c ∈ r.report.assigned, c.2 ≠ t

/-- in the course of a tick that began in `app`, resting tasks are left alone and all done tasks are loose -/
structure Keeps (app : Application ρ) (r : Running σ ρ) : Prop where
  regular : r.app.Regular
  loose : r.app.tasks.Each Task.DoneIsLoose
  unmoved : ∀ t task, app.tasks.get? t = some task → task.Rests → Unmoved t task r

theorem get?_modify_ne {a : Arena} {t t' : TaskId} (hne : t' ≠ t) (f : Task → Task) :
    (a.modify t' f).get? t = a.get? t := by
  rw [Arena.get?_modify, if_neg hne]

variable [Host σ] [Picker ρ]

/-- whoever is interrupted held something at the start -/
theorem Keeps.freeDead (h : Keeps app r) (hagree : app.Agree) {u : UnitId} {t : TaskId}
    (hc : app.claims[u]? = some t) : Keeps app (r.freeDead t) := by
  have hregular := h.regular.chain (r.chain_freeDead t)
  rcases r.freeDead_cases t with he | ⟨task, ht, he⟩
  · rwa [he]
  · rw [he] at hregular ⊢
    refine ⟨hregular, ?_, ?_⟩
    · rw [tasks_freeing]
      exact h.loose.modify fun _ _ => task.fresh_release.doneIsLoose
    · intro t' task' ht' hrests
      obtain ⟨hsame, hcompleted, hassigned⟩ := h.unmoved t' task' ht' hrests
      have hne : t ≠ t' := by
        rintro rfl
        obtain ⟨held, hheld, hu⟩ := Arena.holder?_eq_some.1 ((hagree u t).1 hc)
        obtain rfl := Option.some.inj (ht'.symm.trans hheld)
        rw [hrests.unit] at hu
        cases hu
      refine ⟨?_, hcompleted, hassigned⟩
      rw [tasks_freeing, get?_modify_ne hne]
      exact hsame

theorem keeps_releaseDead (h : app.Regular) (hl : app.tasks.Each Task.DoneIsLoose) (host : σ)
    (output : List Printed) : Keeps app ({ app, host, output } : Running σ ρ).releaseDead := by
  apply List.foldlRecOn (motive := Keeps app)
  · exact ⟨h, hl, fun t task ht _ => ⟨ht, List.not_mem_nil, fun c hc => absurd hc List.not_mem_nil⟩⟩
  · intro r hr c hc
    obtain ⟨hmem, -⟩ := List.mem_filter.1 hc
    exact hr.freeDead h.agree (Std.ExtTreeMap.mem_toList_iff_getElem?_eq_some.1 hmem)

/-- whatever is claimed is in some pool -/
theorem Keeps.claiming (h : Keeps app r) {u : UnitId} {t : TaskId} (hm : r.MayClaim world u t) :
    Keeps app (r.claiming (u, t)) := by
  obtain ⟨s, sched, hs, ht⟩ := hm.member
  obtain ⟨task, hget, hfree⟩ := hm.free
  have hmove : Moves σ r.app (r.claiming (u, t)).app := .claim hs ht hm.idle hget hfree
  refine ⟨h.regular.moves hmove, ?_, ?_⟩
  · exact h.loose.modify fun task _ => (task.fresh_claim u).doneIsLoose
  · intro t' task' ht' hrests
    obtain ⟨hsame, hcompleted, hassigned⟩ := h.unmoved t' task' ht' hrests
    have hne : t ≠ t' := by
      rintro rfl
      have hjoined : s ∈ task'.schedulers := (h.regular.pools.contains_iff hs hsame).1 (Scheduler.mem_ordered ht)
      rw [hrests.loose] at hjoined
      exact Std.ExtTreeSet.not_mem_empty hjoined
    refine ⟨(get?_modify_ne hne _).trans hsame, hcompleted, fun c hc => ?_⟩
    rcases List.mem_append.1 hc with hc | hc
    · exact hassigned c hc
    · obtain rfl := List.mem_singleton.1 hc
      exact hne

theorem Keeps.assignIdle (h : Keeps app r) : Keeps app r.assignIdle := by
  rw [assignIdle_eq]
  exact offerEach_induct (P := Keeps app) (fun _ _ _ hm h => h.claiming hm) _ h

/-- whoever has a turn holds something -/
theorem Keeps.stepClaim (h : Keeps app r) {u : UnitId} {t : TaskId} (hc : r.app.claims[u]? = some t) :
    Keeps app (r.stepClaim u t) := by
  obtain ⟨task, task', ht, hu, hturn, hget⟩ := turn_stepClaim h.regular hc
  have hregular := h.regular.chain (chain_stepClaim r hc)
  generalize hreport : (r.stepClaim u t).report = report at hturn
  have hown : task'.DoneIsLoose := by
    cases hturn with
    | completes hended => exact fun _ => hended.loose
    | fails es he hback => exact hback.fresh.doneIsLoose
    | goesOn hgoing hs => exact fun hd => absurd hd hs
  have hothers : ∀ t', t ≠ t' → (t' ∈ report.completed → t' ∈ r.report.completed) ∧
      report.assigned = r.report.assigned := by
    intro t' hne
    cases hturn with
    | completes hended =>
      refine ⟨fun hm => ?_, rfl⟩
      rcases List.mem_append.1 hm with hm | hm
      · exact hm
      · exact absurd (List.mem_singleton.1 hm).symm hne
    | fails es he hback => exact ⟨id, rfl⟩
    | goesOn hgoing hs => exact ⟨id, rfl⟩
  refine ⟨hregular, ?_, ?_⟩
  · intro t' task₁ ht'
    rw [hget] at ht'
    split at ht'
    · exact Option.some.inj ht' ▸ hown
    · exact h.loose t' task₁ ht'
  · intro t' task₁ ht' hrests
    obtain ⟨hsame, hcompleted, hassigned⟩ := h.unmoved t' task₁ ht' hrests
    have hne : t ≠ t' := by
      rintro rfl
      obtain rfl := Option.some.inj (ht.symm.trans hsame)
      rw [hrests.unit] at hu
      cases hu
    obtain ⟨hback, hsameAssigned⟩ := hothers t' hne
    refine ⟨?_, ?_, ?_⟩
    · rw [hget, if_neg hne]
      exact hsame
    · rw [hreport]
      exact mt hback hcompleted
    · rw [hreport, hsameAssigned]
      exact hassigned

end Running

namespace Application

open Running

variable {σ ρ : Type} [Host σ] [Picker ρ] {app : Application ρ}

/-- **A tick leaves what rests alone** -/
theorem keeps_tick (h : app.Regular) (hl : app.tasks.Each Task.DoneIsLoose) (host : σ) (output : List Printed) :
    Keeps app (app.tick host output) :=
  stepEach_keeps (P := Keeps app) (fun _ _ _ hc h => h.stepClaim hc) (List.append_nil _).symm
    (keeps_releaseDead h hl host output).assignIdle

/-- the third phase of a tick tells what has become of the tasks since the second -/
theorem tells_tick (h : app.Regular) (host : σ) (output : List Printed) :
    ∃ begun : Running σ ρ, begun.app.Regular ∧ Begun app (Host.world host).isAlive begun ∧
      Tells begun (app.tick host output) := by
  have hbegun := begun_assignIdle (begun_releaseDead h host output)
  have hchain := (chain_releaseDead ({ app, host, output } : Running σ ρ)).trans (chain_assignIdle _)
  have hregular := h.chain hchain
  exact ⟨_, hregular, hbegun, tells_stepClaims (hbegun.tells hregular)⟩

end Application

/-- the tasks that a report names -/
def Report.tasks (r : Report) : List TaskId :=
  r.assigned.map (·.2) ++ r.completed ++ r.failed ++ r.errors.map (·.1)

namespace Application

variable {σ ρ : Type} [Host σ] [Picker ρ] {app : Application ρ}

/-- **A tick reports on tasks that exist** -/
theorem known_tick (h : app.Regular) (host : σ) (output : List Printed) {t : TaskId}
    (ht : t ∈ (app.tick host output).report.tasks) : ((app.tick host output).app.tasks.get? t).isSome := by
  obtain ⟨begun, hregular, hbegun, htells⟩ := tells_tick h host output
  have hfailed : ∀ t ∈ (app.tick host output).report.failed,
      ((app.tick host output).app.tasks.get? t).isSome := by
    intro t ht
    obtain ⟨_, task, -, hget, -⟩ := (htells.fates t).setBack ht
    rw [hget]
    rfl
  simp only [Report.tasks, List.mem_append, List.mem_map] at ht
  obtain ((⟨c, hc, rfl⟩ | ht) | ht) | ⟨e, he, rfl⟩ := ht
  · -- what is assigned is held when the third phase begins
    obtain ⟨task, hget, -⟩ := Arena.holder?_eq_some.1 ((hregular.agree _ _).1 (hbegun.assigned c (htells.assigned ▸ hc)))
    rw [(htells.fates c.2).isSome_eq, hget]
    rfl
  · obtain ⟨-, task, hget, -⟩ := (htells.fates t).ended ht
    rw [hget]
    rfl
  · exact hfailed t ht
  · exact hfailed _ (htells.errors e he)

end Application

namespace Playing

open Application

variable {ρ : Type} {ids seen : List TaskId} {p : Playing ρ}

/-! ## What is printed -/

/-- nothing is in the way of a list of lines that can be had -/
theorem print_of_isOk {lines : List (Except SchedulerError String)} (h : ∀ line ∈ lines, line.isOk = true)
    (output : String) : ∃ printed, print output lines = .ok printed := by
  induction lines generalizing output with
  | nil => exact ⟨output, rfl⟩
  | cons line rest ih =>
    obtain ⟨hline, hrest⟩ := List.forall_mem_cons.1 h
    cases line with
    | error cause => cases hline
    | ok line => exact ih hrest (output ++ line)

/-- the lines about tasks that exist can be had -/
theorem isOk_of_mem_lines {printed : List Printed} {r : Report} (h : ∀ t ∈ r.tasks, (p.app.tasks.get? t).isSome)
    {line : Except SchedulerError String} (hl : line ∈ p.lines printed r) : line.isOk = true := by
  have hname : ∀ t ∈ r.tasks, ∀ f : String → String, ((p.app.name t).map f).isOk = true := by
    intro t ht f
    obtain ⟨task, hget⟩ := Option.isSome_iff_exists.1 (h t ht)
    simp only [Application.name, Application.task, hget]
    rfl
  simp only [lines, List.mem_append, List.mem_map] at hl
  obtain (((⟨x, -, rfl⟩ | ⟨a, ha, rfl⟩) | ⟨t, ht, rfl⟩) | ⟨t, ht, rfl⟩) | ⟨e, he, rfl⟩ := hl
  · rfl
  · exact hname _ (by simp [Report.tasks, List.mem_map_of_mem ha]) _
  · exact hname _ (by simp [Report.tasks, ht]) _
  · exact hname _ (by simp [Report.tasks, ht]) _
  · exact hname _ (by simp [Report.tasks, List.mem_map_of_mem he]) _

variable [Picker ρ]

/-! ## Runs of scenarios -/

def report (p : Playing ρ) : Report := (p.app.tick p.sandbox []).report

/-- what the ticks of a run report, one after the other -/
def reports (count : Nat) : Nat → Playing ρ → List Report
  | 0, _ => []
  | limit + 1, p =>
    if p.completed < count then
      p.report :: match p.step with
        | .error _ => []
        | .ok next => reports count limit next
    else []

/-- **No step from a regular application is cut short** -/
theorem step_of_regular (h : p.app.Regular) :
    ∃ next, p.step = .ok next ∧ next.app = (p.app.tick p.sandbox []).app ∧
      next.completed = p.completed + p.report.completed.length ∧ next.ticks = p.ticks + 1 := by
  have hknown : ∀ t ∈ p.report.tasks, ((p.app.tick p.sandbox []).app.tasks.get? t).isSome :=
    fun t ht => known_tick h p.sandbox [] ht
  unfold report at hknown ⊢
  unfold step
  generalize p.app.tick p.sandbox [] = r at hknown
  let ticked : Playing ρ := { p with app := r.app, ticks := p.ticks + 1 }
  have hlines : ∀ line ∈ ticked.lines r.output r.report, line.isOk = true :=
    fun line hl => isOk_of_mem_lines hknown hl
  obtain ⟨printed, hprinted⟩ := print_of_isOk hlines p.output
  let next : Playing ρ := { ticked with
    sandbox := r.host.advance, output := printed, completed := p.completed + r.report.completed.length }
  refine ⟨next, ?_, rfl, rfl, rfl⟩
  change (print p.output (ticked.lines r.output r.report) >>= fun _ => _) = _
  rw [hprinted]
  rfl

/-- the tasks in `seen` have ended, and they are those that are counted; all others wait in some pool or are under
way -/
structure Tallied (ids seen : List TaskId) (p : Playing ρ) : Prop where
  regular : p.app.Regular
  total : ∀ t, t ∈ ids ↔ (p.app.tasks.get? t).isSome
  count : p.completed = seen.length
  once : seen.Nodup
  ended : ∀ t ∈ seen, ∃ task, p.app.tasks.get? t = some task ∧ task.Ended
  others : ∀ t task, p.app.tasks.get? t = some task → t ∉ seen → task.state ≠ .done ∧ task.schedulers ≠ ∅

namespace Tallied

omit [Picker ρ] in
theorem doneIsLoose (h : Tallied ids seen p) : p.app.tasks.Each Task.DoneIsLoose := by
  intro t task ht hd
  by_cases hs : t ∈ seen
  · obtain ⟨task', ht', hended⟩ := h.ended t hs
    obtain rfl := Option.some.inj (ht.symm.trans ht')
    exact hended.loose
  · exact absurd hd (h.others t task ht hs).1

/-- **A tick counts tasks that were not counted before**, and hands out none that were -/
theorem step (h : Tallied ids seen p) :
    ∃ next, p.step = .ok next ∧ next.ticks = p.ticks + 1 ∧ Tallied ids (seen ++ p.report.completed) next ∧
      ∀ c ∈ p.report.assigned, c.2 ∉ seen := by
  obtain ⟨next, hstep, happ, hcount, hticks⟩ := step_of_regular h.regular
  have hkeeps := keeps_tick h.regular h.doneIsLoose p.sandbox []
  obtain ⟨begun, -, hbegun, htells⟩ := tells_tick h.regular p.sandbox []
  have hunmoved : ∀ t ∈ seen, ∃ task, task.Ended ∧ Running.Unmoved t task (p.app.tick p.sandbox []) := by
    intro t ht
    obtain ⟨task, hget, hended⟩ := h.ended t ht
    exact ⟨task, hended, hkeeps.unmoved t task hget ⟨hended.unit, hended.loose⟩⟩
  refine ⟨next, hstep, hticks, ?_, ?_⟩
  · refine ⟨happ ▸ hkeeps.regular, fun t => ?_, ?_, ?_, fun t ht => ?_, fun t task hget ht => ?_⟩
    · have hsome := (htells.fates t).isSome_eq
      have hbefore : (begun.app.tasks.get? t).isSome = (p.app.tasks.get? t).isSome :=
        Arena.isSome_eq_of_rel (hbegun.tasks t)
      rw [h.total, happ, hsome, hbefore]
    · rw [List.length_append, ← h.count, hcount]
    · rw [List.nodup_append]
      refine ⟨h.once, htells.completed, fun t ht t' ht' he => ?_⟩
      obtain ⟨task, -, hsame⟩ := hunmoved t ht
      exact hsame.completed (he ▸ ht')
    · rw [happ]
      rcases List.mem_append.1 ht with ht | ht
      · obtain ⟨task, hended, hsame⟩ := hunmoved t ht
        exact ⟨task, hsame.same, hended⟩
      · exact ((htells.fates t).ended ht).2
    · -- a task that is not completed stays in its pools, so it cannot be done
      rw [List.mem_append, not_or] at ht
      rw [happ] at hget
      have hpools := ((htells.fates t).schedulers ht.2).trans
        (Arena.map_eq_of_rel (fun _ _ hkept => hkept.schedulers) (hbegun.tasks t))
      rw [hget] at hpools
      obtain ⟨before, hbefore, hsame⟩ := Option.map_eq_some_iff.1 hpools.symm
      have hsame' : before.schedulers = task.schedulers := hsame
      have hin : task.schedulers ≠ ∅ := hsame' ▸ (h.others t before hbefore ht.1).2
      exact ⟨fun hd => hin (hkeeps.loose t task hget hd), hin⟩
  · intro c hc ht
    obtain ⟨task, -, hsame⟩ := hunmoved c.2 ht
    exact hsame.assigned c hc rfl

/-- **What a run counts are the tasks that its reports list as completed**; the induction is on the limit -/
theorem run (h : Tallied ids seen p) (count limit : Nat) :
    ∃ last, Playing.run count limit p = .ok last ∧ last.ticks = p.ticks + (reports count limit p).length ∧
      Tallied ids (seen ++ (reports count limit p).flatMap (·.completed)) last ∧
      (∀ r ∈ reports count limit p, ∀ c ∈ r.assigned, c.2 ∉ seen) ∧
      (reports count limit p).Pairwise fun earlier later => ∀ c ∈ later.assigned, c.2 ∉ earlier.completed := by
  induction limit generalizing seen p with
  | zero => exact ⟨p, rfl, rfl, by simpa [reports] using h, by simp [reports], by simp [reports]⟩
  | succ limit ih =>
    by_cases hgoes : p.completed < count
    · obtain ⟨next, hstep, hticks, htallied, hfresh⟩ := h.step
      obtain ⟨last, hlast, hcount, hrest, hnew, hpairs⟩ := ih htallied
      have hrun : Playing.run count (limit + 1) p = Playing.run count limit next := by
        rw [Playing.run, if_pos hgoes, hstep]
        rfl
      have hreports : reports count (limit + 1) p = p.report :: reports count limit next := by
        rw [reports, if_pos hgoes, hstep]
      rw [List.append_assoc, ← List.flatMap_cons] at hrest
      rw [hrun, hreports]
      refine ⟨last, hlast, ?_, hrest, fun r hr c hc => ?_, List.pairwise_cons.2 ⟨fun r hr c hc => ?_, hpairs⟩⟩
      · rw [hcount, hticks, List.length_cons, Nat.add_assoc, Nat.add_comm 1]
      · rcases List.mem_cons.1 hr with rfl | hr
        · exact hfresh c hc
        · exact fun hm => hnew r hr c hc (List.mem_append_left _ hm)
      · exact fun hm => hnew r hr c hc (List.mem_append_right _ hm)
    · have hrun : Playing.run count (limit + 1) p = .ok p := by rw [Playing.run, if_neg hgoes]
      have hreports : reports count (limit + 1) p = [] := by rw [reports, if_neg hgoes]
      rw [hrun, hreports]
      exact ⟨p, rfl, rfl, by simpa using h, by simp, by simp⟩

omit [Picker ρ]

theorem subset (h : Tallied ids seen p) : seen ⊆ ids := by
  intro t ht
  obtain ⟨task, hget, -⟩ := h.ended t ht
  rw [h.total, hget]
  rfl

theorem completed_le (h : Tallied ids seen p) : p.completed ≤ ids.length := by
  rw [h.count]
  exact (List.subperm_of_subset h.once h.subset).length_le

/-- **Everything is counted exactly when everything is done** -/
theorem completed_eq (h : Tallied ids seen p) (hids : ids.Nodup) :
    p.completed = ids.length ↔
      (∀ t task, p.app.tasks.get? t = some task → task.state = .done) ∧
        ∀ sched ∈ p.app.schedulers, sched.entries = [] := by
  have hsubperm := List.subperm_of_subset h.once h.subset
  constructor
  · intro he
    have hperm := hsubperm.perm_of_length_le (by rw [← h.count, he])
    have hall : ∀ t task, p.app.tasks.get? t = some task → task.Ended := by
      intro t task hget
      have hmem : t ∈ ids := (h.total t).2 (by rw [hget]; rfl)
      obtain ⟨task', hget', hended⟩ := h.ended t (hperm.mem_iff.2 hmem)
      obtain rfl := Option.some.inj (hget.symm.trans hget')
      exact hended
    refine ⟨fun t task hget => (hall t task hget).done, fun sched hsched => ?_⟩
    rw [List.eq_nil_iff_forall_not_mem]
    intro e hm
    -- an entry would be noted on its task, which has left all pools
    have hs := h.regular.pools.scheduler?_id hsched
    have hcontains : sched.contains e.task = true := Scheduler.contains_iff.2 (List.mem_map_of_mem hm)
    obtain ⟨task, hget, hjoined⟩ := (h.regular.pools.agree sched.id e.task).1 ((holds_of_scheduler? hs).2 hcontains)
    rw [(hall _ task hget).loose] at hjoined
    exact Std.ExtTreeSet.not_mem_empty hjoined
  · rintro ⟨hdone, -⟩
    have hback : ids ⊆ seen := by
      intro t ht
      obtain ⟨task, hget⟩ := Option.isSome_iff_exists.1 ((h.total t).1 ht)
      by_contra hnot
      exact (h.others t task hget hnot).1 (hdone t task hget)
    have hle := (List.subperm_of_subset hids hback).length_le
    have hge := hsubperm.length_le
    have hcount := h.count
    omega

end Tallied

end Playing

namespace TaskId

theorem nodup_range (first count : Nat) : (TaskId.range first count).Nodup :=
  List.Nodup.map (fun _ _ he => congrArg TaskId.index he) (List.nodup_range' 1)

theorem mem_range {first count : Nat} {t : TaskId} :
    t ∈ TaskId.range first count ↔ first ≤ t.index ∧ t.index < first + count := by
  unfold TaskId.range
  rw [List.mem_map]
  constructor
  · rintro ⟨i, hi, rfl⟩
    exact List.mem_range'_1.1 hi
  · intro h
    exact ⟨t.index, List.mem_range'_1.2 h, rfl⟩

end TaskId

namespace Scenario

open Application Playing

/-- after set-up nothing is counted, and every task is in a pool -/
theorem tallied_setup {ρ : Type} {s : Scenario} {settings : Settings} {picker : ρ} {app : Application ρ}
    {sandbox : Sandbox} {ids : List TaskId} (h : s.setup settings picker = .ok (app, sandbox, ids)) :
    Tallied ids [] { app, sandbox } ∧ ids.Nodup := by
  rcases s.setup_cases settings picker with ⟨-, staffed, hsetup, hstaffed⟩ | ⟨pre, o, post, -, -, -, hsetup⟩
  · rw [hsetup] at h
    obtain ⟨rfl, hrest⟩ := Prod.mk.inj (Except.ok.inj h)
    obtain ⟨-, rfl⟩ := Prod.mk.inj hrest
    have hsize := hstaffed.size fun o ho => schedulerFor?_hired ho settings picker
    refine ⟨⟨hstaffed.untouched.regular, fun t => ?_, rfl, List.nodup_nil, nofun, fun t task hget _ => ?_⟩,
      TaskId.nodup_range _ _⟩
    · have hzero : (s.hired settings picker).tasks.size = 0 := rfl
      have hlt : (staffed.tasks.get? t).isSome = true ↔ t.index < staffed.tasks.size := by
        simp [Arena.get?, Arena.size]
      rw [hlt, TaskId.mem_range, hsize, hzero]
      simp
    · obtain ⟨hi, -⟩ := Array.getElem?_eq_some_iff.1 hget
      obtain ⟨o, -, pool, -, hholds⟩ := hstaffed.holds (Nat.zero_le _) hi
      have hwaits := hstaffed.untouched.waits t task hget
      rw [hstaffed.untouched.pools.agree, Arena.joined_of_get? hget] at hholds
      refine ⟨?_, fun he => ?_⟩
      · rw [Task.state, Stmt.state_of_isPristine hwaits.fresh.pristine]
        decide
      · rw [he] at hholds
        exact Std.ExtTreeSet.not_mem_empty hholds
  · rw [hsetup] at h
    cases h

/-- a run that is not cut short ends with a line about its counters -/
theorem run_of_setup {ρ : Type} [Picker ρ] {s : Scenario} {settings : Settings} {picker : ρ} {limit : Nat}
    {app : Application ρ} {sandbox : Sandbox} {ids : List TaskId} {p : Playing ρ}
    (h : s.setup settings picker = .ok (app, sandbox, ids))
    (hrun : Playing.run ids.length limit { app, sandbox } = .ok p) :
    s.run settings picker limit =
      .ok (.success s!"{p.output}\n{p.completed} of {ids.length} tasks completed after {p.ticks} ticks\n") := by
  unfold Scenario.run
  rw [h]
  change (match Playing.run ids.length limit { app, sandbox } with | .error _ => _ | .ok _ => _) = _
  rw [hrun]
  rfl

/-- **A run completes each task once at most, and its counter tells the truth.** Let a scenario be set up, under any
settings and with any picker, and run up to any limit. The run is not cut short, and its last line gives its counters.
No task is listed twice as completed in all reports together, and the counter is the number of those listed; they are
done, and neither a unit nor a pool has them. A task that was completed is not assigned in any later tick. The counter
reaches the number of tasks exactly when all tasks are done and all pools are empty, and never goes beyond. -/
theorem run_completes {ρ : Type} [Picker ρ] (s : Scenario) (settings : Settings) (picker : ρ) (limit : Nat)
    {app : Application ρ} {sandbox : Sandbox} {ids : List TaskId}
    (h : s.setup settings picker = .ok (app, sandbox, ids)) :
    let start : Playing ρ := { app, sandbox }
    let reports := Playing.reports ids.length limit start
    let completed := reports.flatMap (·.completed)
    ∃ p, Playing.run ids.length limit start = .ok p ∧
    s.run settings picker limit =
      .ok (.success s!"{p.output}\n{p.completed} of {ids.length} tasks completed after {p.ticks} ticks\n") ∧
    p.ticks = reports.length ∧ (∀ t, t ∈ ids ↔ (p.app.tasks.get? t).isSome) ∧
    completed.Nodup ∧ p.completed = completed.length ∧ p.completed ≤ ids.length ∧
    (∀ t ∈ completed, ∃ task, p.app.tasks.get? t = some task ∧ task.state = .done ∧ task.unit? = none ∧
      task.schedulers = ∅) ∧
    (reports.Pairwise fun earlier later => ∀ c ∈ later.assigned, c.2 ∉ earlier.completed) ∧
    (p.completed = ids.length ↔
      (∀ t task, p.app.tasks.get? t = some task → task.state = .done) ∧
        ∀ sched ∈ p.app.schedulers, sched.entries = []) := by
  intro start reports completed
  obtain ⟨hstart, hids⟩ := tallied_setup h
  obtain ⟨p, hrun, hticks, htallied, -, hpairs⟩ := hstart.run ids.length limit
  refine ⟨p, hrun, run_of_setup h hrun, hticks.trans (Nat.zero_add _), htallied.total, htallied.once, htallied.count,
    htallied.completed_le, fun t ht => ?_, hpairs, htallied.completed_eq hids⟩
  obtain ⟨task, hget, hended⟩ := htallied.ended t ht
  exact ⟨task, hget, hended.done, hended.unit, hended.loose⟩

/-- a unit each of two factions, of which one greets and the other looks for a friend -/
def welcome : Scenario where
  layout :=
    { size := ⟨2, 1, 1⟩
      units := [{ id := ⟨7⟩, faction := ⟨1⟩, position := ⟨0, 0, 0⟩ }, { id := ⟨8⟩, faction := ⟨2⟩, position := ⟨1, 0, 0⟩ }] }
  orders :=
    [{ faction := ⟨1⟩, template := ⟨"greet", 0, .print {} (.boolean {} true)⟩ },
      { faction := ⟨2⟩, template := ⟨"meet", 0, .print {} (.unit {} .friend)⟩ }]

/-- the greeting is completed, while nobody is met however often the other task is tried -/
theorem run_completes_welcome :
    ∃ app sandbox ids p, welcome.setup {} (Replay.mk []) = .ok (app, sandbox, ids) ∧
      Playing.run ids.length 3 { app, sandbox } = .ok p ∧ p.completed = 1 ∧ p.ticks = 3 ∧ ids = [⟨0⟩, ⟨1⟩] ∧
      ¬ ((∀ t task, p.app.tasks.get? t = some task → task.state = .done) ∧
        ∀ sched ∈ p.app.schedulers, sched.entries = []) := by
  cases hsetup : welcome.setup {} (Replay.mk []) with
  | error e =>
    have hok : (welcome.setup {} (Replay.mk [])).isOk = true := by decide +kernel
    rw [hsetup] at hok
    cases hok
  | ok r =>
    obtain ⟨app, sandbox, ids⟩ := r
    have hcounts : (welcome.setup {} (Replay.mk [])).toOption.bind (fun (app, sandbox, ids) =>
        (Playing.run ids.length 3 { app, sandbox }).toOption.map fun p => (p.completed, p.ticks, ids)) =
          some (1, 3, [⟨0⟩, ⟨1⟩]) := by decide +kernel
    obtain ⟨p, hrun, -, -, -, -, -, -, -, -, hiff⟩ := run_completes welcome {} (Replay.mk []) 3 hsetup
    simp only [hsetup, hrun, Except.toOption, Option.bind_some, Option.map_some] at hcounts
    obtain ⟨hcount, hrest⟩ := Prod.mk.inj (Option.some.inj hcounts)
    obtain ⟨hticks, hids⟩ := Prod.mk.inj hrest
    refine ⟨app, sandbox, ids, p, rfl, hrun, hcount, hticks, hids, fun hall => ?_⟩
    have hreached := hiff.2 hall
    rw [hcount, hids] at hreached
    cases hreached

end Scenario

end Errand
