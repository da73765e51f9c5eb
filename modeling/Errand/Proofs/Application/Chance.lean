/-
Chance in whole runs: without `nextTo` the picker does not matter.

A picker is at hand in every operation, but only steps of scripts consult it. So every operation commutes with an
exchange of the picker (`schedule_withPicker` and its like), and a tick does if no task of the arena draws
(`tick_withPicker`); no operation adds to what the bodies of tasks contain, so the arena stays free of draws
(`plain_operate`). `Stage` is an application with its host, `course` all that comes of a list of events: every answer
with the stage it leaves. `course_without_nextTo` compares the courses of two pickers; a `Metered` picker shows that
none is asked.
-/
import Errand.Proofs.Application.Attendance
import Errand.Proofs.Host.Logged
import Errand.Proofs.Script.Chance
import Errand.Lottery
import Errand.Rehearsal

namespace Errand

variable {σ ρ ρ' : Type}

/-! ## Operations with another picker -/

namespace Application

/-- the same application with another picker, of another kind perhaps -/
def withPicker (app : Application ρ) (q : ρ') : Application ρ' := { app with picker := q }

variable {app : Application ρ} {q : ρ'}

theorem tasks_withPicker : (app.withPicker q).tasks = app.tasks := rfl

theorem claims_withPicker : (app.withPicker q).claims = app.claims := rfl

theorem scheduler?_withPicker (s : SchedulerId) : (app.withPicker q).scheduler? s = app.scheduler? s := rfl

theorem addTasks_withPicker (ts : List Task) :
    (app.withPicker q).addTasks ts = ((app.addTasks ts).1, (app.addTasks ts).2.withPicker q) := by
  induction ts generalizing app with
  | nil => rfl
  | cons t rest ih =>
    have hadd : (app.withPicker q).addTask t = ((app.addTask t).1, (app.addTask t).2.withPicker q) := rfl
    simp only [addTasks, hadd, ih]

theorem addScheduler_withPicker (f : FactionId) :
    (app.withPicker q).addScheduler f = ((app.addScheduler f).1, (app.addScheduler f).2.withPicker q) := by
  have hfor : (app.withPicker q).schedulerFor? f = app.schedulerFor? f := rfl
  simp only [addScheduler, hfor]
  cases app.schedulerFor? f <;> rfl

theorem schedule_withPicker (s : SchedulerId) (t : TaskId) :
    (app.withPicker q).schedule s t = ((app.schedule s t).1, (app.schedule s t).2.withPicker q) := by
  simp only [schedule, scheduler?_withPicker]
  cases app.scheduler? s <;> rfl

theorem assignNext_withPicker (s : SchedulerId) (u : UnitId) :
    (app.withPicker q).assignNext s u = ((app.assignNext s u).1, (app.assignNext s u).2.withPicker q) := by
  simp only [assignNext, scheduler?_withPicker, claims_withPicker, tasks_withPicker]
  cases app.claims[u]? with
  | some held => rfl
  | none =>
    cases app.scheduler? s with
    | none => rfl
    | some sched =>
      dsimp only
      rcases sched.assignNext u app.tasks with ⟨_ | t, tasks⟩ <;> rfl

theorem unschedule_withPicker (s : SchedulerId) (t : TaskId) :
    (app.withPicker q).unschedule s t = ((app.unschedule s t).1, (app.unschedule s t).2.withPicker q) := by
  simp only [unschedule, scheduler?_withPicker]
  cases app.scheduler? s <;> rfl

theorem setPriority_withPicker (t : TaskId) (priority : Int64) :
    (app.withPicker q).setPriority t priority =
      ((app.setPriority t priority).1, (app.setPriority t priority).2.withPicker q) := by
  simp only [setPriority, tasks_withPicker]
  cases app.tasks.get? t <;> rfl

theorem leavePools_withPicker (app : Application ρ) (q : ρ') (t : TaskId) (ss : List SchedulerId) :
    ss.foldl (leavePool · t) (app.withPicker q) = (ss.foldl (leavePool · t) app).withPicker q := by
  induction ss generalizing app with
  | nil => rfl
  | cons s ss ih =>
    have hleave : (app.withPicker q).leavePool t s = (app.leavePool t s).withPicker q :=
      congrArg Prod.snd (unschedule_withPicker s t)
    rw [List.foldl_cons, List.foldl_cons, hleave, ih]

theorem finish_withPicker (t : TaskId) (u : UnitId) :
    (app.withPicker q).finish t u = (app.finish t u).withPicker q := by
  simp only [finish, tasks_withPicker, claims_withPicker]
  cases (app.tasks.modify t Task.finish).get? t with
  | none => rfl
  | some task =>
    exact leavePools_withPicker { app with claims := app.claims.erase u, tasks := app.tasks.modify t Task.finish } q t _

variable [Host σ]

theorem replace_withPicker (s : SchedulerId) (t u : TaskId) (host : σ) :
    (app.withPicker q).replace s t u host =
      ((app.replace s t u host).1, (app.replace s t u host).2.1.withPicker q, (app.replace s t u host).2.2) := by
  simp only [replace, scheduler?_withPicker, tasks_withPicker]
  cases app.scheduler? s with
  | none => rfl
  | some sched =>
    dsimp only
    rcases sched.replace t u app.tasks host with ⟨e | _ | freed, sched, tasks, host⟩ <;> rfl

theorem interrupt_withPicker (t : TaskId) (host : σ) :
    (app.withPicker q).interrupt t host =
      ((app.interrupt t host).1, (app.interrupt t host).2.1.withPicker q, (app.interrupt t host).2.2) := by
  simp only [interrupt, tasks_withPicker]
  cases app.tasks.get? t with
  | none => rfl
  | some task =>
    dsimp only
    rcases task.interrupt host with ⟨_ | freed, task, host⟩ <;> rfl

theorem stop_withPicker (s : SchedulerId) (t : TaskId) (host : σ) :
    (app.withPicker q).stop s t host =
      ((app.stop s t host).1, (app.stop s t host).2.1.withPicker q, (app.stop s t host).2.2) := by
  simp only [stop, scheduler?_withPicker, tasks_withPicker]
  cases app.scheduler? s with
  | none => rfl
  | some sched =>
    dsimp only
    rcases sched.stop t app.tasks host with ⟨e | _ | freed, tasks, host⟩ <;> rfl

end Application

/-! ## Arenas without draws -/

namespace Arena

/-- no task of the arena draws -/
def Plain (a : Arena) : Prop := a.Each fun task => task.body.draws = false

variable {a : Arena} {t : TaskId} {f : Task → Task}

theorem Plain.insert (h : a.Plain) {new : Task} (hn : new.body.draws = false) : (a.insert new).2.Plain :=
  Each.insert h ((Stmt.draws_of_program new.body.reset_reset).trans hn)

theorem Plain.modify (h : a.Plain) (hf : ∀ task, a.get? t = some task → (f task).body.reset = task.body.reset) :
    (a.modify t f).Plain :=
  Each.modify h fun task ht => (Stmt.draws_of_program (hf task ht)).trans (h t task ht)

/-- a task with the same program in the place of another -/
theorem Plain.put (h : a.Plain) {task new : Task} (ht : a.get? t = some task)
    (hp : new.body.reset = task.body.reset) : (a.modify t fun _ => new).Plain := by
  refine h.modify fun task' ht' => ?_
  obtain rfl := Option.some.inj (ht.symm.trans ht')
  exact hp

end Arena

namespace Application

variable {app : Application ρ}

theorem plain_addTasks (h : app.tasks.Plain) {ts : List Task} (hts : ∀ t ∈ ts, t.body.draws = false) :
    (app.addTasks ts).2.tasks.Plain := by
  induction ts generalizing app with
  | nil => exact h
  | cons t ts ih =>
    have hadded : (app.addTask t).2.tasks.Plain := h.insert (hts t List.mem_cons_self)
    exact ih hadded fun t' ht' => hts t' (List.mem_cons_of_mem t ht')

theorem plain_schedule (h : app.tasks.Plain) (s : SchedulerId) (t : TaskId) : (app.schedule s t).2.tasks.Plain := by
  obtain ⟨e, he⟩ | ⟨sched, task, -, -, -, -, he⟩ := app.schedule_cases s t
  · rwa [he]
  · rw [he]
    exact h.modify fun _ _ => rfl

theorem plain_assignNext (h : app.tasks.Plain) (s : SchedulerId) (u : UnitId) :
    (app.assignNext s u).2.tasks.Plain := by
  obtain ⟨e, he⟩ | he | ⟨sched, t, task, -, -, -, -, -, he⟩ := app.assignNext_cases s u
  · rwa [he]
  · rwa [he]
  · rw [he]
    exact h.modify fun task _ => (task.same_claim u).program

theorem plain_unschedule (h : app.tasks.Plain) (s : SchedulerId) (t : TaskId) :
    (app.unschedule s t).2.tasks.Plain := by
  obtain ⟨e, he⟩ | ⟨sched, slot, -, -, he⟩ := app.unschedule_cases s t
  · rwa [he]
  · rw [he]
    exact h.modify fun _ _ => rfl

theorem plain_setPriority (h : app.tasks.Plain) (t : TaskId) (priority : Int64) :
    (app.setPriority t priority).2.tasks.Plain := by
  obtain ⟨e, he⟩ | ⟨task, -, he⟩ := app.setPriority_cases t priority
  · rwa [he]
  · rw [he]
    exact h.modify fun _ _ => rfl

theorem plain_finish (h : app.tasks.Plain) (t : TaskId) (u : UnitId) : (app.finish t u).tasks.Plain :=
  finish_keeps (P := fun app => app.tasks.Plain) (h.modify fun _ _ => rfl) fun _ s h => plain_unschedule h s t

theorem plain_fail (h : app.tasks.Plain) (t : TaskId) (u : UnitId) : (app.fail t u).tasks.Plain :=
  h.modify fun task _ => task.same_release.program

variable [Host σ]

theorem plain_replace (h : app.tasks.Plain) (s : SchedulerId) (t u : TaskId) (host : σ) :
    (app.replace s t u host).2.1.tasks.Plain := by
  obtain ⟨e, he⟩ | ⟨sched, slot, member, newcomer, -, -, ht, -, -, -, -, he⟩ := app.replace_cases s t u host
  · rwa [he]
  · rw [he, tasks_freeing]
    have hmember : (app.tasks.modify t fun _ => member.release.2.quit sched.id).Plain :=
      h.put ht member.same_release.program
    exact hmember.modify fun task _ => task.same_release.program

theorem plain_interrupt (h : app.tasks.Plain) (t : TaskId) (host : σ) : (app.interrupt t host).2.1.tasks.Plain := by
  obtain ⟨e, he⟩ | ⟨task, ht, he⟩ := app.interrupt_cases t host
  · rwa [he]
  · rw [he, tasks_freeing]
    exact h.put ht task.same_release.program

theorem plain_stop (h : app.tasks.Plain) (s : SchedulerId) (t : TaskId) (host : σ) :
    (app.stop s t host).2.1.tasks.Plain := by
  obtain ⟨e, he⟩ | ⟨task, ht, he⟩ := app.stop_cases s t host
  · rwa [he]
  · rw [he, tasks_freeing]
    exact h.put ht task.same_release.program

end Application

/-! ## Ticks -/

namespace Running

/-- the same state of a tick with another picker -/
def withPicker (r : Running σ ρ) (q : ρ') : Running σ ρ' := { r with app := r.app.withPicker q }

variable {r : Running σ ρ} {q : ρ'}

/-- what commutes with an exchange of the picker and leaves no draws does so over a list -/
theorem foldl_withPicker {α : Type} {f : Running σ ρ → α → Running σ ρ} {g : Running σ ρ' → α → Running σ ρ'}
    (hf : ∀ r a, r.app.tasks.Plain → g (r.withPicker q) a = (f r a).withPicker q ∧ (f r a).app.tasks.Plain)
    (h : r.app.tasks.Plain) (as : List α) :
    as.foldl g (r.withPicker q) = (as.foldl f r).withPicker q ∧ (as.foldl f r).app.tasks.Plain := by
  induction as generalizing r with
  | nil => exact ⟨rfl, h⟩
  | cons a as ih =>
    obtain ⟨hg, hplain⟩ := hf r a h
    rw [List.foldl_cons, List.foldl_cons, hg]
    exact ih hplain

variable [Host σ]

theorem freeDead_withPicker (h : r.app.tasks.Plain) (t : TaskId) :
    (r.withPicker q).freeDead t = (r.freeDead t).withPicker q ∧ (r.freeDead t).app.tasks.Plain := by
  have hexchange : (r.withPicker q).app.interrupt t (r.withPicker q).host = _ :=
    Application.interrupt_withPicker t r.host
  have hplain := Application.plain_interrupt h t r.host
  simp only [freeDead, hexchange]
  rcases he : r.app.interrupt t r.host with ⟨e | freed, app, host⟩
  · rw [he] at hplain
    exact ⟨rfl, hplain⟩
  · rw [he] at hplain
    exact ⟨rfl, hplain⟩

theorem releaseDead_withPicker (h : r.app.tasks.Plain) (q : ρ') :
    (r.withPicker q).releaseDead = r.releaseDead.withPicker q ∧ r.releaseDead.app.tasks.Plain :=
  foldl_withPicker (fun _ c h => freeDead_withPicker h c.2) h _

omit [Host σ] in
theorem offer_withPicker (world : World) (s : SchedulerId) (h : r.app.tasks.Plain) (us : List UnitId) :
    (r.withPicker q).offer world s us = (r.offer world s us).withPicker q ∧ (r.offer world s us).app.tasks.Plain := by
  induction us generalizing r with
  | nil => exact ⟨rfl, h⟩
  | cons u rest ih =>
    have hexchange : (r.withPicker q).app.assignNext s u = _ := Application.assignNext_withPicker s u
    have hclaims : (r.withPicker q).app.claims = r.app.claims := rfl
    have hplain := Application.plain_assignNext h s u
    simp only [offer, hexchange, hclaims]
    split
    · exact ih h
    · rcases he : r.app.assignNext s u with ⟨e | _ | t, app⟩
      · rw [he] at hplain
        exact ⟨rfl, hplain⟩
      · rw [he] at hplain
        exact ⟨rfl, hplain⟩
      · rw [he] at hplain
        exact ih (r := { r with app, report := { r.report with assigned := r.report.assigned ++ [(u, t)] } }) hplain

theorem assignIdle_withPicker (h : r.app.tasks.Plain) (q : ρ') :
    (r.withPicker q).assignIdle = r.assignIdle.withPicker q ∧ r.assignIdle.app.tasks.Plain :=
  foldl_withPicker (fun _ o h => offer_withPicker _ o.1 h o.2) h _

variable [Picker ρ] [Picker ρ']

theorem stepClaim_withPicker (h : r.app.tasks.Plain) (u : UnitId) (t : TaskId) :
    (r.withPicker q).stepClaim u t = (r.stepClaim u t).withPicker q ∧ (r.stepClaim u t).app.tasks.Plain := by
  have htasks : (r.withPicker q).app.tasks = r.app.tasks := rfl
  simp only [stepClaim, htasks]
  cases ht : r.app.tasks.get? t with
  | none => exact ⟨rfl, h⟩
  | some task =>
    let o : Outside σ ρ := { host := r.host, picker := r.app.picker, output := r.output }
    have hexchange : task.advance u { host := (r.withPicker q).host, picker := (r.withPicker q).app.picker
                                      output := (r.withPicker q).output } = _ :=
      Task.advance_withPicker (h t task ht) u o q
    let app : Application ρ :=
      { r.app with tasks := r.app.tasks.modify t fun _ => task.advanced u o, picker := (task.stepFor u o).live.picker }
    have hplain : app.tasks.Plain := h.put ht (task.same_advanced u o).program
    have hfinish : (app.withPicker q).finish t u = (app.finish t u).withPicker q := Application.finish_withPicker t u
    dsimp only
    rw [hexchange, task.advance_eq]
    dsimp only
    cases hr : (task.stepFor u o).result with
    | error e => exact ⟨rfl, Application.plain_fail hplain t u⟩
    | ok x =>
      cases x with
      | done =>
        refine ⟨?_, Application.plain_finish hplain t u⟩
        change Running.mk ((app.withPicker q).finish t u) _ _ _ = _
        rw [hfinish]
        rfl
      | failed => exact ⟨rfl, Application.plain_fail hplain t u⟩
      | notStarted | inProgress => exact ⟨rfl, hplain⟩

theorem stepClaims_withPicker (h : r.app.tasks.Plain) (q : ρ') :
    (r.withPicker q).stepClaims = r.stepClaims.withPicker q ∧ r.stepClaims.app.tasks.Plain :=
  foldl_withPicker (fun _ c h => stepClaim_withPicker h c.1 c.2) h _

end Running

namespace Application

variable [Host σ] [Picker ρ] [Picker ρ'] {app : Application ρ}

/-- **A tick of tasks that draw nothing is the same with any picker**, and leaves the picker alone -/
theorem tick_withPicker (h : app.tasks.Plain) (q : ρ') (host : σ) (output : List Printed) :
    (app.withPicker q).tick host output = (app.tick host output).withPicker q ∧
      (app.tick host output).app.tasks.Plain := by
  let r : Running σ ρ := { app, host, output }
  obtain ⟨hreleased, hplain⟩ := Running.releaseDead_withPicker (r := r) h q
  obtain ⟨hassigned, hplain'⟩ := Running.assignIdle_withPicker hplain q
  obtain ⟨hstepped, hplain''⟩ := Running.stepClaims_withPicker hplain' q
  refine ⟨?_, hplain''⟩
  change (r.withPicker q).releaseDead.assignIdle.stepClaims = _
  rw [hreleased, hassigned]
  exact hstepped

/-! ## Courses -/

/-- the trees that an operation brings into the application -/
def Op.adds {τ : Type} : Op τ → List Stmt
  | .addTask t => [t.body]
  | .instantiate t _ => [t.body]
  | _ => []

end Application

/-- what the caller of an operation is told -/
inductive Answer where
  | added (ts : List TaskId)
  | opened (r : Except SchedulerError SchedulerId)
  | done (r : Except SchedulerError Unit)
  | freed (r : Except SchedulerError (Option UnitId))
  | assigned (r : Except SchedulerError (Option TaskId))
  /-- a tick is reported, and adds to the output -/
  | ticked (report : Report) (output : List Printed)

/-- an application with the host in which it works -/
structure Stage (σ ρ : Type) where
  app : Application ρ
  host : σ

/-- what can happen: an operation with the host at hand, or some change of the host -/
inductive Stage.Event (σ : Type) where
  | operation (op : Application.Op Unit)
  | befalls (change : σ → σ)

namespace Stage

open Application

/-- the trees that an event brings into the application -/
def Event.adds : Event σ → List Stmt
  | .operation op => op.adds
  | .befalls _ => []

def withPicker (st : Stage σ ρ) (q : ρ') : Stage σ ρ' := { st with app := st.app.withPicker q }

variable [Host σ] [Picker ρ] [Picker ρ']

/-- the answer of an operation, and the stage it leaves -/
def operate (st : Stage σ ρ) : Op Unit → Answer × Stage σ ρ
  | .addTask t =>
    let (id, app) := st.app.addTask t
    (.added [id], { st with app })
  | .instantiate t selections =>
    let (ids, app) := st.app.instantiate t selections
    (.added ids, { st with app })
  | .addScheduler f =>
    let (r, app) := st.app.addScheduler f
    (.opened r, { st with app })
  | .schedule s t =>
    let (r, app) := st.app.schedule s t
    (.done r, { st with app })
  | .replace s t u _ =>
    let (r, app, host) := st.app.replace s t u st.host
    (.freed r, { app, host })
  | .assignNext s u =>
    let (r, app) := st.app.assignNext s u
    (.assigned r, { st with app })
  | .interrupt t _ =>
    let (r, app, host) := st.app.interrupt t st.host
    (.freed r, { app, host })
  | .stop s t _ =>
    let (r, app, host) := st.app.stop s t st.host
    (.freed r, { app, host })
  | .unschedule s t =>
    let (r, app) := st.app.unschedule s t
    (.done r, { st with app })
  | .setPriority t priority =>
    let (r, app) := st.app.setPriority t priority
    (.done r, { st with app })
  | .tick _ output =>
    let r := st.app.tick st.host output
    (.ticked r.report r.output, { app := r.app, host := r.host })

def happen (st : Stage σ ρ) : Event σ → Option Answer × Stage σ ρ
  | .operation op =>
    let (answer, st) := st.operate op
    (some answer, st)
  | .befalls change => (none, { st with host := change st.host })

/-- all that comes of a list of events: each answer with the stage it leaves -/
def course (st : Stage σ ρ) : List (Event σ) → List (Option Answer × Stage σ ρ)
  | [] => []
  | e :: events => st.happen e :: (st.happen e).2.course events

variable {st : Stage σ ρ}

theorem draws_instantiate {t : Template} (h : t.body.draws = false) (selections : List Cube) :
    ∀ task ∈ t.instantiate selections, task.body.draws = false := by
  have hfresh : t.body.reset.draws = false := (Stmt.draws_of_program t.body.reset_reset).trans h
  intro task htask
  unfold Template.instantiate at htask
  split at htask
  · obtain rfl := List.mem_singleton.1 htask
    exact hfresh
  · obtain ⟨c, -, rfl⟩ := List.mem_map.1 htask
    exact hfresh

theorem operate_withPicker (h : st.app.tasks.Plain) (op : Op Unit) (q : ρ') :
    (st.withPicker q).operate op = ((st.operate op).1, (st.operate op).2.withPicker q) := by
  have hfields : (st.withPicker q).app = st.app.withPicker q ∧ (st.withPicker q).host = st.host := ⟨rfl, rfl⟩
  cases op with
  | addTask => rfl
  | tick _ output =>
    simp only [operate, hfields, (tick_withPicker h q st.host output).1]
    rfl
  | _ =>
    simp only [operate, hfields, instantiate, addTasks_withPicker, addScheduler_withPicker, schedule_withPicker,
      replace_withPicker, assignNext_withPicker, interrupt_withPicker, stop_withPicker, unschedule_withPicker,
      setPriority_withPicker]
    rfl

/-- no operation adds to what the bodies of the tasks contain, but those that add tasks -/
theorem plain_operate (h : st.app.tasks.Plain) {op : Op Unit} (hop : ∀ body ∈ op.adds, body.draws = false) :
    (st.operate op).2.app.tasks.Plain := by
  cases op with
  | addTask t => exact h.insert (hop _ List.mem_cons_self)
  | instantiate t selections => exact plain_addTasks h (draws_instantiate (hop _ List.mem_cons_self) selections)
  | addScheduler f =>
    have htasks : (st.app.addScheduler f).2.tasks = st.app.tasks := by
      obtain ⟨e, he⟩ | ⟨-, he⟩ := st.app.addScheduler_cases f <;> rw [he]
    change (st.app.addScheduler f).2.tasks.Plain
    rwa [htasks]
  | schedule s t => exact plain_schedule h s t
  | replace s t u => exact plain_replace h s t u st.host
  | assignNext s u => exact plain_assignNext h s u
  | interrupt t => exact plain_interrupt h t st.host
  | stop s t => exact plain_stop h s t st.host
  | unschedule s t => exact plain_unschedule h s t
  | setPriority t priority => exact plain_setPriority h t priority
  | tick _ output => exact (tick_withPicker h st.app.picker st.host output).2

/-- an event with another picker has the same answer, leaves the same stage but for the picker, and adds no draws -/
theorem happen_withPicker (h : st.app.tasks.Plain) {e : Event σ} (he : ∀ body ∈ e.adds, body.draws = false) (q : ρ') :
    (st.withPicker q).happen e = ((st.happen e).1, (st.happen e).2.withPicker q) ∧ (st.happen e).2.app.tasks.Plain := by
  cases e with
  | operation op =>
    have hplain : (st.operate op).2.app.tasks.Plain := plain_operate h he
    refine ⟨?_, hplain⟩
    simp only [happen, operate_withPicker h]
  | befalls change => exact ⟨rfl, h⟩

/-- a course with another picker has the same answers and, but for the picker, the same stages -/
theorem course_withPicker (h : st.app.tasks.Plain) {events : List (Event σ)}
    (hevents : ∀ e ∈ events, ∀ body ∈ e.adds, body.draws = false) (q : ρ') :
    (st.withPicker q).course events = (st.course events).map fun x => (x.1, x.2.withPicker q) := by
  induction events generalizing st with
  | nil => rfl
  | cons e events ih =>
    obtain ⟨hfirst, hplain⟩ := happen_withPicker h (hevents e List.mem_cons_self) q
    have hrest := ih hplain fun e he => hevents e (List.mem_cons_of_mem _ he)
    rw [course, course, hfirst, hrest, List.map_cons]

theorem picker_course (h : st.app.tasks.Plain) {events : List (Event σ)}
    (hevents : ∀ e ∈ events, ∀ body ∈ e.adds, body.draws = false) :
    ∀ x ∈ st.course events, x.2.app.picker = st.app.picker := by
  -- the course is that with its own picker put in the place of whatever each stage has
  have hsame : st.course events = (st.course events).map fun x => (x.1, x.2.withPicker st.app.picker) :=
    course_withPicker h hevents st.app.picker
  intro x hx
  rw [hsame] at hx
  obtain ⟨y, -, rfl⟩ := List.mem_map.1 hx
  rfl

end Stage

/-- a picker with the counts that it was asked for, the latest last -/
structure Metered (ρ : Type) where
  picker : ρ
  asked : List Nat := []

instance [Picker ρ] : Picker (Metered ρ) where
  pick count m :=
    let (i, picker) := Picker.pick count m.picker
    (i, { picker, asked := m.asked ++ [count] })

namespace Stage

open Application

/-- an application at the host where it begins to work -/
def fresh (settings : Settings) (picker : ρ) (host : σ) : Stage σ ρ := { app := initial settings picker, host }

variable [Host σ] [Picker ρ] [Picker ρ']

/-- **Only `nextTo` is a matter of chance.** Let anything happen to a fresh application: operations and ticks with the
host at hand, and changes of that host, in any order. If no tree that is ever added contains a `nextTo`, then with any
two pickers, of any kinds, it comes to the same: the answer of every operation, with the report and the output of
every tick, and at every stage the tasks with their trees and variables, the pools, the claims, the host and the calls
made on it. The pickers stay as they were, and are not asked at all: a meter on either notes nothing. -/
theorem course_without_nextTo (settings : Settings) (p : ρ) (q : ρ') (host : Logged σ)
    (events : List (Event (Logged σ))) (h : ∀ e ∈ events, ∀ body ∈ e.adds, body.draws = false) :
    List.Forall₂
      (fun x y => y.1 = x.1 ∧ y.2.app.tasks = x.2.app.tasks ∧ y.2.app.schedulers = x.2.app.schedulers ∧
        y.2.app.claims = x.2.app.claims ∧ y.2.host.host = x.2.host.host ∧ y.2.host.calls = x.2.host.calls)
      ((fresh settings p host).course events) ((fresh settings q host).course events) ∧
    (∀ x ∈ (fresh settings p host).course events, x.2.app.picker = p) ∧
    (∀ y ∈ (fresh settings q host).course events, y.2.app.picker = q) ∧
    (∀ x ∈ (fresh settings (Metered.mk p []) host).course events, x.2.app.picker.asked = []) ∧
    ∀ y ∈ (fresh settings (Metered.mk q []) host).course events, y.2.app.picker.asked = [] := by
  have hplain : ∀ {τ : Type} (picker : τ), (fresh settings picker host).app.tasks.Plain :=
    fun picker => each_initial _ settings picker
  have hcourse : (fresh settings q host).course events =
      ((fresh settings p host).course events).map fun x => (x.1, x.2.withPicker q) :=
    course_withPicker (hplain p) h q
  refine ⟨?_, picker_course (hplain p) h, picker_course (hplain q) h,
    fun x hx => ?_, fun y hy => ?_⟩
  · rw [hcourse, List.forall₂_map_right_iff, List.forall₂_same]
    exact fun x _ => ⟨rfl, rfl, rfl, rfl, rfl, rfl⟩
  · rw [picker_course (hplain (Metered.mk p [])) h x hx]
    rfl
  · rw [picker_course (hplain (Metered.mk q [])) h y hy]
    rfl

/-- a unit that takes its time -/
def strolling : Logged Rehearsal where
  host :=
    { world := { size := ⟨4, 4, 1⟩, figures := [{ id := ⟨7⟩, faction? := some ⟨1⟩ }] : Setting }.world
      final := .inProgress }

def perish (l : Logged Rehearsal) : Logged Rehearsal :=
  { l with host := { l.host with world := { l.host.world with isAlive := fun _ => false } } }

/-- a task that remembers a place and goes there; the unit dies on its way -/
def lastErrand (place : Expr) : List (Event (Logged Rehearsal)) :=
  [.operation (.addTask (Task.make "fetch" 1 (.sequence {} [.assign {} "there" place,
      .action {} .moveTo (.var {} "there")] 0))),
    .operation (.addScheduler ⟨1⟩), .operation (.schedule ⟨0⟩ ⟨0⟩), .operation (.tick () []), .operation (.tick () []),
    .befalls perish, .operation (.tick () [])]

/-- the unit goes to the place that its task names, whatever is drawn -/
theorem course_without_nextTo_lastErrand :
    let events := lastErrand (.cube {} ⟨3, 0, 0⟩)
    let drawn := (fresh {} (Lottery.ofSeed 5) strolling).course events
    let replayed := (fresh {} (Replay.mk [1]) strolling).course events
    (∀ e ∈ events, ∀ body ∈ e.adds, body.draws = false) ∧
      drawn.map (fun x => x.2.host.calls) = replayed.map (fun x => x.2.host.calls) ∧
      (replayed.getLast?.map fun x => x.2.host.calls) =
        some [.command ⟨7⟩ (.moveTo ⟨3, 0, 0⟩ false), .poll ⟨7⟩, .abort ⟨7⟩] := by
  intro events drawn replayed
  have hevents : ∀ e ∈ events, ∀ body ∈ e.adds, body.draws = false := by decide
  obtain ⟨hside, -⟩ := course_without_nextTo {} (Replay.mk [1]) (Lottery.ofSeed 5) strolling events hevents
  refine ⟨hevents, ?_, by decide +kernel⟩
  rw [← List.forall₂_eq_eq_eq, List.forall₂_map_left_iff, List.forall₂_map_right_iff]
  exact (hside.imp fun x y h => h.2.2.2.2.2).flip

/-- with a `nextTo` the unit is sent to the place that is drawn -/
example :
    let calls := fun picks => ((fresh {} (Replay.mk picks) strolling).course
      (lastErrand (.nextTo {} (.cube {} ⟨1, 1, 0⟩)))).getLast?.map fun x => x.2.host.calls
    calls [0] ≠ calls [1] := by
  decide +kernel

end Stage

end Errand
