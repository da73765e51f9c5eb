/-
Moves: the elementary changes of an application, and its operations as chains of them.

`Moves` and `Registers` say once what can happen to an application, each change with the conditions under which it
happens. A refused operation changes nothing, an accepted one is a move or a registration (`replace_cases` and its like,
`perform_cases`); a tick is a chain of moves, in which only claims that stand are stepped (`stands_at_turn`). `Op`
collects the operations with their arguments and hosts, and `run` performs a list of them. A property of all reachable
applications is then shown once for each change (`run_keeps`).
-/
import Errand.Tick
import Errand.Proofs.Task.Advance

namespace Errand

namespace Scheduler

/-! ## What the operations of a scheduler come to -/

/-- a task is refused, and nothing changes, or it becomes the last entry -/
theorem schedule_cases (s : Scheduler) (t : TaskId) (tasks : Arena) :
    (∃ e, s.schedule t tasks = (.error e, s, tasks)) ∨
      ∃ task, tasks.get? t = some task ∧ s.contains t = false ∧ task.isWellFormed = true ∧
        s.schedule t tasks =
          (.ok (), { s with entries := s.entries ++ [⟨t, s.nextSeq⟩], nextSeq := s.nextSeq + 1 },
            tasks.modify t (·.join s.id)) := by
  unfold schedule
  cases ht : tasks.get? t with
  | none => exact .inl ⟨_, rfl⟩
  | some task =>
    cases hc : s.contains t with
    | true => exact .inl ⟨_, rfl⟩
    | false =>
      cases hw : task.isWellFormed with
      | false => exact .inl ⟨.illFormed t, by simp [hw]⟩
      | true => exact .inr ⟨task, rfl, rfl, hw, by simp [hw]⟩

/-- nothing is pending, or a free member is claimed -/
theorem assignNext_cases (s : Scheduler) (u : UnitId) (tasks : Arena) :
    s.assignNext u tasks = (none, tasks) ∨
      ∃ t task, t ∈ s.ordered tasks ∧ tasks.get? t = some task ∧ task.unit? = none ∧
        s.assignNext u tasks = (some t, tasks.modify t (·.claim u)) := by
  unfold assignNext
  cases hf : (s.ordered tasks).find? (isFree tasks) with
  | none => exact .inl rfl
  | some t =>
    have hfree := List.find?_some hf
    obtain ⟨task, ht, hu⟩ := (Option.any_eq_true _ _).1 hfree
    exact .inr ⟨t, task, List.mem_of_find?_eq_some hf, ht, Option.isNone_iff_eq_none.1 hu, rfl⟩

/-- a task is not a member, or its entry is dropped -/
theorem remove_cases (s : Scheduler) (t : TaskId) (tasks : Arena) :
    s.remove t tasks = (.error (.notMember s.id t), s, tasks) ∨
      ∃ slot, s.slot? t = some slot ∧
        s.remove t tasks = (.ok (), { s with entries := s.entries.eraseIdx slot }, tasks.modify t (·.quit s.id)) := by
  unfold remove
  cases hi : s.slot? t with
  | none => exact .inl rfl
  | some slot => exact .inr ⟨slot, rfl, rfl⟩

variable {σ : Type} [Host σ]

/-- a newcomer is refused, and nothing changes, or it takes over the entry of a member, which is freed -/
theorem replace_cases (s : Scheduler) (t u : TaskId) (tasks : Arena) (host : σ) :
    (∃ e, s.replace t u tasks host = (.error e, s, tasks, host)) ∨
      ∃ slot member newcomer, s.slot? t = some slot ∧ tasks.get? t = some member ∧
        tasks.get? u = some newcomer ∧ s.contains u = false ∧ newcomer.unit? = none ∧
        newcomer.isWellFormed = true ∧
        s.replace t u tasks host =
          (.ok member.unit?, { s with entries := s.entries.modify slot ({ · with task := u }) },
            (tasks.modify t fun _ => member.release.2.quit s.id).modify u fun n => n.release.2.join s.id,
            (member.interrupt host).2.2) := by
  unfold replace
  cases hi : s.slot? t with
  | none => exact .inl ⟨_, rfl⟩
  | some slot =>
    cases hu : tasks.get? u with
    | none => exact .inl ⟨_, rfl⟩
    | some newcomer =>
      cases hc : s.contains u with
      | true => exact .inl ⟨_, rfl⟩
      | false =>
        cases hf : newcomer.unit? with
        | some held => exact .inl ⟨_, by simp only [hf]; rfl⟩
        | none =>
          cases hw : newcomer.isWellFormed with
          | false => exact .inl ⟨_, by simp only [hf, hw]; rfl⟩
          | true =>
            cases ht : tasks.get? t with
            | none => exact .inl ⟨_, by simp only [hf, hw]; rfl⟩
            | some member =>
              exact .inr ⟨slot, member, newcomer, rfl, rfl, rfl, rfl, hf, hw, by simp only [hf, hw]; rfl⟩

/-- a task is no member or unknown, and nothing changes, or it is freed -/
theorem stop_cases (s : Scheduler) (t : TaskId) (tasks : Arena) (host : σ) :
    (∃ e, s.stop t tasks host = (.error e, tasks, host)) ∨
      ∃ task, s.contains t = true ∧ tasks.get? t = some task ∧
        s.stop t tasks host =
          (.ok task.unit?, tasks.modify t fun _ => task.release.2, (task.interrupt host).2.2) := by
  unfold stop
  cases hc : s.contains t with
  | false => exact .inl ⟨_, rfl⟩
  | true =>
    cases ht : tasks.get? t with
    | none => exact .inl ⟨_, rfl⟩
    | some task => exact .inr ⟨task, rfl, rfl, rfl⟩

end Scheduler

namespace Application

variable {σ ρ : Type} [Host σ] [Picker ρ]

/-! ## What the operations of an application come to -/

section Cases

variable (app : Application ρ) (s : SchedulerId) (t : TaskId)

omit [Host σ] [Picker ρ]

/-- putting a scheduler in its own place changes nothing -/
theorem withScheduler_self {app : Application ρ} {s : SchedulerId} {sched : Scheduler}
    (h : app.scheduler? s = some sched) : app.withScheduler s sched = app := by
  obtain ⟨hi, rfl⟩ := Array.getElem?_eq_some_iff.1 h
  simp [withScheduler, Array.setIfInBounds, hi]

/-- of two schedulers put in one place, the later counts -/
theorem withScheduler_withScheduler (app : Application ρ) (s : SchedulerId) (one two : Scheduler)
    (tasks tasks' : Arena) :
    { withScheduler { app.withScheduler s one with tasks } s two with tasks := tasks' } =
      { app.withScheduler s two with tasks := tasks' } := by
  simp only [withScheduler, mk.injEq, true_and, and_true]
  apply Array.ext_getElem?
  intro i
  simp only [Array.getElem?_setIfInBounds, Array.size_setIfInBounds]
  split <;> rfl

/-- a faction is refused, and nothing changes, or it gets the next scheduler -/
theorem addScheduler_cases (f : FactionId) :
    (∃ e, app.addScheduler f = (.error e, app)) ∨
      app.schedulerFor? f = none ∧
        app.addScheduler f =
          (.ok ⟨app.schedulers.size⟩,
            { app with schedulers := app.schedulers.push { id := ⟨app.schedulers.size⟩, faction := f } }) := by
  unfold addScheduler
  cases hf : app.schedulerFor? f with
  | some s => exact .inl ⟨_, rfl⟩
  | none => exact .inr ⟨rfl, rfl⟩

/-- a task is refused, and nothing changes, or it is registered -/
theorem schedule_cases :
    (∃ e, app.schedule s t = (.error e, app)) ∨
      ∃ sched task, app.scheduler? s = some sched ∧ app.tasks.get? t = some task ∧ sched.contains t = false ∧
        task.isWellFormed = true ∧
        app.schedule s t =
          (.ok (),
            { app.withScheduler s
                { sched with entries := sched.entries ++ [⟨t, sched.nextSeq⟩], nextSeq := sched.nextSeq + 1 } with
              tasks := app.tasks.modify t (·.join sched.id) }) := by
  unfold schedule
  cases hs : app.scheduler? s with
  | none => exact .inl ⟨_, rfl⟩
  | some sched =>
    obtain ⟨e, he⟩ | ⟨task, ht, hc, hw, he⟩ := sched.schedule_cases t app.tasks
    · exact .inl ⟨e, by simp only [he, withScheduler_self hs]⟩
    · exact .inr ⟨sched, task, rfl, ht, hc, hw, by simp only [he]⟩

/-- the unit is busy or the scheduler unknown, nothing is pending, or a free member is claimed -/
theorem assignNext_cases (u : UnitId) :
    (∃ e, app.assignNext s u = (.error e, app)) ∨ app.assignNext s u = (.ok none, app) ∨
      ∃ sched t task, app.claims[u]? = none ∧ app.scheduler? s = some sched ∧ t ∈ sched.ordered app.tasks ∧
        app.tasks.get? t = some task ∧ task.unit? = none ∧
        app.assignNext s u =
          (.ok (some t), { app with tasks := app.tasks.modify t (·.claim u), claims := app.claims.insert u t }) := by
  unfold assignNext
  cases hu : app.claims[u]? with
  | some held => exact .inl ⟨_, rfl⟩
  | none =>
    cases hs : app.scheduler? s with
    | none => exact .inl ⟨_, rfl⟩
    | some sched =>
      obtain he | ⟨t, task, hm, ht, hf, he⟩ := sched.assignNext_cases u app.tasks
      · exact .inr (.inl (by simp only [he]))
      · exact .inr (.inr ⟨sched, t, task, rfl, rfl, hm, ht, hf, by simp only [he]⟩)

/-- a task is no member, and nothing changes, or its entry is dropped -/
theorem unschedule_cases :
    (∃ e, app.unschedule s t = (.error e, app)) ∨
      ∃ sched slot, app.scheduler? s = some sched ∧ sched.slot? t = some slot ∧
        app.unschedule s t =
          (.ok (),
            { app.withScheduler s { sched with entries := sched.entries.eraseIdx slot } with
              tasks := app.tasks.modify t (·.quit sched.id) }) := by
  unfold unschedule
  cases hs : app.scheduler? s with
  | none => exact .inl ⟨_, rfl⟩
  | some sched =>
    obtain he | ⟨slot, hi, he⟩ := sched.remove_cases t app.tasks
    · exact .inl ⟨_, by simp only [he, withScheduler_self hs]; rfl⟩
    · exact .inr ⟨sched, slot, rfl, hi, by simp only [he]⟩

/-- a task is unknown, and nothing changes, or it has the priority -/
theorem setPriority_cases (priority : Int64) :
    (∃ e, app.setPriority t priority = (.error e, app)) ∨
      ∃ task, app.tasks.get? t = some task ∧
        app.setPriority t priority = (.ok (), { app with tasks := app.tasks.modify t ({ · with priority }) }) := by
  unfold setPriority
  cases ht : app.tasks.get? t with
  | none => exact .inl ⟨_, rfl⟩
  | some task => exact .inr ⟨task, rfl, rfl⟩

variable [Host σ]

/-- a newcomer is refused, and nothing changes, or it takes over the entry of a member, which is freed -/
theorem replace_cases (u : TaskId) (host : σ) :
    (∃ e, app.replace s t u host = (.error e, app, host)) ∨
      ∃ sched slot member newcomer, app.scheduler? s = some sched ∧ sched.slot? t = some slot ∧
        app.tasks.get? t = some member ∧ app.tasks.get? u = some newcomer ∧ sched.contains u = false ∧
        newcomer.unit? = none ∧ newcomer.isWellFormed = true ∧
        app.replace s t u host =
          (.ok member.unit?,
            { app.withScheduler s { sched with entries := sched.entries.modify slot ({ · with task := u }) } with
              tasks := (app.tasks.modify t fun _ => member.release.2.quit sched.id).modify u
                fun n => n.release.2.join sched.id }.freeing member.unit?,
            (member.interrupt host).2.2) := by
  unfold replace
  cases hs : app.scheduler? s with
  | none => exact .inl ⟨_, rfl⟩
  | some sched =>
    obtain ⟨e, he⟩ | ⟨slot, member, newcomer, hi, ht, hu, hc, hf, hw, he⟩ := sched.replace_cases t u app.tasks host
    · exact .inl ⟨e, by simp only [he, withScheduler_self hs]⟩
    · exact .inr ⟨sched, slot, member, newcomer, rfl, hi, ht, hu, hc, hf, hw, by simp only [he]⟩

/-- a task is unknown, and nothing changes, or it is freed -/
theorem interrupt_cases (host : σ) :
    (∃ e, app.interrupt t host = (.error e, app, host)) ∨
      ∃ task, app.tasks.get? t = some task ∧
        app.interrupt t host =
          (.ok task.unit?, { app with tasks := app.tasks.modify t fun _ => task.release.2 }.freeing task.unit?,
            (task.interrupt host).2.2) := by
  unfold interrupt
  cases ht : app.tasks.get? t with
  | none => exact .inl ⟨_, rfl⟩
  | some task => exact .inr ⟨task, rfl, rfl⟩

/-- a task is no member, and nothing changes, or it is freed -/
theorem stop_cases (host : σ) :
    (∃ e, app.stop s t host = (.error e, app, host)) ∨
      ∃ task, app.tasks.get? t = some task ∧
        app.stop s t host =
          (.ok task.unit?, { app with tasks := app.tasks.modify t fun _ => task.release.2 }.freeing task.unit?,
            (task.interrupt host).2.2) := by
  unfold stop
  cases hs : app.scheduler? s with
  | none => exact .inl ⟨_, rfl⟩
  | some sched =>
    obtain ⟨e, he⟩ | ⟨task, hc, ht, he⟩ := sched.stop_cases t app.tasks host
    · exact .inl ⟨e, by simp only [he]⟩
    · exact .inr ⟨task, ht, by simp only [he]⟩

end Cases

/-! ## Moves -/

/-- one elementary change, other than that a task enters a pool -/
inductive Moves (σ : Type) [Host σ] (app : Application ρ) : Application ρ → Prop
  | addTask (t : Task) : Moves σ app (app.addTask t).2
  | addScheduler {f : FactionId} (hf : app.schedulerFor? f = none) :
      Moves σ app { app with schedulers := app.schedulers.push { id := ⟨app.schedulers.size⟩, faction := f } }
  /-- `u` takes the place of `t`, which is freed -/
  | replace {s : SchedulerId} {sched : Scheduler} {t u : TaskId} {slot : Nat} {member newcomer : Task}
      (hs : app.scheduler? s = some sched) (hi : sched.slot? t = some slot) (ht : app.tasks.get? t = some member)
      (hu : app.tasks.get? u = some newcomer) (hc : sched.contains u = false) (hf : newcomer.unit? = none)
      (hw : newcomer.isWellFormed = true) :
      Moves σ app
        ({ app.withScheduler s { sched with entries := sched.entries.modify slot ({ · with task := u }) } with
            tasks := (app.tasks.modify t fun _ => member.release.2.quit sched.id).modify u
              fun n => n.release.2.join sched.id }.freeing member.unit?)
  | claim {s : SchedulerId} {sched : Scheduler} {u : UnitId} {t : TaskId} {task : Task}
      (hs : app.scheduler? s = some sched) (hm : t ∈ sched.ordered app.tasks) (hu : app.claims[u]? = none)
      (ht : app.tasks.get? t = some task) (hf : task.unit? = none) :
      Moves σ app { app with tasks := app.tasks.modify t (·.claim u), claims := app.claims.insert u t }
  | free {t : TaskId} {task : Task} (ht : app.tasks.get? t = some task) :
      Moves σ app ({ app with tasks := app.tasks.modify t fun _ => task.release.2 }.freeing task.unit?)
  | unschedule {s : SchedulerId} {sched : Scheduler} {t : TaskId} {slot : Nat} (hs : app.scheduler? s = some sched)
      (hi : sched.slot? t = some slot) :
      Moves σ app
        { app.withScheduler s { sched with entries := sched.entries.eraseIdx slot } with
          tasks := app.tasks.modify t (·.quit sched.id) }
  | setPriority {t : TaskId} {task : Task} (ht : app.tasks.get? t = some task) (priority : Int64) :
      Moves σ app { app with tasks := app.tasks.modify t ({ · with priority }) }
  /-- the unit of a claim that stands makes one step -/
  | advance {u : UnitId} {t : TaskId} {task : Task} (hc : app.claims[u]? = some t)
      (ht : app.tasks.get? t = some task) (o : Outside σ ρ) (picker : ρ) :
      Moves σ app { app with tasks := app.tasks.modify t fun _ => task.advanced u o, picker }
  | finish {u : UnitId} {t : TaskId} {task : Task} (hc : app.claims[u]? = some t)
      (ht : app.tasks.get? t = some task) (hd : task.state = .done) : Moves σ app (app.finish t u)
  | fail {u : UnitId} {t : TaskId} {task : Task} (hc : app.claims[u]? = some t)
      (ht : app.tasks.get? t = some task) (hd : task.state = .failed) : Moves σ app (app.fail t u)
  /-- a claim on a task that is not there is dropped -/
  | forget {u : UnitId} {t : TaskId} (hc : app.claims[u]? = some t) (ht : app.tasks.get? t = none) :
      Moves σ app { app with claims := app.claims.erase u }

/-- a task enters a pool and takes the next number there -/
inductive Registers (app : Application ρ) : Application ρ → Prop
  | entry {s : SchedulerId} {sched : Scheduler} {t : TaskId} {task : Task} (hs : app.scheduler? s = some sched)
      (ht : app.tasks.get? t = some task) (hc : sched.contains t = false) (hw : task.isWellFormed = true) :
      Registers app
        { app.withScheduler s
            { sched with entries := sched.entries ++ [⟨t, sched.nextSeq⟩], nextSeq := sched.nextSeq + 1 } with
          tasks := app.tasks.modify t (·.join sched.id) }

abbrev Chain (σ : Type) [Host σ] : Application ρ → Application ρ → Prop := Relation.ReflTransGen (Moves σ)

/-! ## Operations -/

/-- the operations, each with its arguments and, where it needs one, its host -/
inductive Op (σ : Type) where
  | addTask (t : Task)
  | instantiate (t : Template) (selections : List Cube)
  | addScheduler (f : FactionId)
  | schedule (s : SchedulerId) (t : TaskId)
  | replace (s : SchedulerId) (t u : TaskId) (host : σ)
  | assignNext (s : SchedulerId) (u : UnitId)
  | interrupt (t : TaskId) (host : σ)
  | stop (s : SchedulerId) (t : TaskId) (host : σ)
  | unschedule (s : SchedulerId) (t : TaskId)
  | setPriority (t : TaskId) (priority : Int64)
  | tick (host : σ) (output : List Printed)

/-- the operation asks for a registration -/
def Op.isSchedule {σ : Type} : Op σ → Bool
  | .schedule _ _ => true
  | _ => false

/-- the application that an operation leaves, accepted or refused -/
def perform (app : Application ρ) : Op σ → Application ρ
  | .addTask t => (app.addTask t).2
  | .instantiate t selections => (app.instantiate t selections).2
  | .addScheduler f => (app.addScheduler f).2
  | .schedule s t => (app.schedule s t).2
  | .replace s t u host => (app.replace s t u host).2.1
  | .assignNext s u => (app.assignNext s u).2
  | .interrupt t host => (app.interrupt t host).2.1
  | .stop s t host => (app.stop s t host).2.1
  | .unschedule s t => (app.unschedule s t).2
  | .setPriority t priority => (app.setPriority t priority).2
  | .tick host output => (app.tick host output).app

def run (app : Application ρ) (ops : List (Op σ)) : Application ρ := ops.foldl perform app

/-- an application without tasks, schedulers and claims -/
def initial (settings : Settings) (picker : ρ) : Application ρ := { settings, picker }

variable {app : Application ρ}

/-! ## Operations are chains of moves -/

theorem Chain.single {app' : Application ρ} (h : Moves σ app app') : Chain σ app app' := Relation.ReflTransGen.single h

theorem chain_addTasks (app : Application ρ) (ts : List Task) : Chain σ app (app.addTasks ts).2 := by
  induction ts generalizing app with
  | nil => exact .refl
  | cons t rest ih => exact (Chain.single (.addTask t)).trans (ih _)

theorem chain_addScheduler (app : Application ρ) (f : FactionId) : Chain σ app (app.addScheduler f).2 := by
  obtain ⟨e, he⟩ | ⟨hf, he⟩ := app.addScheduler_cases f
  · rw [he]
  · rw [he]
    exact .single (.addScheduler hf)

omit [Picker ρ] in
/-- the call is refused, and nothing changes, or the task is registered -/
theorem schedule_registers (app : Application ρ) (s : SchedulerId) (t : TaskId) :
    (app.schedule s t).2 = app ∨ Registers app (app.schedule s t).2 := by
  obtain ⟨e, he⟩ | ⟨sched, task, hs, ht, hc, hw, he⟩ := app.schedule_cases s t
  · exact .inl (by rw [he])
  · rw [he]
    exact .inr (.entry hs ht hc hw)

theorem chain_replace (app : Application ρ) (s : SchedulerId) (t u : TaskId) (host : σ) :
    Chain σ app (app.replace s t u host).2.1 := by
  obtain ⟨e, he⟩ | ⟨sched, slot, member, newcomer, hs, hi, ht, hu, hc, hf, hw, he⟩ := app.replace_cases s t u host
  · rw [he]
  · rw [he]
    exact .single (.replace hs hi ht hu hc hf hw)

theorem chain_assignNext (app : Application ρ) (s : SchedulerId) (u : UnitId) :
    Chain σ app (app.assignNext s u).2 := by
  obtain ⟨e, he⟩ | he | ⟨sched, t, task, hu, hs, hm, ht, hf, he⟩ := app.assignNext_cases s u
  · rw [he]
  · rw [he]
  · rw [he]
    exact .single (.claim hs hm hu ht hf)

theorem chain_interrupt (app : Application ρ) (t : TaskId) (host : σ) : Chain σ app (app.interrupt t host).2.1 := by
  obtain ⟨e, he⟩ | ⟨task, ht, he⟩ := app.interrupt_cases t host
  · rw [he]
  · rw [he]
    exact .single (.free ht)

theorem chain_stop (app : Application ρ) (s : SchedulerId) (t : TaskId) (host : σ) :
    Chain σ app (app.stop s t host).2.1 := by
  obtain ⟨e, he⟩ | ⟨task, ht, he⟩ := app.stop_cases s t host
  · rw [he]
  · rw [he]
    exact .single (.free ht)

theorem chain_unschedule (app : Application ρ) (s : SchedulerId) (t : TaskId) :
    Chain σ app (app.unschedule s t).2 := by
  obtain ⟨e, he⟩ | ⟨sched, slot, hs, hi, he⟩ := app.unschedule_cases s t
  · rw [he]
  · rw [he]
    exact .single (.unschedule hs hi)

theorem chain_setPriority (app : Application ρ) (t : TaskId) (priority : Int64) :
    Chain σ app (app.setPriority t priority).2 := by
  obtain ⟨e, he⟩ | ⟨task, ht, he⟩ := app.setPriority_cases t priority
  · rw [he]
  · rw [he]
    exact .single (.setPriority ht priority)

omit [Picker ρ] in
/-- a finished task frees its unit, then leaves one pool after the other -/
theorem finish_keeps {P : Application ρ → Prop} {app : Application ρ} {t : TaskId} {u : UnitId}
    (h0 : P { app with claims := app.claims.erase u, tasks := app.tasks.modify t Task.finish })
    (hP : ∀ app s, P app → P (app.leavePool t s)) : P (app.finish t u) := by
  have hfold : ∀ (ss : List SchedulerId) (app : Application ρ), P app → P (ss.foldl (leavePool · t) app) := by
    intro ss
    induction ss with
    | nil => exact fun _ h => h
    | cons s ss ih => exact fun app h => ih _ (hP app s h)
  unfold finish
  simp only []
  split
  · exact h0
  · exact hfold _ _ h0

omit [Picker ρ] in
theorem claims_finish (app : Application ρ) (t : TaskId) (u : UnitId) :
    (app.finish t u).claims = app.claims.erase u := by
  apply finish_keeps (P := fun app' => app'.claims = app.claims.erase u)
  · rfl
  · intro app' s h
    obtain ⟨e, he⟩ | ⟨sched, slot, -, -, he⟩ := app'.unschedule_cases s t
    · rwa [leavePool, he]
    · rw [leavePool, he]
      exact h

end Application

namespace Running

open Application

variable {σ ρ : Type} [Host σ] [Picker ρ]

/-! ## A tick is a chain of moves -/

theorem chain_freeDead (r : Running σ ρ) (t : TaskId) : Chain σ r.app (r.freeDead t).app := by
  have h := chain_interrupt r.app t r.host
  unfold freeDead
  split
  · rename_i app host he
    rw [he] at h
    exact h
  · rename_i app host he
    rw [he] at h
    exact h

theorem chain_foldl {α : Type} {f : Running σ ρ → α → Running σ ρ} (hf : ∀ r a, Chain σ r.app (f r a).app)
    (r : Running σ ρ) (as : List α) : Chain σ r.app (as.foldl f r).app := by
  induction as generalizing r with
  | nil => exact .refl
  | cons a as ih => exact (hf r a).trans (ih _)

theorem chain_releaseDead (r : Running σ ρ) : Chain σ r.app r.releaseDead.app := by
  apply chain_foldl
  exact fun r c => r.chain_freeDead c.2

theorem chain_offer (world : World) (s : SchedulerId) (r : Running σ ρ) (us : List UnitId) :
    Chain σ r.app (r.offer world s us).app := by
  induction us generalizing r with
  | nil => exact .refl
  | cons u rest ih =>
    have h : Chain σ r.app (r.app.assignNext s u).2 := chain_assignNext r.app s u
    unfold offer
    split
    · exact ih r
    · split
      next t app he =>
        rw [he] at h
        exact h.trans (ih { r with app, report := { r.report with assigned := r.report.assigned ++ [(u, t)] } })
      next x app _ he =>
        rw [he] at h
        exact h

theorem chain_assignIdle (r : Running σ ρ) : Chain σ r.app r.assignIdle.app := by
  apply chain_foldl
  exact fun r o => chain_offer _ o.1 r o.2

theorem get?_modify_self {tasks : Arena} {t : TaskId} {task : Task} (h : tasks.get? t = some task)
    (f : Task → Task) : (tasks.modify t f).get? t = some (f task) := by
  rw [Arena.get?_modify, if_pos rfl, h]
  rfl

theorem chain_stepClaim (r : Running σ ρ) {u : UnitId} {t : TaskId} (hc : r.app.claims[u]? = some t) :
    Chain σ r.app (r.stepClaim u t).app := by
  unfold stepClaim
  cases ht : r.app.tasks.get? t with
  | none => exact .single (.forget hc ht)
  | some task =>
    let o : Outside σ ρ := { host := r.host, picker := r.app.picker, output := r.output }
    have hstate := task.state_advanced u o
    have hmove : Chain σ r.app _ := .single (.advance hc ht o (task.stepFor u o).live.picker)
    have ht' := get?_modify_self ht fun _ => task.advanced u o
    simp only [task.advance_eq]
    split
    · rename_i hr
      rw [hr] at hstate
      exact hmove.tail (.finish hc ht' hstate)
    · rename_i hr
      rw [hr] at hstate
      exact hmove.tail (.fail hc ht' hstate)
    · exact hmove
    · rename_i e hr
      rw [hr] at hstate
      exact hmove.tail (.fail hc ht' hstate)

/-- only the claim that is stepped can end -/
theorem claims_stepClaim (r : Running σ ρ) {u v : UnitId} (t : TaskId) (h : u ≠ v) :
    (r.stepClaim u t).app.claims[v]? = r.app.claims[v]? := by
  have herase : (r.app.claims.erase u)[v]? = r.app.claims[v]? := by
    rw [Std.ExtTreeMap.getElem?_erase, if_neg (by simpa using h)]
  unfold stepClaim
  cases ht : r.app.tasks.get? t with
  | none => exact herase
  | some task =>
    simp only [task.advance_eq]
    split
    · simp only [claims_finish]
      exact herase
    · exact herase
    · rfl
    · exact herase

def stepEach (r : Running σ ρ) (claims : List (UnitId × TaskId)) : Running σ ρ :=
  claims.foldl (fun r c => r.stepClaim c.1 c.2) r

theorem claims_stepEach (r : Running σ ρ) {cs : List (UnitId × TaskId)} {v : UnitId} (h : ∀ c ∈ cs, c.1 ≠ v) :
    (r.stepEach cs).app.claims[v]? = r.app.claims[v]? := by
  induction cs generalizing r with
  | nil => rfl
  | cons c cs ih =>
    calc ((r.stepClaim c.1 c.2).stepEach cs).app.claims[v]?
        = (r.stepClaim c.1 c.2).app.claims[v]? := ih _ fun d hd => h d (List.mem_cons_of_mem c hd)
      _ = r.app.claims[v]? := r.claims_stepClaim c.2 (h c List.mem_cons_self)

/-- **Only claims that stand are stepped**: a claim of the table still stands when its turn comes -/
theorem stands_at_turn (r : Running σ ρ) {pre post : List (UnitId × TaskId)} {u : UnitId} {t : TaskId}
    (h : r.app.claims.toList = pre ++ (u, t) :: post) : (r.stepEach pre).app.claims[u]? = some t := by
  have hkeys := r.app.claims.distinct_keys_toList
  have hmem : (u, t) ∈ r.app.claims.toList := by simp [h]
  rw [h, List.pairwise_append] at hkeys
  have hpre : ∀ c ∈ pre, c.1 ≠ u := by
    intro c hc he
    exact hkeys.2.2 c hc (u, t) List.mem_cons_self (by simp [he])
  rw [r.claims_stepEach hpre]
  exact Std.ExtTreeMap.mem_toList_iff_getElem?_eq_some.1 hmem

/-- **What the step of a claim that stands keeps, stepping all claims keeps**; the induction is on the claims that have
had their turn -/
theorem stepEach_keeps {P : Running σ ρ → Prop}
    (hP : ∀ (r : Running σ ρ) u t, r.app.claims[u]? = some t → P r → P (r.stepClaim u t)) {r : Running σ ρ}
    {pre post : List (UnitId × TaskId)} (h : r.app.claims.toList = pre ++ post) (h0 : P r) : P (r.stepEach pre) := by
  induction pre using List.reverseRecOn generalizing post with
  | nil => exact h0
  | append_singleton pre c ih =>
    rw [List.append_assoc] at h
    have hstep : r.stepEach (pre ++ [c]) = (r.stepEach pre).stepClaim c.1 c.2 := by simp [stepEach]
    rw [hstep]
    exact hP _ c.1 c.2 (r.stands_at_turn h) (ih h)

theorem chain_stepEach (r : Running σ ρ) {pre post : List (UnitId × TaskId)} (h : r.app.claims.toList = pre ++ post) :
    Chain σ r.app (r.stepEach pre).app :=
  stepEach_keeps (P := fun r' => Chain σ r.app r'.app) (fun r' _ _ hc hchain => hchain.trans (chain_stepClaim r' hc)) h
    .refl

theorem chain_stepClaims (r : Running σ ρ) : Chain σ r.app r.stepClaims.app :=
  r.chain_stepEach (List.append_nil _).symm

end Running

namespace Application

variable {σ ρ : Type} [Host σ] [Picker ρ]

theorem chain_tick (app : Application ρ) (host : σ) (output : List Printed) :
    Chain σ app (app.tick host output).app :=
  let r : Running σ ρ := { app, host, output }
  (r.chain_releaseDead.trans r.releaseDead.chain_assignIdle).trans r.releaseDead.assignIdle.chain_stepClaims

/-- a chain of moves, or a registration, which takes a call of `schedule` -/
theorem perform_cases (app : Application ρ) (op : Op σ) :
    Chain σ app (app.perform op) ∨ op.isSchedule = true ∧ Registers app (app.perform op) := by
  cases op with
  | addTask t => exact .inl (.single (.addTask t))
  | instantiate t selections => exact .inl (chain_addTasks app _)
  | addScheduler f => exact .inl (chain_addScheduler app f)
  | schedule s t =>
    obtain he | hr := app.schedule_registers s t
    · exact .inl (by rw [perform, he])
    · exact .inr ⟨rfl, hr⟩
  | replace s t u host => exact .inl (chain_replace app s t u host)
  | assignNext s u => exact .inl (chain_assignNext app s u)
  | interrupt t host => exact .inl (chain_interrupt app t host)
  | stop s t host => exact .inl (chain_stop app s t host)
  | unschedule s t => exact .inl (chain_unschedule app s t)
  | setPriority t priority => exact .inl (chain_setPriority app t priority)
  | tick host output => exact .inl (chain_tick app host output)

/-! ## Induction over runs -/

theorem Chain.keeps {P : Application ρ → Prop} (hP : ∀ app app', Moves σ app app' → P app → P app')
    {app app' : Application ρ} (h : Chain σ app app') (h0 : P app) : P app' := by
  induction h with
  | refl => exact h0
  | tail _ hm ih => exact hP _ _ hm ih

/-- **What every move and every registration keeps, a run keeps** -/
theorem run_keeps {P : Application ρ → Prop} (hm : ∀ app app', Moves σ app app' → P app → P app')
    (hr : ∀ app app', Registers app app' → P app → P app') {app : Application ρ} (h0 : P app) (ops : List (Op σ)) :
    P (app.run ops) := by
  induction ops generalizing app with
  | nil => exact h0
  | cons op ops ih =>
    obtain hc | ⟨-, hreg⟩ := app.perform_cases op
    · exact ih (hc.keeps hm h0)
    · exact ih (hr _ _ hreg h0)

end Application

end Errand
