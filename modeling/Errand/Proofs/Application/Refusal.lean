/-
Refusals: which operations are refused, and that a refusal leaves no trace.

`Permits` says of each operation what it needs: pools and tasks that exist, a member or none, a newcomer that is free
and passes the checks, an idle unit, a faction without a pool. What an operation needs is all it needs
(`refusal?_eq_none`), and one that is refused, for whatever reason, changes nothing: tasks, pools, table of claims and
host are those before the call (`refusal_traceless`). `run_refusals` says both of every application that can be reached.
-/
import Errand.Proofs.Application.Claims
import Errand.Proofs.Application.Membership
import Errand.Proofs.Host.Logged
import Errand.Rehearsal

namespace Errand

def errorOf? {α : Type} : Except SchedulerError α → Option SchedulerError
  | .error e => some e
  | .ok _ => none

namespace Application

variable {σ ρ : Type}

/-! ## Answers and hosts -/

/-- the host that an operation works on, if it needs one -/
def Op.host? : Op σ → Option σ
  | .replace _ _ _ host | .interrupt _ host | .stop _ _ host | .tick host _ => some host
  | .addTask _ | .instantiate _ _ | .addScheduler _ | .schedule _ _ | .assignNext _ _ | .unschedule _ _
  | .setPriority _ _ => none

variable [Host σ] [Picker ρ]

/-- the error with which an operation is refused, if it is; new tasks and ticks never are -/
def refusal? (app : Application ρ) : Op σ → Option SchedulerError
  | .addTask _ | .instantiate _ _ | .tick _ _ => none
  | .addScheduler f => errorOf? (app.addScheduler f).1
  | .schedule s t => errorOf? (app.schedule s t).1
  | .replace s t u host => errorOf? (app.replace s t u host).1
  | .assignNext s u => errorOf? (app.assignNext s u).1
  | .interrupt t host => errorOf? (app.interrupt t host).1
  | .stop s t host => errorOf? (app.stop s t host).1
  | .unschedule s t => errorOf? (app.unschedule s t).1
  | .setPriority t priority => errorOf? (app.setPriority t priority).1

/-- the host as an operation leaves it, if it needs one -/
def hostAfter? (app : Application ρ) : Op σ → Option σ
  | .replace s t u host => some (app.replace s t u host).2.2
  | .interrupt t host => some (app.interrupt t host).2.2
  | .stop s t host => some (app.stop s t host).2.2
  | .tick host output => some (app.tick host output).host
  | .addTask _ | .instantiate _ _ | .addScheduler _ | .schedule _ _ | .assignNext _ _ | .unschedule _ _
  | .setPriority _ _ => none

/-! ## A refusal leaves no trace -/

/-- **A refused operation changes nothing**, neither the application nor the host -/
theorem refusal_traceless {app : Application ρ} {op : Op σ} {e : SchedulerError} (h : app.refusal? op = some e) :
    app.perform op = app ∧ app.hostAfter? op = op.host? := by
  cases op with
  | addTask | instantiate | tick => cases h
  | addScheduler f =>
    obtain ⟨_, he⟩ | ⟨-, he⟩ := app.addScheduler_cases f
    · exact ⟨by rw [perform, he], rfl⟩
    · simp [refusal?, he, errorOf?] at h
  | schedule s t =>
    obtain ⟨_, he⟩ | ⟨_, _, -, -, -, -, he⟩ := app.schedule_cases s t
    · exact ⟨by rw [perform, he], rfl⟩
    · simp [refusal?, he, errorOf?] at h
  | replace s t u host =>
    obtain ⟨_, he⟩ | ⟨_, _, _, _, -, -, -, -, -, -, -, he⟩ := app.replace_cases s t u host
    · exact ⟨by rw [perform, he], by rw [hostAfter?, he]; rfl⟩
    · simp [refusal?, he, errorOf?] at h
  | assignNext s u =>
    obtain ⟨_, he⟩ | he | ⟨_, _, _, -, -, -, -, -, he⟩ := app.assignNext_cases s u
    · exact ⟨by rw [perform, he], rfl⟩
    · simp [refusal?, he, errorOf?] at h
    · simp [refusal?, he, errorOf?] at h
  | interrupt t host =>
    obtain ⟨_, he⟩ | ⟨_, -, he⟩ := app.interrupt_cases t host
    · exact ⟨by rw [perform, he], by rw [hostAfter?, he]; rfl⟩
    · simp [refusal?, he, errorOf?] at h
  | stop s t host =>
    obtain ⟨_, he⟩ | ⟨_, -, he⟩ := app.stop_cases s t host
    · exact ⟨by rw [perform, he], by rw [hostAfter?, he]; rfl⟩
    · simp [refusal?, he, errorOf?] at h
  | unschedule s t =>
    obtain ⟨_, he⟩ | ⟨_, _, -, -, he⟩ := app.unschedule_cases s t
    · exact ⟨by rw [perform, he], rfl⟩
    · simp [refusal?, he, errorOf?] at h
  | setPriority t priority =>
    obtain ⟨_, he⟩ | ⟨_, -, he⟩ := app.setPriority_cases t priority
    · exact ⟨by rw [perform, he], rfl⟩
    · simp [refusal?, he, errorOf?] at h

/-! ## What an operation needs -/

/-- the task exists and passes the checks -/
def Schedulable (app : Application ρ) (t : TaskId) : Prop :=
  ∃ task, app.tasks.get? t = some task ∧ task.isWellFormed = true

/-- what has to hold for an operation to be accepted -/
def Permits (app : Application ρ) : Op σ → Prop
  | .addTask _ | .instantiate _ _ | .tick _ _ => True
  | .addScheduler f => ∀ sched ∈ app.schedulers, sched.faction ≠ f
  | .schedule s t => (∃ sched, app.scheduler? s = some sched) ∧ ¬ app.Holds s t ∧ app.Schedulable t
  | .replace s t u _ => app.Holds s t ∧ ¬ app.Holds s u ∧ app.Schedulable u ∧ app.tasks.holder? u = none
  | .assignNext s u => (∃ sched, app.scheduler? s = some sched) ∧ app.claims[u]? = none
  | .interrupt t _ | .setPriority t _ => ∃ task, app.tasks.get? t = some task
  | .stop s t _ | .unschedule s t => app.Holds s t

section Permits

variable {app : Application ρ} {s : SchedulerId} {t u : TaskId}

omit [Host σ] [Picker ρ]

theorem not_holds_of_unknown (hs : app.scheduler? s = none) : ¬ app.Holds s t := by
  simp [Holds, hs]

theorem slot?_eq_none_iff {sched : Scheduler} : sched.slot? t = none ↔ sched.contains t = false := by
  simp [Scheduler.slot?, Scheduler.contains]

theorem errorOf_addScheduler (f : FactionId) :
    errorOf? (app.addScheduler f).1 = none ↔ ∀ sched ∈ app.schedulers, sched.faction ≠ f := by
  unfold addScheduler schedulerFor?
  cases hf : app.schedulers.find? (·.faction = f) with
  | none => simpa [errorOf?] using hf
  | some sched =>
    have hmem := Array.mem_of_find?_eq_some hf
    have hfaction := Array.find?_some hf
    simp only [Option.map_some, errorOf?, reduceCtorEq, false_iff]
    exact fun h => h sched hmem (by simpa using hfaction)

theorem errorOf_schedule :
    errorOf? (app.schedule s t).1 = none ↔
      (∃ sched, app.scheduler? s = some sched) ∧ ¬ app.Holds s t ∧ app.Schedulable t := by
  unfold schedule
  cases hs : app.scheduler? s with
  | none => simp [errorOf?]
  | some sched =>
    rw [holds_of_scheduler? hs]
    simp only [Scheduler.schedule, Schedulable]
    cases ht : app.tasks.get? t with
    | none => simp [errorOf?]
    | some task => cases hc : sched.contains t <;> cases hw : task.isWellFormed <;> simp [hw, errorOf?]

theorem errorOf_replace [Host σ] (h : app.Pools) (host : σ) :
    errorOf? (app.replace s t u host).1 = none ↔
      app.Holds s t ∧ ¬ app.Holds s u ∧ app.Schedulable u ∧ app.tasks.holder? u = none := by
  unfold replace
  cases hs : app.scheduler? s with
  | none => simp [errorOf?, not_holds_of_unknown hs]
  | some sched =>
    rw [holds_of_scheduler? hs, holds_of_scheduler? hs]
    simp only [Scheduler.replace, Schedulable]
    cases hi : sched.slot? t with
    | none => simp [errorOf?, slot?_eq_none_iff.1 hi]
    | some slot =>
      -- a member is a task that exists
      have hc := Scheduler.contains_of_slot? hi
      obtain ⟨member, ht, -⟩ := (h.agree s t).1 ((holds_of_scheduler? hs).2 hc)
      cases hu : app.tasks.get? u with
      | none => simp [errorOf?]
      | some newcomer =>
        rw [Arena.holder?_of_get? hu]
        cases hcu : sched.contains u with
        | true => simp [errorOf?]
        | false => cases hf : newcomer.unit? <;> cases hw : newcomer.isWellFormed <;> simp [hf, hw, ht, hc, errorOf?]

theorem errorOf_assignNext (v : UnitId) :
    errorOf? (app.assignNext s v).1 = none ↔ (∃ sched, app.scheduler? s = some sched) ∧ app.claims[v]? = none := by
  unfold assignNext
  cases hv : app.claims[v]? with
  | some held => simp [errorOf?]
  | none =>
    cases hs : app.scheduler? s with
    | none => simp [errorOf?]
    | some sched =>
      simp only []
      split <;> simp [errorOf?]

theorem errorOf_interrupt [Host σ] (host : σ) :
    errorOf? (app.interrupt t host).1 = none ↔ ∃ task, app.tasks.get? t = some task := by
  unfold interrupt
  cases ht : app.tasks.get? t <;> simp [errorOf?]

theorem errorOf_stop [Host σ] (h : app.Pools) (host : σ) :
    errorOf? (app.stop s t host).1 = none ↔ app.Holds s t := by
  unfold stop
  cases hs : app.scheduler? s with
  | none => simp [errorOf?, not_holds_of_unknown hs]
  | some sched =>
    rw [holds_of_scheduler? hs]
    simp only [Scheduler.stop]
    cases hc : sched.contains t with
    | false => simp [errorOf?]
    | true =>
      obtain ⟨task, ht, -⟩ := (h.agree s t).1 ((holds_of_scheduler? hs).2 hc)
      simp [ht, errorOf?]

theorem errorOf_unschedule : errorOf? (app.unschedule s t).1 = none ↔ app.Holds s t := by
  unfold unschedule
  cases hs : app.scheduler? s with
  | none => simp [errorOf?, not_holds_of_unknown hs]
  | some sched =>
    rw [holds_of_scheduler? hs]
    simp only [Scheduler.remove]
    cases hi : sched.slot? t with
    | none => simp [errorOf?, slot?_eq_none_iff.1 hi]
    | some slot => simp [errorOf?, Scheduler.contains_of_slot? hi]

theorem errorOf_setPriority (priority : Int64) :
    errorOf? (app.setPriority t priority).1 = none ↔ ∃ task, app.tasks.get? t = some task := by
  unfold setPriority
  cases ht : app.tasks.get? t <;> simp [errorOf?]

end Permits

omit [Picker ρ] in
/-- **What an operation needs is all it needs** -/
theorem refusal?_eq_none {app : Application ρ} (h : app.Pools) (op : Op σ) :
    app.refusal? op = none ↔ app.Permits op := by
  cases op with
  | addTask | instantiate | tick => exact iff_of_true rfl trivial
  | addScheduler f => exact errorOf_addScheduler f
  | schedule s t => exact errorOf_schedule
  | replace s t u host => exact errorOf_replace h host
  | assignNext s u => exact errorOf_assignNext u
  | interrupt t host => exact errorOf_interrupt host
  | stop s t host => exact errorOf_stop h host
  | unschedule s t => exact errorOf_unschedule
  | setPriority t priority => exact errorOf_setPriority priority

/-! ## Runs -/

/-- **All or nothing.** After any operations, with any arguments and hosts, take one more operation. It is refused
exactly when something that it needs does not hold; and whenever it answers with an error, whichever it is, the
application that it leaves is the one before, with all tasks, pools and claims, and so is the host, on which no call was
made. -/
theorem run_refusals (settings : Settings) (picker : ρ) (ops : List (Op σ)) :
    let app := (initial settings picker).run ops
    ∀ op : Op σ, (app.refusal? op = none ↔ app.Permits op) ∧
      ∀ e, app.refusal? op = some e → app.perform op = app ∧ app.hostAfter? op = op.host? := by
  intro app op
  have hpools : app.Pools := run_pools settings picker ops
  exact ⟨refusal?_eq_none hpools op, fun e he => refusal_traceless he⟩

/-- two tasks in two pools; the first is claimed -/
def posted : List (Op (Logged Rehearsal)) :=
  [.addTask (Task.make "dig" 2 (.print {} (.boolean {} true))),
    .addTask (Task.make "haul" 1 (.print {} (.boolean {} false))),
    .addScheduler ⟨1⟩, .addScheduler ⟨2⟩, .schedule ⟨0⟩ ⟨0⟩, .schedule ⟨1⟩ ⟨1⟩, .assignNext ⟨0⟩ ⟨7⟩]

/-- the claimed task shall take the place of the other: of all checks only the one for its unit fails -/
def takeover : Op (Logged Rehearsal) :=
  .replace ⟨1⟩ ⟨1⟩ ⟨0⟩ { host := { world := { size := ⟨1, 1, 1⟩ : Setting }.world } }

/-- the call is refused and has changed nothing, and the log of the host is empty -/
theorem run_refusals_takeover :
    let app := (initial {} (Replay.mk [])).run posted
    app.refusal? takeover = some (.taskAssigned ⟨0⟩ ⟨7⟩) ∧ ¬ app.Permits takeover ∧ app.perform takeover = app ∧
      (app.hostAfter? takeover).map (·.calls) = some [] := by
  intro app
  have hrefused : app.refusal? takeover = some (.taskAssigned ⟨0⟩ ⟨7⟩) := by decide +kernel
  obtain ⟨hneeds, hsame⟩ := run_refusals {} (Replay.mk []) posted takeover
  obtain ⟨happ, hhost⟩ := hsame _ hrefused
  refine ⟨hrefused, fun hpermits => ?_, happ, by rw [hhost]; rfl⟩
  exact absurd (hrefused.symm.trans (hneeds.2 hpermits)) (by simp)

end Application

end Errand
