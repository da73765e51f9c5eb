/-
Schedulers: per-faction pools of tasks, which hand the best pending one to an idle unit.

Which members are pending is not stored: a member is assigned exactly when its task has a unit, in every scheduler that
holds it. Every operation answers together with the state it leaves; one that is refused leaves everything as it was.
-/
import Errand.Task

namespace Errand

/-- why an operation is refused -/
inductive SchedulerError where
  | alreadyScheduled (scheduler : SchedulerId) (task : TaskId)
  | notMember (scheduler : SchedulerId) (task : TaskId)
  | unknownTask (task : TaskId)
  | unknownScheduler (scheduler : SchedulerId)
  | illFormed (task : TaskId)
  | unitBusy (unit : UnitId) (task : TaskId)
  | taskAssigned (task : TaskId) (unit : UnitId)
  | duplicateFaction (faction : FactionId) (scheduler : SchedulerId)
  deriving DecidableEq, Repr

def SchedulerError.text : SchedulerError → String
  | .alreadyScheduled s t => s!"{t.text} is already scheduled in {s.text}"
  | .notMember s t => s!"{t.text} is not a member of {s.text}"
  | .unknownTask t => s!"unknown task {t.text}"
  | .unknownScheduler s => s!"unknown scheduler {s.text}"
  | .illFormed t => s!"{t.text} is not well-formed and cannot be scheduled"
  | .unitBusy u t => s!"{u.text} is already executing {t.text}"
  | .taskAssigned t u => s!"{t.text} is currently assigned to {u.text}"
  | .duplicateFaction f s => s!"{f.text} already has scheduler {s.text}"

/-- a membership: the task and its number in order of registration -/
structure Entry where
  task : TaskId
  seq : Nat
  deriving DecidableEq, Repr

structure Scheduler where
  id : SchedulerId
  faction : FactionId
  entries : List Entry := []
  /-- the number of the next registration -/
  nextSeq : Nat := 0
  deriving DecidableEq, Repr

namespace Scheduler

def contains (s : Scheduler) (t : TaskId) : Bool := s.entries.any (·.task = t)

def containsAll (s : Scheduler) (ts : List TaskId) : Bool := ts.all s.contains

def slot? (s : Scheduler) (t : TaskId) : Option Nat := s.entries.findIdx? (·.task = t)

def size (s : Scheduler) : Nat := s.entries.length

/-- a member with what decides its rank -/
structure Ranked where
  priority : Int64
  entry : Entry
  deriving DecidableEq, Repr

/-- greater priority first, then earlier registration -/
def Ranked.before (a b : Ranked) : Bool :=
  b.priority < a.priority || (a.priority == b.priority && a.entry.seq ≤ b.entry.seq)

/-- the members in order of assignment -/
def ordered (s : Scheduler) (tasks : Arena) : List TaskId :=
  let ranked := s.entries.filterMap fun e => (tasks.get? e.task).map fun t => (⟨t.priority, e⟩ : Ranked)
  (ranked.mergeSort Ranked.before).map (·.entry.task)

def isFree (tasks : Arena) (t : TaskId) : Bool := (tasks.get? t).any (·.unit?.isNone)

def isHeld (tasks : Arena) (t : TaskId) : Bool := (tasks.get? t).any (·.unit?.isSome)

/-- the members that no unit holds, in order of assignment -/
def pending (s : Scheduler) (tasks : Arena) : List TaskId := (s.ordered tasks).filter (isFree tasks)

/-- the members that a unit holds, in order of assignment -/
def assigned (s : Scheduler) (tasks : Arena) : List TaskId := (s.ordered tasks).filter (isHeld tasks)

def schedule (s : Scheduler) (t : TaskId) (tasks : Arena) : Except SchedulerError Unit × Scheduler × Arena :=
  match tasks.get? t with
  | none => (.error (.unknownTask t), s, tasks)
  | some task =>
    if s.contains t then (.error (.alreadyScheduled s.id t), s, tasks)
    else if !task.isWellFormed then (.error (.illFormed t), s, tasks)
    else
      (.ok (), { s with entries := s.entries ++ [⟨t, s.nextSeq⟩], nextSeq := s.nextSeq + 1 },
        tasks.modify t (·.join s.id))

/-- lets `u` claim the best pending task, if there is one; the caller sees to it that `u` holds none -/
def assignNext (s : Scheduler) (u : UnitId) (tasks : Arena) : Option TaskId × Arena :=
  match (s.ordered tasks).find? (isFree tasks) with
  | none => (none, tasks)
  | some t => (some t, tasks.modify t (·.claim u))

variable {σ : Type} [Host σ]

/-- puts `u` in the place of `t`, whose execution ends; the freed unit is the answer -/
def replace (s : Scheduler) (t u : TaskId) (tasks : Arena) (host : σ) :
    Except SchedulerError (Option UnitId) × Scheduler × Arena × σ :=
  let refuse (e : SchedulerError) : Except SchedulerError (Option UnitId) × Scheduler × Arena × σ :=
    (.error e, s, tasks, host)
  match s.slot? t, tasks.get? u with
  | none, _ => refuse (.notMember s.id t)
  | some _, none => refuse (.unknownTask u)
  | some slot, some newcomer =>
    if s.contains u then refuse (.alreadyScheduled s.id u) else
    match newcomer.unit?, tasks.get? t with
    | some held, _ => refuse (.taskAssigned u held)
    | none, member? =>
      if !newcomer.isWellFormed then refuse (.illFormed u) else
      match member? with
      | none => refuse (.unknownTask t)
      | some member =>
        let (freed, member, host) := member.interrupt host
        let tasks := (tasks.modify t fun _ => member.quit s.id).modify u fun n => n.release.2.join s.id
        (.ok freed, { s with entries := s.entries.modify slot ({ · with task := u }) }, tasks, host)

/-- interrupts a member, which then is pending everywhere; the freed unit is the answer -/
def stop (s : Scheduler) (t : TaskId) (tasks : Arena) (host : σ) :
    Except SchedulerError (Option UnitId) × Arena × σ :=
  if !s.contains t then (.error (.notMember s.id t), tasks, host) else
  match tasks.get? t with
  | none => (.error (.unknownTask t), tasks, host)
  | some task =>
    let (freed, task, host) := task.interrupt host
    (.ok freed, tasks.modify t fun _ => task, host)

/-- drops a task from the pool; a claim on it goes on -/
def remove (s : Scheduler) (t : TaskId) (tasks : Arena) : Except SchedulerError Unit × Scheduler × Arena :=
  match s.slot? t with
  | none => (.error (.notMember s.id t), s, tasks)
  | some slot => (.ok (), { s with entries := s.entries.eraseIdx slot }, tasks.modify t (·.quit s.id))

end Scheduler

end Errand
