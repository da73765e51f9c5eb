/-
Histories of a task: whatever has happened to it, a claim starts it from the top.

A history is any list of claims, releases, interruptions and advances, each with a unit and surroundings of its own. It
changes how far the task has come and who holds it, and nothing else (`same_history`, `priority_history`). A claim
forgets both, so after any history it gives what it gives of the new task, and from there every run of advances goes the
same way (`claim_history`).
-/
import Errand.Proofs.Task.Advance

namespace Errand

namespace Task

variable {σ ρ : Type} [Host σ] [Picker ρ]

/-- what can happen to a single task -/
inductive Event (σ ρ : Type) where
  | claim (u : UnitId)
  | release
  | interrupt (host : σ)
  | advance (u : UnitId) (o : Outside σ ρ)

/-- the task that an event leaves, whatever the answer -/
def occur (t : Task) : Event σ ρ → Task
  | .claim u => t.claim u
  | .release => t.release.2
  | .interrupt host => (t.interrupt host).2.1
  | .advance u o => (t.advance u o).2.1

def history (t : Task) (events : List (Event σ ρ)) : Task := events.foldl occur t

theorem same_occur (t : Task) (e : Event σ ρ) : Same t (t.occur e) := by
  cases e with
  | claim u => exact t.same_claim u
  | release => exact t.same_release
  | interrupt host => exact t.same_release
  | advance u o => exact t.same_advanced u o

theorem priority_occur (t : Task) (e : Event σ ρ) : (t.occur e).priority = t.priority := by
  cases e with
  | claim u => rfl
  | release => rfl
  | interrupt host => rfl
  | advance u o =>
    change (t.advanced u o).priority = t.priority
    rw [advanced_eq, heldBy_eq]
    split <;> rfl

theorem same_history (t : Task) (events : List (Event σ ρ)) : Same t (t.history events) := by
  induction events generalizing t with
  | nil => exact .refl t
  | cons e events ih => exact (t.same_occur e).trans (ih _)

theorem priority_history (t : Task) (events : List (Event σ ρ)) : (t.history events).priority = t.priority := by
  induction events generalizing t with
  | nil => rfl
  | cons e events ih => exact (ih _).trans (t.priority_occur e)

/-- a claim depends on what stays only -/
theorem Same.claim {t t' : Task} (h : Same t t') (hp : t'.priority = t.priority) (u : UnitId) :
    t'.claim u = t.claim u := by
  unfold Task.claim restart
  rw [h.name, hp, h.program, h.initial, h.selection, h.schedulers]

/-- the course of advances on behalf of one unit, with what happens to the surroundings before each of them: every
answer, with the variables and the surroundings after it -/
def course (u : UnitId) :
    List (Outside σ ρ → Outside σ ρ) → Task → Outside σ ρ → List (Except EvalError ExecState × Store × Outside σ ρ)
  | [], _, _ => []
  | meanwhile :: rest, t, o =>
    let (x, t, o) := t.advance u (meanwhile o)
    (x, t.store, o) :: course u rest t o

/-- **A claim starts from scratch.** Make a task with any script, variables and selection, and let anything happen to
it: claims, releases, interruptions and advances by any units, with any surroundings and whatever the answers. A claim
then gives exactly the task that it gives of the new one, with the script, the variables and the selection it was made
with and without an action; and a course of advances from there has the same answers, variables, output, host and
picker, whatever happened before. -/
theorem claim_history (name : String) (priority : Int64) (body : Stmt) (store : Store) (selection : Selection)
    (events : List (Event σ ρ)) (u : UnitId) :
    let new := ((make name priority body).withStore store).withSelection selection
    let used := new.history events
    used.claim u = new.claim u ∧
    (used.claim u).body = body.reset ∧ (used.claim u).store = store ∧ (used.claim u).selection = selection ∧
    (used.claim u).action? = none ∧ (used.claim u).unit? = some u ∧
    ∀ (σ' ρ' : Type) [Host σ'] [Picker ρ'] (turns : List (Outside σ' ρ' → Outside σ' ρ')) (o : Outside σ' ρ'),
      course u turns (used.claim u) o = course u turns (new.claim u) o := by
  intro new used
  have hclaim : used.claim u = new.claim u := (new.same_history events).claim (new.priority_history events) u
  refine ⟨hclaim, ?_, ?_, ?_, rfl, rfl, fun σ' ρ' _ _ turns o => by rw [hclaim]⟩
  · rw [hclaim]
    exact body.reset_reset
  · rw [hclaim]
    rfl
  · rw [hclaim]
    rfl

end Task

end Errand
