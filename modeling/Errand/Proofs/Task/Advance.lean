/-
Advances of a task: the step that an advance makes, what it leaves alone, and runs of advances.

An advance first sees to it that the unit holds the task (`heldBy_eq`), then makes one step (`stepFor`, which evaluates
`readingsFor`). It changes how far the task has come: `Same` lists what stays, among it the program, so a task has the
same problems after any run (`same_advances`, `Same.problems`).
-/
import Errand.Task
import Errand.Proofs.Script.Rules

namespace Errand

namespace Task

variable {σ ρ : Type} [Host σ]

/-! ## The parts of an advance -/

/-- what a step on behalf of `u` keeps fixed -/
def frame (t : Task) (u : UnitId) : Frame := { task := t.name, unit := u, selection := t.selection }

/-- what a step finds when it begins -/
def live (t : Task) (host : σ) (o : Outside σ ρ) : Live σ ρ :=
  { store := t.store, host, picker := o.picker, output := o.output, action := t.action? }

/-- the task as `u` holds it when the step begins -/
def heldBy (t : Task) (u : UnitId) (host : σ) : Task := (t.claimFor u host).1

/-- a unit that holds the task goes on; any other starts it from the top -/
theorem heldBy_eq (t : Task) (u : UnitId) (host : σ) :
    t.heldBy u host = if t.unit? = some u then t else t.claim u := by
  unfold heldBy claimFor
  cases hu : t.unit? with
  | none => simp
  | some held =>
    by_cases h : held = u
    · simp [h]
    · simp [h, claim, interrupt, release, restart]

/-- the holder is not interrupted and does not start anew -/
theorem claimFor_of_unit? {t : Task} {u : UnitId} (h : t.unit? = some u) (host : σ) :
    t.claimFor u host = (t, host) := by
  unfold claimFor
  rw [h]
  simp

variable [Picker ρ]

def stepFor (t : Task) (u : UnitId) (o : Outside σ ρ) : Stepped σ ρ :=
  (t.heldBy u o.host).body.step ((t.heldBy u o.host).frame u) ((t.heldBy u o.host).live (t.claimFor u o.host).2 o)

def readingsFor (t : Task) (u : UnitId) (o : Outside σ ρ) : List Reading :=
  (t.heldBy u o.host).body.readings ((t.heldBy u o.host).frame u)
    ((t.heldBy u o.host).live (t.claimFor u o.host).2 o)

theorem steps_stepFor (t : Task) (u : UnitId) (o : Outside σ ρ) :
    Stmt.Steps ((t.heldBy u o.host).frame u) (t.heldBy u o.host).body
      ((t.heldBy u o.host).live (t.claimFor u o.host).2 o) (t.readingsFor u o) (t.stepFor u o) :=
  Stmt.steps_step _ _ _

def advanced (t : Task) (u : UnitId) (o : Outside σ ρ) : Task := (t.advance u o).2.1

theorem advanced_eq (t : Task) (u : UnitId) (o : Outside σ ρ) :
    t.advanced u o =
      { t.heldBy u o.host with
        body := (t.stepFor u o).stmt
        store := (t.stepFor u o).live.store
        action? := match (t.stepFor u o).result with | .ok _ => (t.stepFor u o).live.action | .error _ => none } := rfl

theorem unit?_advanced (t : Task) (u : UnitId) (o : Outside σ ρ) : (t.advanced u o).unit? = some u := by
  rw [advanced_eq, heldBy_eq]
  split
  · assumption
  · rfl

theorem advance_eq (t : Task) (u : UnitId) (o : Outside σ ρ) :
    t.advance u o = ((t.stepFor u o).result, t.advanced u o,
      { host := (t.stepFor u o).live.host, picker := (t.stepFor u o).live.picker
        output := (t.stepFor u o).live.output }) := rfl

/-- the root is in the state that the answer calls for -/
theorem state_advanced (t : Task) (u : UnitId) (o : Outside σ ρ) :
    (t.advanced u o).state = Stmt.stateAfter (t.stepFor u o).result :=
  (t.steps_stepFor u o).state

/-! ## What stays -/

/-- two tasks that differ only in how far they have come, in their holder and in priority -/
structure Same (t t' : Task) : Prop where
  name : t'.name = t.name
  program : t'.body.reset = t.body.reset
  initial : t'.initial = t.initial
  selection : t'.selection = t.selection
  schedulers : t'.schedulers = t.schedulers

namespace Same

variable {t t' t'' : Task}

theorem refl (t : Task) : Same t t := ⟨rfl, rfl, rfl, rfl, rfl⟩

theorem trans (h : Same t t') (h' : Same t' t'') : Same t t'' :=
  ⟨h'.name.trans h.name, h'.program.trans h.program, h'.initial.trans h.initial, h'.selection.trans h.selection,
    h'.schedulers.trans h.schedulers⟩

theorem problems (h : Same t t') : t'.problems = t.problems := by
  unfold Task.problems
  rw [h.initial, h.selection, Stmt.problems_of_reset_eq h.program]

end Same

theorem same_claim (t : Task) (u : UnitId) : Same t (t.claim u) := ⟨rfl, t.body.reset_reset, rfl, rfl, rfl⟩

theorem same_release (t : Task) : Same t t.release.2 := ⟨rfl, t.body.reset_reset, rfl, rfl, rfl⟩

theorem same_finish (t : Task) : Same t t.finish := ⟨rfl, rfl, rfl, rfl, rfl⟩

omit [Picker ρ] in
theorem same_heldBy (t : Task) (u : UnitId) (host : σ) : Same t (t.heldBy u host) := by
  rw [heldBy_eq]
  split
  · exact .refl t
  · exact t.same_claim u

theorem same_advanced (t : Task) (u : UnitId) (o : Outside σ ρ) : Same t (t.advanced u o) := by
  have hprog := (t.steps_stepFor u o).program
  rw [advanced_eq]
  exact (t.same_heldBy u o.host).trans ⟨rfl, hprog, rfl, rfl, rfl⟩

/-! ## Runs -/

/-- the task after a run of advances, each on behalf of some unit and with surroundings of its own -/
def advances (t : Task) (calls : List (UnitId × Outside σ ρ)) : Task := calls.foldl (fun t c => t.advanced c.1 c.2) t

theorem same_advances (t : Task) (calls : List (UnitId × Outside σ ρ)) : Same t (t.advances calls) := by
  induction calls generalizing t with
  | nil => exact .refl t
  | cons c calls ih => exact (t.same_advanced c.1 c.2).trans (ih _)

end Task

end Errand
