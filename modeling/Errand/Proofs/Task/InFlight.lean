/-
Actions in flight: what a task has on record while its unit is at work, and what an advance does then.

A task stays coherent whatever happens to it (`coherent_history`), so the action on record is the one action node under
way in its tree, and some unit holds the task. An advance by that unit is a poll and nothing else (`advance_waiting`):
the conditions and loops around the action are passed without a look at their tests. `action_inFlight` puts the two
together for every history of a task.
-/
import Errand.Proofs.Host.Logged
import Errand.Proofs.Task.Action
import Errand.Proofs.Task.History
import Errand.Rehearsal

namespace Errand

namespace Task

variable {σ ρ : Type} [Host σ] [Picker ρ] {t : Task}

/-! ## Histories -/

theorem coherent_occur (h : t.Coherent) (e : Event σ ρ) : (t.occur e).Coherent := by
  cases e with
  | claim u => exact (t.fresh_claim u).coherent
  | release => exact t.fresh_release.coherent
  | interrupt host => exact t.fresh_release.coherent
  | advance u o => exact coherent_advanced h u o

theorem coherent_history (h : t.Coherent) (events : List (Event σ ρ)) : (t.history events).Coherent :=
  List.foldlRecOn _ _ h fun _ h e _ => coherent_occur h e

theorem fresh_make (name : String) (priority : Int64) (body : Stmt) (store : Store) (selection : Selection) :
    (((make name priority body).withStore store).withSelection selection).Fresh :=
  ⟨body.isPristine_reset, rfl, rfl⟩

/-! ## Advances while an action is under way -/

/-- the step of an advance by the holder starts from the task as it stands -/
theorem steps_holder {u : UnitId} (hu : t.unit? = some u) (o : Outside σ ρ) :
    Stmt.Steps (t.frame u) t.body (t.live o.host o) (t.readingsFor u o) (t.stepFor u o) := by
  have h := t.steps_stepFor u o
  rwa [heldBy_eq, if_pos hu, claimFor_of_unit? hu] at h

/-- **An advance while an action is under way is a poll**: nothing is evaluated, the answer is no error, and variables,
output and picker stay as they are -/
theorem advance_waiting {u : UnitId} {kind : ActionKind} (h : t.Coherent) (hu : t.unit? = some u)
    (ha : t.action? = some kind) (o : Outside σ ρ) :
    t.readingsFor u o = [] ∧ (t.advanced u o).store = t.store ∧
      ∃ state, t.advance u o = (.ok state, t.advanced u o, { o with host := (Host.poll u o.host).2 }) := by
  have hsteps := steps_holder hu o
  have hawaits : t.body.Awaits kind := (h.records kind).1 ha
  obtain ⟨hreads, hlive⟩ := hsteps.asks h.shaped rfl hawaits
  rw [Stmt.pollAction_live] at hlive
  have hanswered : ∃ state, (t.stepFor u o).result = .ok state := by
    cases hsteps.effect h.shaped with
    | quiet hidle => exact absurd hawaits (hidle kind)
    | waits _ hasked => exact hasked.answered
    | starts hidle => exact absurd hawaits (hidle kind)
  obtain ⟨state, hstate⟩ := hanswered
  refine ⟨hreads, ?_, state, ?_⟩
  · rw [advanced_eq, hlive]
    rfl
  · rw [advance_eq, hstate, hlive]
    rfl

/-- **The action in flight.** Make a task with any script, variables and selection, and let anything happen to it:
claims, releases, interruptions and advances by any units, with any hosts and whatever the answers. Then an action is on
record exactly when an action of that kind is under way in the tree; there is one such place at most, and a unit holds
the task. While an action is on record, an advance by the unit that holds the task evaluates nothing, whatever
conditions and loops stand around the action: it is never an error, it leaves variables, output and picker as they are,
and the one call on the host is a poll. -/
theorem action_inFlight (name : String) (priority : Int64) (body : Stmt) (store : Store) (selection : Selection)
    (events : List (Event σ ρ)) :
    let t := (((make name priority body).withStore store).withSelection selection).history events
    (∀ kind, t.action? = some kind ↔
      ∃ path m target, t.body.at? path = some (.action m kind target) ∧ m.state = .inProgress) ∧
    (∀ (p q : List Nat) (m m' : Mark) (kind kind' : ActionKind) (target target' : Expr),
      t.body.at? p = some (.action m kind target) → t.body.at? q = some (.action m' kind' target') →
      m.state = .inProgress → m'.state = .inProgress → p = q) ∧
    (∀ kind, t.action? = some kind → ∃ u, t.unit? = some u) ∧
    ∀ (kind : ActionKind) (u : UnitId), t.action? = some kind → t.unit? = some u →
      (∀ (σ' ρ' : Type) [Host σ'] [Picker ρ'] (o : Outside σ' ρ'),
        t.readingsFor u o = [] ∧ (t.advanced u o).store = t.store ∧
          ∃ state, t.advance u o = (.ok state, t.advanced u o, { o with host := (Host.poll u o.host).2 })) ∧
      ∀ (σ' ρ' : Type) [Host σ'] [Picker ρ'] (o : Outside (Logged σ') ρ'),
        (t.advance u o).2.2.host.calls = o.host.calls ++ [.poll u] := by
  intro t
  have hcoherent : t.Coherent := coherent_history (fresh_make name priority body store selection).coherent events
  refine ⟨fun kind => (hcoherent.records kind).trans Stmt.awaits_iff_at, ?_, fun kind ha => ?_, ?_⟩
  · intro p q m m' kind kind' target target' hp hq hm hm'
    exact hcoherent.shaped.awaits_at_unique hp hm hq hm'
  · refine Option.ne_none_iff_exists'.1 fun hu => ?_
    rw [hcoherent.held hu] at ha
    cases ha
  · refine fun kind u ha hu => ⟨fun σ' ρ' _ _ o => advance_waiting hcoherent hu ha o, fun σ' ρ' _ _ o => ?_⟩
    obtain ⟨-, -, state, hadvance⟩ := advance_waiting hcoherent hu ha o
    rw [hadvance]
    rfl

/-- works at one place for as long as its unit lives and the variable says so -/
def sentry : Stmt :=
  .loop {} (.unitTest {} .isAlive (.unit {} .this))
    (.conditional {} (.var {} "armed") (.action {} .workAt (.cube {} ⟨1, 0, 0⟩)) none none)

/-- a host that knows one unit, which is never done with its work -/
def atWork : Outside Rehearsal Replay where
  host := { world := { size := ⟨4, 4, 1⟩, figures := [{ id := ⟨7⟩ }] : Setting }.world, final := .inProgress }
  picker := ⟨[]⟩

def deserted : Outside (Logged Rehearsal) Replay where
  host := { host := { world := { size := ⟨1, 1, 1⟩ : Setting }.world, final := .inProgress } }
  picker := ⟨[]⟩

/-- the work has begun below a test that would end the loop now, as its unit is gone; the host is only asked -/
theorem action_inFlight_sentry :
    let new := ((make "guard" 1 sentry).withStore (Store.empty.set "armed" (.boolean true))).withSelection {}
    let t := new.history [.advance ⟨7⟩ atWork]
    t.action? = some .workAt ∧ t.unit? = some ⟨7⟩ ∧
      (∃ path m target, t.body.at? path = some (.action m .workAt target) ∧ m.state = .inProgress) ∧
      t.readingsFor ⟨7⟩ deserted = [] ∧ (t.advance ⟨7⟩ deserted).2.2.host.calls = [.poll ⟨7⟩] := by
  intro new t
  have ha : t.action? = some .workAt := by decide +kernel
  have hu : t.unit? = some ⟨7⟩ := by decide +kernel
  obtain ⟨hnode, -, -, hadvance⟩ := action_inFlight "guard" 1 sentry (Store.empty.set "armed" (.boolean true)) {}
    [.advance ⟨7⟩ atWork]
  obtain ⟨hquiet, hcalls⟩ := hadvance .workAt ⟨7⟩ ha hu
  exact ⟨ha, hu, (hnode .workAt).1 ha, (hquiet _ _ deserted).1, hcalls _ _ deserted⟩

end Task

end Errand
