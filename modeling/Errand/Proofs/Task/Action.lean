/-
Actions of a task: the action on record is the one that the tree awaits.

A task that starts from the top is `Fresh`: nothing has begun, the variables are the initial ones, no action is on
record. `Coherent` says what holds of a task at any time: its tree is shaped, the action on record is the one under way
in the tree (`Records`), and there is none without a unit. An advance keeps it whatever the host answers
(`coherent_advanced`), as does the end of a task that is done (`coherent_finish`).
-/
import Errand.Proofs.Script.Waiting
import Errand.Proofs.Task.Advance

namespace Errand

/-! ## Records of actions -/

/-- the action on record is the one under way in the tree -/
def Records (action? : Option ActionKind) (s : Stmt) : Prop := ∀ kind, action? = some kind ↔ s.Awaits kind

theorem records_none {s : Stmt} : Records none s ↔ s.Idle := by
  simp [Records, Stmt.Idle]

theorem records_some {s : Stmt} {kind : ActionKind} (hs : s.Shaped) (h : s.Awaits kind) : Records (some kind) s := by
  intro k
  constructor
  · intro hk
    rwa [← Option.some.inj hk]
  · exact fun hw => congrArg some (h.unique hs hw)

theorem Records.eq_none {action? : Option ActionKind} {s : Stmt} (h : Records action? s) (hs : s.Idle) :
    action? = none :=
  Option.eq_none_iff_forall_ne_some.2 fun kind hk => hs kind ((h kind).1 hk)

namespace Task

/-! ## Fresh tasks -/

/-- nothing of the execution has happened -/
structure Fresh (t : Task) : Prop where
  pristine : t.body.isPristine = true
  store : t.store = t.initial
  action : t.action? = none

theorem fresh_release (t : Task) : t.release.2.Fresh := ⟨t.body.isPristine_reset, rfl, rfl⟩

theorem fresh_claim (t : Task) (u : UnitId) : (t.claim u).Fresh := ⟨t.body.isPristine_reset, rfl, rfl⟩

/-! ## Coherent tasks -/

/-- tree, record and holder go together -/
structure Coherent (t : Task) : Prop where
  shaped : t.body.Shaped
  records : Records t.action? t.body
  held : t.unit? = none → t.action? = none

theorem Fresh.coherent {t : Task} (h : t.Fresh) : t.Coherent where
  shaped := Stmt.shaped_of_isPristine h.pristine
  records := by
    rw [h.action, records_none]
    exact Stmt.idle_of_isPristine h.pristine
  held _ := h.action

theorem coherent_finish {t : Task} (h : t.Coherent) (hd : t.state = .done) : t.finish.Coherent where
  shaped := h.shaped
  records := records_none.2 (h.shaped.idle (by rw [← Task.state, hd]; nofun))
  held _ := rfl

variable {σ ρ : Type} [Host σ] [Picker ρ] {t : Task}

omit [Picker ρ] in
theorem coherent_heldBy (h : t.Coherent) (u : UnitId) (host : σ) : (t.heldBy u host).Coherent := by
  rw [heldBy_eq]
  split
  · exact h
  · exact (t.fresh_claim u).coherent

omit [Picker ρ] in
/-- after the host was asked, what the step notes down is what the tree awaits -/
theorem records_asked {fr : Frame} {kind : ActionKind} {host : σ} {r : Stepped σ ρ} (hr : r.stmt.Shaped)
    (h : Stmt.Asked fr kind host (some kind) r) : Records r.live.action r.stmt := by
  by_cases hp : (Host.poll fr.unit host).1 = .inProgress
  · obtain ⟨-, hw, ha⟩ := h.goes hp
    rw [ha]
    exact records_some hr hw
  · obtain ⟨hidle, ha⟩ := h.ends hp
    rw [ha]
    exact records_none.2 hidle

/-- a step is quiet only while nothing is on record, and waits for the action on record only -/
theorem effect_stepFor (h : t.Coherent) (u : UnitId) (o : Outside σ ρ) :
    Stmt.Effect ((t.heldBy u o.host).frame u) (t.heldBy u o.host).body
      ((t.heldBy u o.host).live (t.claimFor u o.host).2 o) (t.stepFor u o) :=
  (t.steps_stepFor u o).effect (coherent_heldBy h u o.host).shaped

/-- **An advance keeps the record true**, whoever makes it and whatever the host answers -/
theorem coherent_advanced (h : t.Coherent) (u : UnitId) (o : Outside σ ρ) : (t.advanced u o).Coherent := by
  have hheld := coherent_heldBy h u o.host
  have hshaped : (t.stepFor u o).stmt.Shaped := (t.steps_stepFor u o).shaped hheld.shaped
  have hrecords : Records (t.advanced u o).action? (t.stepFor u o).stmt := by
    rw [advanced_eq]
    cases effect_stepFor h u o with
    | quiet hs hr hh ha =>
      have hnone : (t.stepFor u o).live.action = none := ha.trans (hheld.records.eq_none hs)
      simp only [hnone]
      split <;> exact records_none.2 hr
    | @waits kind hs hasked =>
      rw [show ((t.heldBy u o.host).live _ o).action = some kind from (hheld.records kind).2 hs] at hasked
      obtain ⟨x, hx⟩ := hasked.answered
      simp only [hx]
      exact records_asked hshaped hasked
    | starts hs hasked =>
      obtain ⟨x, hx⟩ := hasked.answered
      simp only [hx]
      exact records_asked hshaped hasked
  exact ⟨hshaped, hrecords, fun hn => by simp [unit?_advanced] at hn⟩

end Task

end Errand
