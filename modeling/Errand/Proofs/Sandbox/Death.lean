/-
Commands of the dead: what a unit that is not alive still does in a sandbox.

A command concerns its own unit, and an attack that hits concerns the victim too (`actors_command_of_ne`). A dead unit
fails at whatever it is told to do, but an attack strikes before anybody asks whether the attacker lives. So of all
commands to the dead just the attacks that hit change anything besides the attacker (`dead_command_exact`).
-/
import Errand.Proofs.Sandbox.Conservation

namespace Errand

namespace Sandbox

variable {w : Sandbox} {u v : UnitId} {a : Actor}

/-! ## Who is changed -/

/-- a command changes its own unit, and an attack that hits changes the victim -/
theorem actors_command_of_ne (h : u ≠ v) (c : Command) :
    (w.command u c).actors[v]? =
      if c = .attack v ∧ w.canHit u v = true then (w.kill v).actors[v]? else w.actors[v]? := by
  cases c with
  | attack target =>
    unfold command
    simp only [Command.attack.injEq]
    split
    · rename_i hhit
      rw [start, actors_modifyActor_of_ne h]
      by_cases ht : target = v
      · subst target
        rw [if_pos ⟨rfl, hhit⟩]
      · rw [if_neg fun h => ht h.1, kill, actors_modifyActor_of_ne ht]
    · rename_i hmiss
      rw [start, actors_modifyActor_of_ne h, if_neg]
      rintro ⟨rfl, hhit⟩
      exact hmiss hhit
  | _ =>
    rw [if_neg (by simp)]
    exact actors_modifyActor_of_ne h _

/-! ## Commands of the dead -/

/-- the unit, if it exists, is idle and has failed; that is all that has changed -/
structure FailsOnly (w w' : Sandbox) (u : UnitId) : Prop where
  own : w'.actors[u]? = w.actors[u]?.map fun a => { a with activity := .idle, status := .failed }
  others : ∀ v, v ≠ u → w'.actors[v]? = w.actors[v]?
  size : w'.size = w.size
  terrain : w'.terrain = w.terrain
  boulders : w'.boulders = w.boulders
  logs : w'.logs = w.logs
  workTicks : w'.workTicks = w.workTicks

/-- what there is of a unit says whether it is alive -/
theorem isAlive_congr {w' : Sandbox} (h : w'.actors[u]? = w.actors[u]?) : w'.isAlive u = w.isAlive u := by
  rw [isAlive, isAlive, unit?, unit?, h]

theorem alive_of_isAlive (h : w.isAlive u = false) (ha : w.actors[u]? = some a) : a.unit.alive = false := by
  simpa [isAlive, unit?, ha] using h

theorem failsOnly_start (h : w.isAlive u = false) (activity : Activity) (status : ActionStatus) :
    FailsOnly w (w.start u activity status) u where
  own := by
    rw [start, actors_modifyActor, if_pos rfl]
    cases ha : w.actors[u]? with
    | none => rfl
    | some a => simp [alive_of_isAlive h ha]
  others v hv := actors_modifyActor_of_ne hv.symm _
  size := rfl
  terrain := rfl
  boulders := rfl
  logs := rfl
  workTicks := rfl

theorem isAlive_kill_of_ne (h : u ≠ v) : (w.kill u).isAlive v = w.isAlive v :=
  isAlive_congr (actors_modifyActor_of_ne h _)

theorem isAlive_kill (w : Sandbox) (u : UnitId) : (w.kill u).isAlive u = false := by
  rw [isAlive, unit?, kill, actors_modifyActor, if_pos rfl]
  cases w.actors[u]? <;> rfl

theorem isAlive_start (w : Sandbox) (u v : UnitId) (activity : Activity) (status : ActionStatus) :
    (w.start u activity status).isAlive v = w.isAlive v := by
  rw [isAlive, isAlive, unit?, unit?, start, actors_modifyActor]
  split
  · cases w.actors[v]? with
    | none => rfl
    | some a => cases ha : a.unit.alive <;> simp [ha]
  · rfl

theorem isAlive_abort (w : Sandbox) (u v : UnitId) : (w.abort u).isAlive v = w.isAlive v := by
  rw [isAlive, isAlive, unit?, unit?, abort, actors_modifyActor]
  split
  · cases w.actors[v]? <;> rfl
  · rfl

theorem alive_of_canHit (h : w.canHit u v = true) : u ≠ v ∧ w.isAlive v = true := by
  unfold canHit at h
  split at h
  · simp only [Bool.and_eq_true, decide_eq_true_eq] at h
    exact ⟨h.1.1, h.2⟩
  · exact absurd h (by simp)

/-- **Commands of the dead fail, but their attacks strike.** Let a unit be unknown or dead. A command to it makes it
idle and failed and changes nothing else, unless it is an attack within reach of a living unit; then the victim dies
first. -/
theorem dead_command_exact (h : w.isAlive u = false) (c : Command) :
    (FailsOnly w (w.command u c) u ↔ ∀ target, c = .attack target → w.canHit u target = false) ∧
    ∀ target, c = .attack target → w.canHit u target = true →
      w.isAlive target = true ∧ (w.command u c).isAlive target = false ∧
        FailsOnly (w.kill target) (w.command u c) u := by
  have hstrikes : ∀ target, c = .attack target → w.canHit u target = true →
      w.isAlive target = true ∧ (w.command u c).isAlive target = false ∧
        FailsOnly (w.kill target) (w.command u c) u := by
    rintro target rfl hhit
    obtain ⟨hne, halive⟩ := alive_of_canHit hhit
    have hcommand : w.command u (.attack target) = (w.kill target).start u .idle .completed := if_pos hhit
    have hdead : (w.kill target).isAlive u = false := (isAlive_kill_of_ne hne.symm).trans h
    rw [hcommand]
    exact ⟨halive, (isAlive_start _ u target _ _).trans (w.isAlive_kill target), failsOnly_start hdead _ _⟩
  refine ⟨⟨fun hfails target hc => ?_, fun hmiss => ?_⟩, hstrikes⟩
  · by_contra hhit
    obtain ⟨halive, hdead, -⟩ := hstrikes target hc (Bool.not_eq_false _ ▸ hhit)
    have hne := (alive_of_canHit (Bool.not_eq_false _ ▸ hhit)).1
    have hsame : (w.command u c).isAlive target = w.isAlive target := isAlive_congr (hfails.others target hne.symm)
    exact absurd (hdead.symm.trans (hsame.trans halive)) (by simp)
  · cases c with
    | attack target =>
      have hcommand : w.command u (.attack target) = w.start u .idle .failed := if_neg (by simp [hmiss target rfl])
      rw [hcommand]
      exact failsOnly_start h _ _
    | _ => exact failsOnly_start h _ _

/-- next to a living unit lies a dead one -/
def haunted : Sandbox :=
  [{ id := ⟨7⟩, faction := ⟨1⟩, position := ⟨0, 0, 0⟩, alive := false },
    { id := ⟨8⟩, faction := ⟨1⟩, position := ⟨1, 0, 0⟩ }].foldl addUnit { size := ⟨4, 1, 1⟩ }

/-- the dead unit does not follow its neighbour, but slays it -/
theorem dead_command_exact_haunted :
    haunted.isAlive ⟨7⟩ = false ∧ FailsOnly haunted (haunted.command ⟨7⟩ (.follow ⟨8⟩)) ⟨7⟩ ∧
      haunted.canHit ⟨7⟩ ⟨8⟩ = true ∧ (haunted.command ⟨7⟩ (.attack ⟨8⟩)).isAlive ⟨8⟩ = false := by
  have hdead : haunted.isAlive ⟨7⟩ = false := by decide +kernel
  have hhit : haunted.canHit ⟨7⟩ ⟨8⟩ = true := by decide +kernel
  refine ⟨hdead, (dead_command_exact hdead _).1.2 nofun, hhit, ?_⟩
  exact ((dead_command_exact hdead (.attack ⟨8⟩)).2 _ rfl hhit).2.1

/-- so a command of the dead can change more than its own unit -/
theorem dead_attack_strikes :
    ¬ ∀ (w : Sandbox) (u : UnitId) (c : Command), w.isAlive u = false → FailsOnly w (w.command u c) u := by
  intro h
  have hfails := h haunted ⟨7⟩ (.attack ⟨8⟩) (by decide +kernel)
  have hsame : (haunted.command ⟨7⟩ (.attack ⟨8⟩)).actors[(⟨8⟩ : UnitId)]? = haunted.actors[(⟨8⟩ : UnitId)]? :=
    hfails.others ⟨8⟩ (by decide)
  exact absurd hsame (by decide +kernel)

end Sandbox

end Errand
