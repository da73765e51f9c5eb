/-
Statuses in a sandbox: which changes can put an action in progress.

Only a command does, and only for the unit that is commanded (`status_command`). Aborts, deaths, terrain and time are
`Calm`: whatever is in progress after them was in progress before. An aborted unit is not busy (`status_abort`).
-/
import Errand.Proofs.Sandbox.Turn

namespace Errand

namespace Sandbox

variable {w w' w'' : Sandbox} {u v : UnitId} {f : Actor → Actor}

/-! ## One unit at a time -/

theorem status_modifyActor_of_ne (h : u ≠ v) : (w.modifyActor u f).status v = w.status v := by
  rw [status, actors_modifyActor, if_neg h]
  rfl

theorem status_modifyActor (hf : ∀ a, (f a).status = a.status) (v : UnitId) :
    (w.modifyActor u f).status v = w.status v := by
  unfold status
  rw [actors_modifyActor]
  split
  · cases w.actors[v]? with
    | none => rfl
    | some a => exact hf a
  · rfl

theorem status_kill (w : Sandbox) (u v : UnitId) : (w.kill u).status v = w.status v := by
  apply status_modifyActor
  exact fun _ => rfl

theorem status_start_of_ne {activity : Activity} {status : ActionStatus} (h : u ≠ v) :
    (w.start u activity status).status v = w.status v :=
  status_modifyActor_of_ne h

/-- **A command concerns the status of its own unit only** -/
theorem status_command (c : Command) (h : u ≠ v) : (w.command u c).status v = w.status v := by
  cases c with
  | moveTo target sprint => exact status_start_of_ne h
  | workAt target => exact status_start_of_ne h
  | attack target =>
    unfold command
    simp only []
    split
    · exact (status_start_of_ne h).trans (w.status_kill target v)
    · exact status_start_of_ne h
  | follow target => exact status_start_of_ne h

theorem status_abort (w : Sandbox) (u : UnitId) : (w.abort u).status u ≠ .inProgress := by
  unfold status abort
  rw [actors_modifyActor, if_pos rfl]
  cases w.actors[u]? with
  | none => nofun
  | some a => cases ha : a.status <;> simp [ha]

/-! ## Calm changes -/

/-- whatever is in progress was in progress before -/
def Calm (w w' : Sandbox) : Prop := ∀ u, w'.status u = .inProgress → w.status u = .inProgress

theorem Calm.refl (w : Sandbox) : Calm w w := fun _ h => h

theorem Calm.trans (h : Calm w w') (h' : Calm w' w'') : Calm w w'' := fun u hu => h u (h' u hu)

theorem Calm.of_eq (h : ∀ u, w'.status u = w.status u) : Calm w w' := fun u hu => (h u).symm.trans hu

theorem calm_modifyActor (hf : ∀ a, (f a).status = .inProgress → a.status = .inProgress) :
    Calm w (w.modifyActor u f) := by
  intro v hv
  by_cases h : u = v
  · subst v
    unfold status at hv ⊢
    rw [actors_modifyActor, if_pos rfl] at hv
    cases ha : w.actors[u]? with
    | none => simp [ha] at hv
    | some a =>
      rw [ha] at hv
      exact hf a hv
  · rwa [status_modifyActor_of_ne h] at hv

theorem calm_abort (w : Sandbox) (u : UnitId) : Calm w (w.abort u) := by
  apply calm_modifyActor
  intro a ha
  simp only [] at ha
  split at ha
  · cases ha
  · exact ha

theorem calm_kill (w : Sandbox) (u : UnitId) : Calm w (w.kill u) := .of_eq (w.status_kill u)

theorem calm_setTerrain (w : Sandbox) (c : Cube) (t : Terrain) : Calm w (w.setTerrain c t) := .refl w

/-! ## Time -/

theorem status_carry (w : Sandbox) (u : UnitId) (item? : Option Item) (v : UnitId) :
    (w.carry u item?).status v = w.status v := by
  apply status_modifyActor
  exact fun _ => rfl

theorem status_completeWork (w : Sandbox) (u : UnitId) (target : Cube) (v : UnitId) :
    (w.completeWork u target).status v = w.status v := by
  unfold completeWork
  repeat' split
  all_goals exact status_carry _ u _ v

theorem status_walk {a : Actor} {goal : Cube} {arrived : Cube → Bool}
    (h : (w.walk a goal arrived).status = .inProgress) : a.status = .inProgress := by
  unfold walk at h
  simp only [] at h
  split at h
  · cases h
  · split at h
    · cases h
    · split at h
      · cases h
      · exact h

theorem Turn.calm (h : Turn w u w') : Calm w w' := by
  cases h with
  | absent | rests => exact .refl w
  | moves | follows => exact calm_modifyActor fun _ => status_walk
  | works => exact calm_modifyActor fun _ h => h
  | finishes => exact (Calm.of_eq (w.status_completeWork u _)).trans (calm_modifyActor fun _ h => by cases h)
  | loses => exact calm_modifyActor fun _ h => by cases h

/-- **Time begins nothing** -/
theorem calm_advance (w : Sandbox) : Calm w w.advance :=
  List.foldlRecOn _ _ (Calm.refl w) fun w' h u _ => h.trans (w'.turn u).calm

/-! ## New units -/

/-- nobody is busy -/
def Still (w : Sandbox) : Prop := ∀ u, w.status u ≠ .inProgress

theorem still_addUnit (h : w.Still) (r : Resident) : (w.addUnit r).Still := by
  intro u
  unfold status addUnit
  rw [Std.ExtTreeMap.getElem?_insert]
  split
  · nofun
  · exact h u

/-- **Units that were just added have nothing in progress** -/
theorem still_addUnits (w : Sandbox) (rs : List Resident) : (rs.foldl addUnit { w with actors := ∅ }).Still :=
  List.foldlRecOn _ _ (fun u => by simp [status]) fun _ h r _ => still_addUnit h r

end Sandbox

end Errand
