/-
Stuck units: those that seem to be busy for ever.

A unit whose status is in progress should be alive and have something to do, or time passes it by. Commands, aborts and
the passing of time see to that, but a death leaves the status of the victim as it was. `stuck_change` says for one
change of the sandbox when it makes a unit stuck and when it leaves a stuck unit so. From this follows which units are
stuck after any changes, and that every other unit in progress is moved on by the next tick (`stuck_exact`).
-/
import Errand.Proofs.Cube.Adjacent
import Errand.Proofs.Sandbox.Death

namespace Errand

/-- it is in progress, says the status, but dead or without anything to do -/
def Actor.Stuck (a : Actor) : Prop := a.status = .inProgress ∧ (a.unit.alive = false ∨ a.activity = .idle)

/-- time has not passed it by: it is not as it was, and not stuck -/
def Actor.Moved (a b : Actor) : Prop := b ≠ a ∧ ¬ b.Stuck

namespace Sandbox

variable {w w' : Sandbox} {u v : UnitId} {a : Actor}

def Stuck (w : Sandbox) (u : UnitId) : Prop := ∃ a, w.actors[u]? = some a ∧ a.Stuck

theorem stuck_congr (h : w'.actors[u]? = w.actors[u]?) : w'.Stuck u ↔ w.Stuck u := by
  rw [Stuck, Stuck, h]

theorem Stuck.status (h : w.Stuck u) : w.status u = .inProgress := by
  obtain ⟨a, ha, hs, -⟩ := h
  simpa [Sandbox.status, ha] using hs

/-- what becomes of a unit decides whether it is stuck -/
theorem stuck_modifyActor (f : Actor → Actor) :
    (w.modifyActor u f).Stuck u ↔ ∃ a, w.actors[u]? = some a ∧ (f a).Stuck := by
  rw [Stuck, actors_modifyActor, if_pos rfl]
  cases w.actors[u]? <;> simp

/-! ## Deaths, aborts and commands -/

theorem stuck_kill : (w.kill u).Stuck u ↔ w.status u = .inProgress := by
  rw [kill, stuck_modifyActor]
  cases ha : w.actors[u]? <;> simp [Sandbox.status, ha, Actor.Stuck]

theorem not_stuck_abort : ¬ (w.abort u).Stuck u := fun h => w.status_abort u h.status

/-- what is begun by a living unit is nothing to be idle about -/
theorem not_stuck_start {activity : Activity} {status : ActionStatus}
    (h : status = .inProgress → activity ≠ .idle) : ¬ (w.start u activity status).Stuck u := by
  rw [start, stuck_modifyActor]
  rintro ⟨a, -, hs⟩
  cases halive : a.unit.alive with
  | true =>
    simp only [halive, if_true, Actor.Stuck, Bool.true_eq_false, false_or] at hs
    exact h hs.1 hs.2
  | false => simp [halive, Actor.Stuck] at hs

theorem not_stuck_command (c : Command) : ¬ (w.command u c).Stuck u := by
  cases c with
  | attack target =>
    unfold command
    simp only []
    split <;> exact not_stuck_start (by simp)
  | _ => exact not_stuck_start fun _ => by simp

/-! ## Time -/

section

variable (hs : a.status = .inProgress)

include hs

theorem moved_of_status {b : Actor} (hb : b.status ≠ .inProgress) : a.Moved b :=
  ⟨fun h => hb (h ▸ hs), fun h => hb h.1⟩

/-- a walk goes on or comes to its end, but never stays as it is -/
theorem moved_walk (hstuck : ¬ a.Stuck) (goal : Cube) (arrived : Cube → Bool) :
    a.Moved (w.walk a goal arrived) := by
  unfold walk
  simp only []
  split
  · exact moved_of_status hs nofun
  · cases hn : w.stepToward? a.unit.position goal with
    | none => exact moved_of_status hs nofun
    | some n =>
      simp only []
      split
      · exact moved_of_status hs nofun
      · have hne : n ≠ a.unit.position := Cube.ne_of_mem_adjacent (mem_closer.1 (mem_of_stepToward? hn)).1
        exact ⟨fun h => hne (congrArg (·.unit.position) h), hstuck⟩

end

/-- time passes by whoever is not in progress, and the stuck -/
theorem advanceUnit_passes (ha : w.actors[u]? = some a) (h : a.status = .inProgress → a.Stuck) :
    w.advanceUnit u = w :=
  advanceUnit_of_rests ha fun hbusy => (h hbusy.status).2.resolve_left (by simp [hbusy.alive])

/-- **Time moves every other unit on** -/
theorem moved_advanceUnit (ha : w.actors[u]? = some a) (hs : a.status = .inProgress) (hstuck : ¬ a.Stuck) :
    ∃ b, (w.advanceUnit u).actors[u]? = some b ∧ a.Moved b := by
  have hturn := w.turn u
  generalize w.advanceUnit u = w' at hturn ⊢
  cases hturn with
  | absent hnone => cases ha.symm.trans hnone
  | rests ha' hrests =>
    cases ha.symm.trans ha'
    refine absurd ⟨hs, ?_⟩ hstuck
    cases halive : a.unit.alive with
    | false => exact .inl rfl
    | true => exact .inr (hrests ⟨halive, hs⟩)
  | moves | follows => exact ⟨_, actors_modifyActor_self ha _, moved_walk hs hstuck _ _⟩
  | works ha' _ hactivity hmore =>
    cases ha.symm.trans ha'
    refine ⟨_, actors_modifyActor_self ha _, fun hsame => ?_, fun h => ?_⟩
    · have hfewer := congrArg (·.activity) hsame
      simp only [hactivity, Activity.working.injEq, true_and] at hfewer
      omega
    · exact hstuck ⟨hs, h.2.imp_right nofun⟩
  | finishes =>
    obtain ⟨item?, hb⟩ := actors_completeWork ha _
    exact ⟨_, actors_modifyActor_self hb _, moved_of_status hs nofun⟩
  | loses => exact ⟨_, actors_modifyActor_self ha _, moved_of_status hs nofun⟩

/-- the turn of a unit leaves it as it was just if it is stuck, should it be in progress -/
theorem advanceUnit_exact (h : w.status u = .inProgress) :
    (w.advanceUnit u).actors[u]? = w.actors[u]? ↔ w.Stuck u := by
  cases ha : w.actors[u]? with
  | none => simp [Sandbox.status, ha] at h
  | some a =>
    have hs : a.status = .inProgress := by simpa [Sandbox.status, ha] using h
    constructor
    · intro hsame
      refine ⟨a, ha, by_contra fun hstuck => ?_⟩
      obtain ⟨b, hb, hmoved⟩ := moved_advanceUnit ha hs hstuck
      exact hmoved.1 (Option.some.inj (hb.symm.trans hsame))
    · rintro ⟨a', ha', hstuck⟩
      obtain rfl := Option.some.inj (ha.symm.trans ha')
      rw [advanceUnit_passes ha fun _ => hstuck, ha]

/-- its turn makes no unit stuck, and frees none -/
theorem stuck_advanceUnit : (w.advanceUnit u).Stuck u ↔ w.Stuck u := by
  cases ha : w.actors[u]? with
  | none => rw [advanceUnit_of_none ha]
  | some a =>
    by_cases h : a.status = .inProgress ∧ ¬ a.Stuck
    · obtain ⟨b, hb, hmoved⟩ := moved_advanceUnit ha h.1 h.2
      refine iff_of_false ?_ ?_
      · rintro ⟨b', hb', hstuck⟩
        obtain rfl := Option.some.inj (hb.symm.trans hb')
        exact hmoved.2 hstuck
      · rintro ⟨a', ha', hstuck⟩
        obtain rfl := Option.some.inj (ha.symm.trans ha')
        exact h.2 hstuck
    · rw [advanceUnit_passes ha fun hs => by_contra fun hstuck => h ⟨hs, hstuck⟩]

theorem stuck_advance : w.advance.Stuck u ↔ w.Stuck u := by
  obtain ⟨w', hbefore, hafter⟩ := w.actors_advance u
  rw [stuck_congr hafter, stuck_advanceUnit, stuck_congr hbefore]

/-- the next tick leaves a unit in progress as it is just if the unit is stuck -/
theorem advance_exact (h : w.status u = .inProgress) : w.advance.actors[u]? = w.actors[u]? ↔ w.Stuck u := by
  obtain ⟨w', hbefore, hafter⟩ := w.actors_advance u
  have hstatus : w'.status u = .inProgress := by
    rw [Sandbox.status, hbefore]
    exact h
  rw [hafter, ← hbefore, advanceUnit_exact hstatus, stuck_congr hbefore]

/-! ## Changes -/

/-- what can happen in a sandbox that is still furnished and populated -/
inductive Change where
  | addUnit (r : Resident)
  | setTerrain (c : Cube) (t : Terrain)
  | event (e : Event)
  deriving DecidableEq, Repr

def change (w : Sandbox) : Change → Sandbox
  | .addUnit r => w.addUnit r
  | .setTerrain c t => w.setTerrain c t
  | .event e => w.happen e

def changed (w : Sandbox) (changes : List Change) : Sandbox := changes.foldl change w

/-- the unit is killed, or an attack hits it -/
def Change.Slays (w : Sandbox) (u : UnitId) : Change → Prop
  | .event (.kill v) => v = u
  | .event (.command v c) => c = .attack u ∧ w.canHit v u = true
  | _ => False

/-- the unit is commanded or aborted, or there is a new one in its place -/
def Change.Frees (u : UnitId) : Change → Prop
  | .addUnit r => r.id = u
  | .event (.command v _) => v = u
  | .event (.abort v) => v = u
  | _ => False

theorem actors_addUnit (w : Sandbox) (r : Resident) (v : UnitId) :
    (w.addUnit r).actors[v]? = if r.id = v then some { unit := r } else w.actors[v]? := by
  rw [addUnit, Std.ExtTreeMap.getElem?_insert]
  by_cases h : r.id = v <;> simp [h]

variable {x : Change}

theorem actors_change_of_slays (h : x.Slays w u) : (w.change x).actors[u]? = (w.kill u).actors[u]? := by
  cases x with
  | addUnit r => exact h.elim
  | setTerrain c t => exact h.elim
  | event e =>
    cases e with
    | command v c =>
      have hne : v ≠ u := (alive_of_canHit h.2).1
      exact (actors_command_of_ne hne c).trans (if_pos h)
    | kill v =>
      obtain rfl : v = u := h
      rfl
    | abort v => exact h.elim
    | advance => exact h.elim

theorem not_stuck_change (h : x.Frees u) : ¬ (w.change x).Stuck u := by
  cases x with
  | addUnit r =>
    obtain rfl : r.id = u := h
    rintro ⟨a, ha, hs, -⟩
    have hnew : (w.change (.addUnit r)).actors[r.id]? = _ := w.actors_addUnit r r.id
    rw [if_pos rfl, ha] at hnew
    rw [Option.some.inj hnew] at hs
    cases hs
  | setTerrain c t => exact h.elim
  | event e =>
    cases e with
    | command v c =>
      obtain rfl : v = u := h
      exact not_stuck_command c
    | kill v => exact h.elim
    | abort v =>
      obtain rfl : v = u := h
      exact not_stuck_abort
    | advance => exact h.elim

/-- any other change leaves a unit as it is, or is the passing of time -/
theorem actors_change (hs : ¬ x.Slays w u) (hf : ¬ x.Frees u) :
    (w.change x).actors[u]? = w.actors[u]? ∨ x = .event .advance := by
  cases x with
  | addUnit r => exact .inl ((w.actors_addUnit r u).trans (if_neg hf))
  | setTerrain c t => exact .inl rfl
  | event e =>
    cases e with
    | command v c => exact .inl ((actors_command_of_ne hf c).trans (if_neg hs))
    | kill v => exact .inl (actors_modifyActor_of_ne hs _)
    | abort v => exact .inl (actors_modifyActor_of_ne hf _)
    | advance => exact .inr rfl

/-- **One change and one unit**: it is stuck afterwards if it is slain in mid-action, or was stuck and is not freed -/
theorem stuck_change :
    (w.change x).Stuck u ↔ x.Slays w u ∧ w.status u = .inProgress ∨ w.Stuck u ∧ ¬ x.Frees u := by
  have hslays (h : x.Slays w u) : (w.change x).Stuck u ↔ w.status u = .inProgress :=
    (stuck_congr (actors_change_of_slays h)).trans stuck_kill
  by_cases hf : x.Frees u
  · refine iff_of_false (not_stuck_change hf) ?_
    rintro (⟨hs, hstatus⟩ | ⟨-, hkept⟩)
    · exact not_stuck_change hf ((hslays hs).2 hstatus)
    · exact hkept hf
  · by_cases hs : x.Slays w u
    · rw [hslays hs]
      exact ⟨fun h => .inl ⟨hs, h⟩, fun h => h.elim And.right fun h => h.1.status⟩
    · have hsame : (w.change x).Stuck u ↔ w.Stuck u := by
        obtain h | rfl := actors_change hs hf
        · exact stuck_congr h
        · exact stuck_advance
      rw [hsame]
      exact ⟨fun h => .inr ⟨h, hf⟩, fun h => h.elim (fun h => absurd h.1 hs) And.left⟩

/-! ## Sequences of changes -/

/-- who was not stuck before is stuck afterwards if it was slain in mid-action and not freed since -/
theorem stuck_changed (h : ¬ w.Stuck u) (changes : List Change) :
    (w.changed changes).Stuck u ↔ ∃ pre x post, changes = pre ++ x :: post ∧ x.Slays (w.changed pre) u ∧
      (w.changed pre).status u = .inProgress ∧ ∀ y ∈ post, ¬ y.Frees u := by
  induction changes using List.reverseRecOn with
  | nil => exact iff_of_false h fun ⟨_, _, _, hnil, _⟩ => by simp at hnil
  | append_singleton changes y ih =>
    have hlast : w.changed (changes ++ [y]) = (w.changed changes).change y := List.foldl_append
    rw [hlast, stuck_change, ih]
    constructor
    · rintro (⟨hs, hstatus⟩ | ⟨⟨pre, x, post, rfl, hs, hstatus, hkept⟩, hy⟩)
      · exact ⟨changes, y, [], rfl, hs, hstatus, nofun⟩
      · refine ⟨pre, x, post ++ [y], by simp, hs, hstatus, ?_⟩
        simpa [or_imp, forall_and] using ⟨hkept, hy⟩
    · rintro ⟨pre, x, post, hsplit, hs, hstatus, hkept⟩
      cases post using List.reverseRecOn with
      | nil =>
        obtain ⟨rfl, hxy⟩ := List.append_inj' hsplit rfl
        obtain rfl := List.singleton_inj.1 hxy
        exact .inl ⟨hs, hstatus⟩
      | append_singleton post z =>
        rw [← List.cons_append, ← List.append_assoc] at hsplit
        obtain ⟨rfl, hyz⟩ := List.append_inj' hsplit rfl
        obtain rfl := List.singleton_inj.1 hyz
        simp only [List.mem_append, List.mem_singleton, or_imp, forall_and, forall_eq] at hkept
        exact .inr ⟨⟨pre, x, post, rfl, hs, hstatus, hkept.1⟩, hkept.2⟩

/-- the stuck are dead if they always were -/
theorem dead_of_stuck (h : ∀ u, w.Stuck u → w.isAlive u = false) (changes : List Change) :
    ∀ u, (w.changed changes).Stuck u → (w.changed changes).isAlive u = false := by
  refine List.foldlRecOn changes change (motive := fun w => ∀ u, w.Stuck u → w.isAlive u = false) h ?_
  intro w ih x _ u hstuck
  by_cases hs : x.Slays w u
  · exact (isAlive_congr (actors_change_of_slays hs)).trans (w.isAlive_kill u)
  · obtain ⟨hslays, -⟩ | ⟨hbefore, hf⟩ := stuck_change.1 hstuck
    · exact absurd hslays hs
    · have hsame : (w.change x).actors[u]? = w.actors[u]? := by
        obtain hsame | rfl := actors_change hs hf
        · exact hsame
        · exact (advance_exact hbefore.status).2 hbefore
      exact (isAlive_congr hsame).trans (ih u hbefore)

/-- **The stuck are the slain.** Begin with a sandbox without units and let anything happen: units are added, cubes
filled, commands given, actions aborted, units killed, and time passes. A unit is stuck just if it was slain, by an
attack or otherwise, while its action was in progress, and has neither been commanded nor aborted nor replaced since.
So a living unit in progress always has something to do. The next tick leaves the stuck as they are, and moves everybody
else on who is in progress. -/
theorem stuck_exact (h : w.actors = ∅) (changes : List Change) (u : UnitId) :
    let now := w.changed changes
    (now.Stuck u ↔ ∃ pre x post, changes = pre ++ x :: post ∧ x.Slays (w.changed pre) u ∧
      (w.changed pre).status u = .inProgress ∧ ∀ y ∈ post, ¬ y.Frees u) ∧
    (now.Stuck u → now.isAlive u = false) ∧
    (now.status u = .inProgress → (now.advance.actors[u]? = now.actors[u]? ↔ now.Stuck u)) := by
  intro now
  have hnobody : ∀ u, ¬ w.Stuck u := by
    rintro u ⟨a, ha, -⟩
    simp [h] at ha
  exact ⟨stuck_changed (hnobody u) changes, dead_of_stuck (fun u hu => absurd hu (hnobody u)) changes u, advance_exact⟩

/-- a unit on its way passes another, which slays it -/
def ambush : List Change :=
  [.addUnit { id := ⟨7⟩, faction := ⟨1⟩, position := ⟨0, 0, 0⟩ },
    .addUnit { id := ⟨8⟩, faction := ⟨2⟩, position := ⟨1, 0, 0⟩ },
    .event (.command ⟨7⟩ (.moveTo ⟨3, 0, 0⟩ false)), .event (.command ⟨8⟩ (.attack ⟨7⟩))]

/-- the unit seems to be on its way for as long as nobody asks for anything else; an abort would free it -/
theorem stuck_exact_ambush :
    let field : Sandbox := { size := ⟨4, 1, 1⟩ }
    let now := field.changed ambush
    field.actors = ∅ ∧ now.Stuck ⟨7⟩ ∧ now.isAlive ⟨7⟩ = false ∧
      now.advance.actors[(⟨7⟩ : UnitId)]? = now.actors[(⟨7⟩ : UnitId)]? ∧
      ¬ (field.changed (ambush ++ [.event (.abort ⟨7⟩)])).Stuck ⟨7⟩ := by
  intro field now
  obtain ⟨hslain, hdead, hpasses⟩ := stuck_exact (w := field) rfl ambush ⟨7⟩
  have hstuck : now.Stuck ⟨7⟩ :=
    hslain.2 ⟨ambush.take 3, _, [], rfl, ⟨rfl, by decide +kernel⟩, by decide +kernel, nofun⟩
  refine ⟨rfl, hstuck, hdead hstuck, (hpasses hstuck.status).2 hstuck, ?_⟩
  rw [changed, List.foldl_append]
  exact not_stuck_abort

/-- so a unit in progress need not be alive, nor have anything to do -/
theorem slain_in_progress :
    ¬ ∀ (w : Sandbox) (changes : List Change) (u : UnitId) (a : Actor), w.actors = ∅ →
      (w.changed changes).actors[u]? = some a → a.status = .inProgress →
        a.unit.alive = true ∧ a.activity ≠ .idle := by
  intro h
  have hvictim : (({ size := ⟨4, 1, 1⟩ } : Sandbox).changed ambush).actors[(⟨7⟩ : UnitId)]? =
      some { unit := { id := ⟨7⟩, faction := ⟨1⟩, position := ⟨0, 0, 0⟩, alive := false }, status := .inProgress } := by
    decide +kernel
  exact absurd (h _ ambush ⟨7⟩ _ rfl hvictim rfl).1 (by simp)

end Sandbox

end Errand
