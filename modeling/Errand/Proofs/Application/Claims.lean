/-
Claims: the table of an application and its tasks name the same holders.

`Agree` says that the table maps `u` to `t` exactly when `t` exists and is held by `u`. Every move keeps it
(`moves_agree`): a move leaves both sides alone, frees one task on both sides, or lets one unit claim one task on both
sides. So no unit holds two tasks and no task is held by two units in any run, and a tick only makes advances on behalf
of the unit that holds the task already (`run_claims`).
-/
import Errand.Proofs.Application.Moves
import Errand.Rehearsal

namespace Errand

namespace Arena

/-! ## Holders -/

/-- the unit that holds a task, as the task has it -/
def holder? (a : Arena) (t : TaskId) : Option UnitId := (a.get? t).bind (·.unit?)

theorem holder?_eq_some {a : Arena} {t : TaskId} {u : UnitId} :
    a.holder? t = some u ↔ ∃ task, a.get? t = some task ∧ task.unit? = some u :=
  Option.bind_eq_some_iff

theorem holder?_of_get? {a : Arena} {t : TaskId} {task : Task} (h : a.get? t = some task) :
    a.holder? t = task.unit? := by
  rw [holder?, h]
  rfl

theorem holder?_modify {a : Arena} {t : TaskId} {f : Task → Task} {o : Option UnitId}
    (hf : ∀ task, a.get? t = some task → (f task).unit? = o) (ht : a.get? t = none → o = none) (t' : TaskId) :
    (a.modify t f).holder? t' = if t' = t then o else a.holder? t' := by
  unfold holder?
  rw [get?_modify]
  by_cases h : t = t'
  · subst t'
    cases hg : a.get? t with
    | none => simp [ht hg]
    | some task => simpa using hf task hg
  · rw [if_neg h, if_neg (Ne.symm h)]

theorem holder?_modify_free {a : Arena} {t : TaskId} {f : Task → Task} (hf : ∀ task, (f task).unit? = none)
    (t' : TaskId) : (a.modify t f).holder? t' = if t' = t then none else a.holder? t' :=
  holder?_modify (fun task _ => hf task) (fun _ => rfl) t'

theorem holder?_modify_keep {a : Arena} {t : TaskId} {f : Task → Task}
    (hf : ∀ task, a.get? t = some task → (f task).unit? = task.unit?) (t' : TaskId) :
    (a.modify t f).holder? t' = a.holder? t' := by
  rw [holder?_modify (o := a.holder? t) (fun task h => (hf task h).trans (holder?_of_get? h).symm)
    (fun h => by rw [holder?, h]; rfl)]
  split
  · subst t'
    rfl
  · rfl

theorem holder?_insert (a : Arena) (task : Task) (t : TaskId) : (a.insert task).2.holder? t = a.holder? t := by
  unfold holder?
  rw [get?_insert]
  split
  · rename_i hi
    rw [get?_eq_none_of_size_le hi.ge]
    rfl
  · rfl

end Arena

namespace Application

variable {σ ρ : Type} {app app' : Application ρ}

/-! ## The agreement -/

/-- table and tasks name the same holders -/
def Agree (app : Application ρ) : Prop := ∀ u t, app.claims[u]? = some t ↔ app.tasks.holder? t = some u

namespace Agree

theorem initial (settings : Settings) (picker : ρ) : (initial settings picker).Agree := by
  intro u t
  simp [Application.initial, Arena.holder?, Arena.get?]

/-- neither side changes -/
theorem same (h : app.Agree) (hc : app'.claims = app.claims) (hh : ∀ t, app'.tasks.holder? t = app.tasks.holder? t) :
    app'.Agree := by
  intro u t
  rw [hc, hh]
  exact h u t

theorem freed (h : app.Agree) {t : TaskId} {u : UnitId} (hu : app.claims[u]? = some t)
    (hc : app'.claims = app.claims.erase u)
    (hh : ∀ t', app'.tasks.holder? t' = if t' = t then none else app.tasks.holder? t') : app'.Agree := by
  intro v t'
  rw [hc, hh, Std.ExtTreeMap.getElem?_erase]
  have ht : app.tasks.holder? t = some u := (h u t).1 hu
  by_cases hv : u = v
  · subst v
    -- the table has nothing for `u` now, and `t` was all that `u` held
    have : t' ≠ t → app.tasks.holder? t' ≠ some u := fun hne he => hne (by simpa [hu] using ((h u t').2 he).symm)
    by_cases ht' : t' = t <;> simp_all
  · rw [if_neg (by simpa using hv), h v t']
    by_cases ht' : t' = t <;> simp_all

theorem claimed (h : app.Agree) {t : TaskId} {u : UnitId} (hu : app.claims[u]? = none)
    (ht : app.tasks.holder? t = none) (hc : app'.claims = app.claims.insert u t)
    (hh : ∀ t', app'.tasks.holder? t' = if t' = t then some u else app.tasks.holder? t') : app'.Agree := by
  intro v t'
  rw [hc, hh, Std.ExtTreeMap.getElem?_insert]
  by_cases hv : u = v
  · subst v
    have : app.tasks.holder? t' ≠ some u := fun he => by simpa [hu] using (h u t').2 he
    by_cases ht' : t' = t <;> simp_all [eq_comm]
  · rw [if_neg (by simpa using hv), h v t']
    by_cases ht' : t' = t <;> simp_all

/-- one task is freed, and the table is told who held it -/
theorem freeing (h : app.Agree) {t : TaskId} (hc : app'.claims = app.claims)
    (hh : ∀ t', app'.tasks.holder? t' = if t' = t then none else app.tasks.holder? t') :
    (app'.freeing (app.tasks.holder? t)).Agree := by
  cases ht : app.tasks.holder? t with
  | none =>
    refine h.same hc fun t' => ?_
    rw [Application.freeing, hh]
    split
    · subst t'
      exact ht.symm
    · rfl
  | some u => exact h.freed ((h u t).2 ht) (by rw [Application.freeing, hc]) hh

end Agree

/-! ## Moves keep the agreement -/

theorem holder?_finish (app : Application ρ) (t : TaskId) (u : UnitId) (t' : TaskId) :
    (app.finish t u).tasks.holder? t' = if t' = t then none else app.tasks.holder? t' := by
  apply finish_keeps (P := fun app' => app'.tasks.holder? t' = if t' = t then none else app.tasks.holder? t')
  · exact Arena.holder?_modify_free (fun _ => rfl) t'
  · intro app' s h
    obtain ⟨e, he⟩ | ⟨sched, slot, -, -, he⟩ := app'.unschedule_cases s t
    · rwa [leavePool, he]
    · rw [leavePool, he, ← h]
      exact Arena.holder?_modify_keep (f := (·.quit sched.id)) (fun _ _ => rfl) t'

variable [Host σ] [Picker ρ]

/-- **Every move keeps the agreement** -/
theorem moves_agree (hm : Moves σ app app') (h : app.Agree) : app'.Agree := by
  cases hm with
  | addTask t => exact h.same rfl (app.tasks.holder?_insert t)
  | addScheduler hf => exact h.same rfl fun _ => rfl
  | replace hs hi ht hu hc hf hw =>
    rw [← Arena.holder?_of_get? ht]
    refine h.freeing rfl fun t' => ?_
    -- the newcomer was free before, so it is as if its holder were left alone
    rw [Arena.holder?_modify_keep, Arena.holder?_modify_free fun _ => rfl]
    intro task hn
    rw [Arena.get?_modify, hu] at hn
    split at hn
    · obtain rfl := Option.some.inj hn
      rfl
    · obtain rfl := Option.some.inj hn
      exact hf.symm
  | claim hs hm hu ht hf =>
    refine h.claimed hu ((Arena.holder?_of_get? ht).trans hf) rfl ?_
    exact Arena.holder?_modify (fun _ _ => rfl) fun hn => by simp [hn] at ht
  | free ht =>
    rw [← Arena.holder?_of_get? ht]
    exact h.freeing rfl (Arena.holder?_modify_free fun _ => rfl)
  | unschedule hs hi => exact h.same rfl (Arena.holder?_modify_keep fun _ _ => rfl)
  | setPriority ht priority => exact h.same rfl (Arena.holder?_modify_keep fun _ _ => rfl)
  | advance hc ht o picker =>
    refine h.same rfl (Arena.holder?_modify_keep fun task ht' => ?_)
    rw [Task.unit?_advanced, ← Arena.holder?_of_get? ht']
    exact ((h _ _).1 hc).symm
  | finish hc ht hd => exact h.freed hc (claims_finish app _ _) (holder?_finish app _ _)
  | fail hc ht hd => exact h.freed hc rfl (Arena.holder?_modify_free fun _ => rfl)
  | forget hc ht =>
    obtain ⟨task, ht', -⟩ := Arena.holder?_eq_some.1 ((h _ _).1 hc)
    rw [ht] at ht'
    exact absurd ht' (by simp)

omit [Host σ] [Picker ρ] in
theorem registers_agree (hr : Registers app app') (h : app.Agree) : app'.Agree := by
  obtain ⟨hs, ht, hc, hw⟩ := hr
  exact h.same rfl (Arena.holder?_modify_keep fun _ _ => rfl)

theorem chain_agree (hm : Chain σ app app') (h : app.Agree) : app'.Agree := hm.keeps (fun _ _ => moves_agree) h

/-! ## Runs -/

open Running in
/-- **One claim at a time.** After any operations, with any arguments and hosts, the table maps `u` to `t` exactly when
`t` exists and `u` holds it; so no unit holds two tasks and no task is held by two units. A tick from there steps the
claims that stand after its first two phases, each in a state where its unit holds its task; so the advance neither
interrupts the task nor starts it anew. -/
theorem run_claims (settings : Settings) (picker : ρ) (ops : List (Op σ)) :
    let app := (initial settings picker).run ops
    (∀ u t, app.claims[u]? = some t ↔ ∃ task, app.tasks.get? t = some task ∧ task.unit? = some u) ∧
    (∀ u t t' task task', app.tasks.get? t = some task → app.tasks.get? t' = some task' →
      task.unit? = some u → task'.unit? = some u → t = t') ∧
    (∀ (u v : UnitId) (t : TaskId), app.claims[u]? = some t → app.claims[v]? = some t → u = v) ∧
    ∀ (host : σ) (output : List Printed) (pre post : List (UnitId × TaskId)) (u : UnitId) (t : TaskId),
      let begun := ({ app, host, output } : Running σ ρ).releaseDead.assignIdle
      begun.app.claims.toList = pre ++ (u, t) :: post →
      app.tick host output = ((begun.stepEach pre).stepClaim u t).stepEach post ∧
      ∃ task, (begun.stepEach pre).app.tasks.get? t = some task ∧ task.unit? = some u ∧
        ∀ host' : σ, task.claimFor u host' = (task, host') := by
  intro app
  have hagree : app.Agree :=
    run_keeps (fun _ _ => moves_agree) (fun _ _ => registers_agree) (Agree.initial settings picker) ops
  refine ⟨fun u t => (hagree u t).trans Arena.holder?_eq_some, ?_, ?_, ?_⟩
  · intro u t t' task task' ht ht' hu hu'
    have h := (hagree u t).2 (Arena.holder?_eq_some.2 ⟨task, ht, hu⟩)
    have h' := (hagree u t').2 (Arena.holder?_eq_some.2 ⟨task', ht', hu'⟩)
    exact Option.some.inj (h.symm.trans h')
  · intro u v t hu hv
    exact Option.some.inj (((hagree u t).1 hu).symm.trans ((hagree v t).1 hv))
  · intro host output pre post u t begun hsplit
    have hbegun : begun.app.Agree := chain_agree ((chain_releaseDead _).trans (chain_assignIdle _)) hagree
    have hturn : (begun.stepEach pre).app.Agree := chain_agree (chain_stepEach _ hsplit) hbegun
    obtain ⟨task, ht, hu⟩ := Arena.holder?_eq_some.1 ((hturn u t).1 (stands_at_turn _ hsplit))
    refine ⟨?_, task, ht, hu, Task.claimFor_of_unit? hu⟩
    calc app.tick host output = begun.stepEach (pre ++ (u, t) :: post) := by rw [← hsplit]; rfl
      _ = ((begun.stepEach pre).stepClaim u t).stepEach post := by simp [stepEach]

def threeUnits : Rehearsal where
  world :=
    { size := ⟨4, 4, 1⟩
      figures := [{ id := ⟨7⟩, faction? := some ⟨1⟩ }, { id := ⟨8⟩, faction? := some ⟨2⟩ },
        { id := ⟨9⟩, faction? := some ⟨3⟩ }] : Setting }.world

/-- three pools, of which the first two hold the same task -/
def threePools : List (Op Rehearsal) :=
  [.addTask (Task.make "greet" 2 (.print {} (.boolean {} true))),
    .addTask (Task.make "part" 1 (.print {} (.boolean {} false))),
    .addScheduler ⟨1⟩, .addScheduler ⟨2⟩, .addScheduler ⟨3⟩, .schedule ⟨0⟩ ⟨0⟩, .schedule ⟨1⟩ ⟨0⟩, .schedule ⟨2⟩ ⟨1⟩]

/-- the shared task goes to the first unit only; the third still holds the other task when it is stepped -/
theorem run_claims_threePools :
    let app := (initial {} (Replay.mk [])).run threePools
    let begun := ({ app, host := threeUnits } : Running Rehearsal Replay).releaseDead.assignIdle
    begun.app.claims.toList = [(⟨7⟩, ⟨0⟩)] ++ (⟨9⟩, ⟨1⟩) :: [] ∧
      ∃ task, (begun.stepEach [(⟨7⟩, ⟨0⟩)]).app.tasks.get? ⟨1⟩ = some task ∧ task.unit? = some ⟨9⟩ ∧
        ∀ host : Rehearsal, task.claimFor ⟨9⟩ host = (task, host) := by
  intro app begun
  have hclaims : begun.app.claims.toList = [(⟨7⟩, ⟨0⟩)] ++ (⟨9⟩, ⟨1⟩) :: [] := by decide +kernel
  obtain ⟨-, -, -, hturns⟩ := run_claims {} (Replay.mk []) threePools
  exact ⟨hclaims, (hturns threeUnits [] _ _ _ _ hclaims).2⟩

end Application

end Errand
