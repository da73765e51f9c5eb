/-
Reports: what a tick tells about claims and tasks is what has happened to them.

The first two phases change no more of a task than who holds it and how far it has come (`Task.Kept`); what is assigned
stands in the table, and so does every earlier claim of a unit that lives (`Begun`). In the third phase each claim has
one turn (`turn_stepClaim`): its task is done and leaves every pool, or fails and waits fresh and less urgent, or goes
on under its unit. `Tells` says that the report lists just the first two kinds, each task once; since nobody holds a
task that ended, it has no second turn. `tick_report` puts the phases together.
-/
import Errand.Proofs.Application.Assignment

namespace Errand

/-! ## What a tick makes of a task -/

namespace Task

/-- a task that differs at most in how far it has come and in who holds it -/
structure Kept (t t' : Task) : Prop extends Same t t' where
  priority : t'.priority = t.priority

/-- the same unit holds it, too -/
structure Ongoing (t t' : Task) : Prop extends Kept t t' where
  unit : t'.unit? = t.unit?

/-- a task that is done: neither a unit nor a pool has it -/
structure Ended (t : Task) : Prop where
  done : t.state = .done
  unit : t.unit? = none
  loose : t.schedulers = ∅

/-- a task that failed: it waits fresh in its pools, less urgent than before -/
structure SetBack (penalty : Int64) (t t' : Task) : Prop extends Same t t' where
  unit : t'.unit? = none
  fresh : t'.Fresh
  priority : t'.priority = Application.lowered t.priority penalty

variable {t t' t'' : Task}

theorem Kept.refl (t : Task) : Kept t t := ⟨.refl t, rfl⟩

theorem Kept.trans (h : Kept t t') (h' : Kept t' t'') : Kept t t'' :=
  ⟨h.toSame.trans h'.toSame, h'.priority.trans h.priority⟩

theorem Ongoing.refl (t : Task) : Ongoing t t := ⟨.refl t, rfl⟩

theorem Ongoing.trans (h : Ongoing t t') (h' : Ongoing t' t'') : Ongoing t t'' :=
  ⟨h.toKept.trans h'.toKept, h'.unit.trans h.unit⟩

theorem Kept.setBack {penalty : Int64} (h : Kept t t') (h' : SetBack penalty t' t'') : SetBack penalty t t'' :=
  ⟨h.toSame.trans h'.toSame, h'.unit, h'.fresh, h'.priority.trans (by rw [h.priority])⟩

theorem kept_claim (t : Task) (u : UnitId) : Kept t (t.claim u) := ⟨t.same_claim u, rfl⟩

theorem kept_release (t : Task) : Kept t t.release.2 := ⟨t.same_release, rfl⟩

/-- the task that waits again after it failed -/
def demoted (penalty : Int64) (t : Task) : Task :=
  { t.release.2 with priority := Application.lowered t.priority penalty }

theorem setBack_demoted (penalty : Int64) (t : Task) : SetBack penalty t (t.demoted penalty) where
  toSame := ⟨rfl, t.body.reset_reset, rfl, rfl, rfl⟩
  unit := rfl
  fresh := t.fresh_release.of_eq rfl rfl rfl
  priority := rfl

variable {σ ρ : Type} [Host σ] [Picker ρ]

theorem ongoing_advanced {u : UnitId} (hu : t.unit? = some u) (o : Outside σ ρ) : Ongoing t (t.advanced u o) where
  toSame := t.same_advanced u o
  priority := by
    rw [advanced_eq, heldBy_eq, if_pos hu]
  unit := by
    rw [unit?_advanced, hu]

end Task

/-! ## Arenas that are kept -/

namespace Arena

variable {R : Task → Task → Prop} {a a' a'' : Arena} {before after : Option Task}

theorem exists_after {task : Task} (h : Option.Rel R (some task) after) :
    ∃ task', after = some task' ∧ R task task' := by
  cases h with
  | some h => exact ⟨_, rfl, h⟩

theorem exists_before {task' : Task} (h : Option.Rel R before (some task')) :
    ∃ task, before = some task ∧ R task task' := by
  cases h with
  | some h => exact ⟨_, rfl, h⟩

theorem rel_trans (hR : ∀ {t t' t'' : Task}, R t t' → R t' t'' → R t t'') {between : Option Task} :
    Option.Rel R before between → Option.Rel R between after → Option.Rel R before after
  | .none, .none => .none
  | .some h, .some h' => .some (hR h h')

theorem map_eq_of_rel {α : Type} {f : Task → α} (hf : ∀ task task', R task task' → f task' = f task)
    (h : Option.Rel R before after) : after.map f = before.map f := by
  cases h with
  | none => rfl
  | some h => exact congrArg some (hf _ _ h)

theorem isSome_eq_of_rel (h : Option.Rel R before after) : after.isSome = before.isSome := by
  cases h <;> rfl

/-- memberships are those of the handles -/
theorem joined_congr {t : TaskId} (h : (a'.get? t).map (·.schedulers) = (a.get? t).map (·.schedulers))
    (s : SchedulerId) : a'.Joined t s ↔ a.Joined t s := by
  have hmap : ∀ a : Arena, a.Joined t s ↔ ∃ handles, (a.get? t).map (·.schedulers) = some handles ∧ s ∈ handles := by
    intro a
    simp [Joined]
  rw [hmap, hmap, h]

/-- every task stands in a relation to what it was; none has come, none has gone -/
def Related (R : Task → Task → Prop) (a a' : Arena) : Prop := ∀ t, Option.Rel R (a.get? t) (a'.get? t)

theorem Related.refl (hR : ∀ task, R task task) (a : Arena) : Related R a a := by
  intro t
  cases a.get? t with
  | none => exact .none
  | some task => exact .some (hR task)

theorem Related.trans (hR : ∀ {t t' t'' : Task}, R t t' → R t' t'' → R t t'') (h : Related R a a')
    (h' : Related R a' a'') : Related R a a'' :=
  fun t => rel_trans hR (h t) (h' t)

theorem Related.modify (hR : ∀ task, R task task) {t : TaskId} {f : Task → Task}
    (hf : ∀ task, a.get? t = some task → R task (f task)) : Related R a (a.modify t f) := by
  intro t'
  rw [get?_modify]
  split
  · subst t'
    cases ht : a.get? t with
    | none => exact .none
    | some task => exact .some (hf task ht)
  · exact Related.refl hR a t'

end Arena

namespace Application

variable {σ ρ : Type}

/-- a difference that would leave the range of priorities stops at its end -/
theorem toInt_lowered (priority penalty : Int64) :
    (lowered priority penalty).toInt = max (-2 ^ 63) (min (priority.toInt - penalty.toInt) (2 ^ 63 - 1)) := by
  unfold lowered Int64.ofIntClamp
  split
  · split
    · rw [Int64.toInt_ofIntLE]
      rw [Int64.toInt_minValue] at *
      rw [Int64.toInt_maxValue] at *
      omega
    · rw [Int64.toInt_maxValue] at *
      rw [Int64.toInt_minValue] at *
      omega
  · rw [Int64.toInt_minValue] at *
    omega

theorem moves_settings [Host σ] [Picker ρ] {app app' : Application ρ} (hm : Moves σ app app') :
    app'.settings = app.settings := by
  have hfreeing : ∀ (app : Application ρ) freed, (app.freeing freed).settings = app.settings := by
    intro app freed
    cases freed <;> rfl
  cases hm with
  | replace => exact hfreeing _ _
  | free => exact hfreeing _ _
  | @finish u t =>
    apply finish_keeps (P := fun app' => app'.settings = app.settings)
    · rfl
    · intro app' s h
      obtain ⟨e, he⟩ | ⟨sched, slot, -, -, he⟩ := app'.unschedule_cases s t
      · rwa [leavePool, he]
      · rw [leavePool, he]
        exact h
  | _ => rfl

theorem chain_settings [Host σ] [Picker ρ] {app app' : Application ρ} (hc : Chain σ app app') :
    app'.settings = app.settings :=
  hc.keeps (P := fun app' => app'.settings = app.settings) (fun _ _ hm h => (moves_settings hm).trans h) rfl

theorem claims_freeing (app : Application ρ) (freed : Option UnitId) (v : UnitId) :
    (app.freeing freed).claims[v]? = if freed = some v then none else app.claims[v]? := by
  cases freed with
  | none => rfl
  | some u => simp [freeing, Std.ExtTreeMap.getElem?_erase]

end Application

namespace Running

open Application

variable {σ ρ : Type} {app : Application ρ} {alive : UnitId → Bool} {r : Running σ ρ}

/-! ## The first two phases -/

/-- no claim has been stepped yet: tasks are as they were except for who holds them, the claims of living units stand,
and so does what is reported as assigned -/
structure Begun (app : Application ρ) (alive : UnitId → Bool) (r : Running σ ρ) : Prop where
  tasks : Arena.Related Task.Kept app.tasks r.app.tasks
  completed : r.report.completed = []
  failed : r.report.failed = []
  errors : r.report.errors = []
  stands : ∀ u t, app.claims[u]? = some t → alive u = true → r.app.claims[u]? = some t
  assigned : ∀ c ∈ r.report.assigned, r.app.claims[c.1]? = some c.2
  once : (r.report.assigned.map (·.1)).Nodup

theorem Begun.claiming (h : Begun app alive r) {u : UnitId} {t : TaskId} (hu : r.app.claims[u]? = none) :
    Begun app alive (r.claiming (u, t)) where
  tasks := h.tasks.trans .trans (.modify .refl fun task _ => task.kept_claim u)
  completed := h.completed
  failed := h.failed
  errors := h.errors
  stands v t' hv ha := claims_claiming_of_some hu (h.stands v t' hv ha)
  assigned c hc := by
    rcases List.mem_append.1 hc with hc | hc
    · exact claims_claiming_of_some hu (h.assigned c hc)
    · obtain rfl := List.mem_singleton.1 hc
      rw [claims_claiming, if_pos rfl]
  once := by
    have hnew : u ∉ r.report.assigned.map (·.1) := by
      intro hm
      obtain ⟨c, hc, rfl⟩ := List.mem_map.1 hm
      rw [h.assigned c hc] at hu
      cases hu
    have hmap : (r.claiming (u, t)).report.assigned.map (·.1) = r.report.assigned.map (·.1) ++ [u] := by
      simp [Running.claiming]
    rw [hmap, ← List.concat_eq_append, List.nodup_concat]
    exact ⟨hnew, h.once⟩

variable [Host σ]

/-- the task is unknown, and nothing happens, or it is released -/
theorem freeDead_cases (r : Running σ ρ) (t : TaskId) :
    r.freeDead t = r ∨
      ∃ task, r.app.tasks.get? t = some task ∧
        r.freeDead t =
          { r with
            app := { r.app with tasks := r.app.tasks.modify t fun _ => task.release.2 }.freeing task.unit?
            host := (task.interrupt r.host).2.2
            report := { r.report with interrupted := r.report.interrupted ++ [t] } } := by
  unfold freeDead
  obtain ⟨e, he⟩ | ⟨task, ht, he⟩ := r.app.interrupt_cases t r.host
  · left
    rw [he]
  · right
    exact ⟨task, ht, by rw [he]⟩

/-- the first phase takes claims of dead units only, and nothing else happens to the table -/
theorem Begun.freeDead (h : Begun app alive r) (hagree : app.Agree) (hagree' : r.app.Agree)
    (hnone : r.report.assigned = []) (hback : ∀ (v : UnitId) t, r.app.claims[v]? = some t → app.claims[v]? = some t)
    {u : UnitId} {t : TaskId} (hc : app.claims[u]? = some t) (hdead : alive u = false) :
    Begun app alive (r.freeDead t) ∧ (r.freeDead t).report.assigned = [] ∧
      ∀ (v : UnitId) t', (r.freeDead t).app.claims[v]? = some t' → app.claims[v]? = some t' := by
  obtain he | ⟨task, ht, he⟩ := r.freeDead_cases t
  · rw [he]
    exact ⟨h, hnone, hback⟩
  · -- whoever is freed has held the task from the start, so it is the dead unit
    have hfreed : ∀ v, task.unit? = some v → v = u := by
      intro v hv
      have hheld : r.app.tasks.holder? t = some v := (Arena.holder?_of_get? ht).trans hv
      have hbefore : app.tasks.holder? t = some v := (hagree v t).1 (hback v t ((hagree' v t).2 hheld))
      exact Option.some.inj (hbefore.symm.trans ((hagree u t).1 hc))
    rw [he]
    refine ⟨⟨?_, h.completed, h.failed, h.errors, ?_, ?_, h.once⟩, hnone, ?_⟩
    · rw [tasks_freeing]
      refine h.tasks.trans .trans (.modify .refl fun task' ht' => ?_)
      obtain rfl := Option.some.inj (ht.symm.trans ht')
      exact task.kept_release
    · intro v t' hv ha
      rw [claims_freeing, if_neg]
      · exact h.stands v t' hv ha
      · intro hfree
        rw [hfreed v hfree, hdead] at ha
        cases ha
    · intro c hm
      rw [hnone] at hm
      cases hm
    · intro v t' hv
      rw [claims_freeing] at hv
      split at hv
      · cases hv
      · exact hback v t' hv

variable [Picker ρ]

theorem begun_releaseDead (h : app.Regular) (host : σ) (output : List Printed) :
    Begun app (Host.world host).isAlive ({ app, host, output } : Running σ ρ).releaseDead := by
  let P (r : Running σ ρ) : Prop :=
    r.app.Regular ∧ Begun app (Host.world host).isAlive r ∧ r.report.assigned = [] ∧
      ∀ (v : UnitId) t, r.app.claims[v]? = some t → app.claims[v]? = some t
  have hphase : P ({ app, host, output } : Running σ ρ).releaseDead := by
    apply List.foldlRecOn (motive := P)
    · refine ⟨h, ⟨.refl .refl _, rfl, rfl, rfl, fun _ _ hv _ => hv, ?_, List.nodup_nil⟩, rfl, fun _ _ hv => hv⟩
      intro c hm
      cases hm
    · intro r hr c hc
      obtain ⟨hregular, hbegun, hnone, hback⟩ := hr
      obtain ⟨hmem, hdead⟩ := List.mem_filter.1 hc
      have hclaim : app.claims[c.1]? = some c.2 := Std.ExtTreeMap.mem_toList_iff_getElem?_eq_some.1 hmem
      refine ⟨hregular.chain (r.chain_freeDead c.2), ?_⟩
      exact hbegun.freeDead h.agree hregular.agree hnone hback hclaim (by simpa using hdead)
  exact hphase.2.1

omit [Picker ρ] in
theorem begun_assignIdle (h : Begun app alive r) : Begun app alive r.assignIdle := by
  rw [assignIdle_eq]
  apply offerEach_keeps (P := Begun app alive)
  · intro r u t task _ hu _ _ h
    exact h.claiming hu
  · exact h

/-! ## The third phase -/

/-- how the turn of a claim ends, for the report and for its task -/
inductive Turn (penalty : Int64) (t : TaskId) (report : Report) (task : Task) : Report → Task → Prop
  | completes {task' : Task} (h : task'.Ended) :
      Turn penalty t report task { report with completed := report.completed ++ [t] } task'
  | fails {task' : Task} (es : List (TaskId × EvalError)) (he : ∀ e ∈ es, e.1 = t)
      (h : Task.SetBack penalty task task') :
      Turn penalty t report task { report with failed := report.failed ++ [t], errors := report.errors ++ es } task'
  | goesOn {task' : Task} (h : Task.Ongoing task task') (hs : task'.state ≠ .done) :
      Turn penalty t report task report task'

/-- **A claim that stands has one of three turns**, and no other task changes -/
theorem turn_stepClaim (h : r.app.Regular) {u : UnitId} {t : TaskId} (hc : r.app.claims[u]? = some t) :
    ∃ task task', r.app.tasks.get? t = some task ∧ task.unit? = some u ∧
      Turn r.app.settings.failurePenalty t r.report task (r.stepClaim u t).report task' ∧
      ∀ t', (r.stepClaim u t).app.tasks.get? t' = if t = t' then some task' else r.app.tasks.get? t' := by
  obtain ⟨task, ht, hu⟩ := Arena.holder?_eq_some.1 ((h.agree u t).1 hc)
  let o : Outside σ ρ := { host := r.host, picker := r.app.picker, output := r.output }
  have hstate := task.state_advanced u o
  have hongoing : Task.Ongoing task (task.advanced u o) := Task.ongoing_advanced hu o
  have hstepped := moves_pools (.advance hc ht o (task.stepFor u o).live.picker) h.pools
  have hget : ∀ t', (r.app.tasks.modify t fun _ => task.advanced u o).get? t' =
      if t = t' then some (task.advanced u o) else r.app.tasks.get? t' := by
    intro t'
    rw [Arena.get?_modify]
    split
    · subst t'
      rw [ht]
      rfl
    · rfl
  -- what is made of the task after its step
  have hmodify : ∀ (f : Task → Task) t', ((r.app.tasks.modify t fun _ => task.advanced u o).modify t f).get? t' =
      if t = t' then some (f (task.advanced u o)) else r.app.tasks.get? t' := by
    intro f t'
    rw [Arena.get?_modify, hget]
    split <;> rfl
  let penalty := r.app.settings.failurePenalty
  have hdemoted : Task.SetBack penalty task ((task.advanced u o).demoted penalty) :=
    hongoing.toKept.setBack (Task.setBack_demoted penalty _)
  unfold stepClaim
  simp only [ht, task.advance_eq]
  split
  · rename_i hr
    rw [hr] at hstate
    refine ⟨task, (task.advanced u o).retire, rfl, hu, .completes ⟨hstate, rfl, rfl⟩, fun t' => ?_⟩
    rw [get?_finish hstepped, ← Arena.get?_modify]
    exact hmodify Task.retire t'
  · have hturn : Turn penalty t r.report task
        { r.report with failed := r.report.failed ++ [t], errors := r.report.errors ++ [] } _ :=
      .fails [] (by simp) hdemoted
    rw [List.append_nil] at hturn
    exact ⟨task, _, rfl, hu, hturn, hmodify (Task.demoted penalty)⟩
  · rename_i state hdone hfailed hr
    have hopen : (task.advanced u o).state ≠ .done := by
      rw [hstate, hr]
      exact hdone
    exact ⟨task, task.advanced u o, rfl, hu, .goesOn hongoing hopen, hget⟩
  · rename_i e hr
    exact ⟨task, _, rfl, hu, .fails [(t, e)] (by simp) hdemoted, hmodify (Task.demoted penalty)⟩

/-- what has become of a task, as the report has it -/
inductive Fate (penalty : Int64) (report : Report) (t : TaskId) : Option Task → Option Task → Prop
  | completed {task task' : Task} (hc : t ∈ report.completed) (hf : t ∉ report.failed) (h : task'.Ended) :
      Fate penalty report t (some task) (some task')
  | failed {task task' : Task} (hc : t ∉ report.completed) (hf : t ∈ report.failed)
      (h : Task.SetBack penalty task task') : Fate penalty report t (some task) (some task')
  | ongoing {before after : Option Task} (hc : t ∉ report.completed) (hf : t ∉ report.failed)
      (h : Option.Rel Task.Ongoing before after) : Fate penalty report t before after

namespace Fate

variable {penalty : Int64} {report : Report} {t : TaskId} {before after : Option Task}

theorem ended (h : Fate penalty report t before after) (hc : t ∈ report.completed) :
    t ∉ report.failed ∧ ∃ task', after = some task' ∧ task'.Ended := by
  cases h with
  | completed _ hf hended => exact ⟨hf, _, rfl, hended⟩
  | failed hc' _ _ => exact absurd hc hc'
  | ongoing hc' _ _ => exact absurd hc hc'

theorem setBack (h : Fate penalty report t before after) (hf : t ∈ report.failed) :
    ∃ task task', before = some task ∧ after = some task' ∧ Task.SetBack penalty task task' := by
  cases h with
  | completed _ hf' _ => exact absurd hf hf'
  | failed _ _ hback => exact ⟨_, _, rfl, rfl, hback⟩
  | ongoing _ hf' _ => exact absurd hf hf'

theorem going (h : Fate penalty report t before after) (hc : t ∉ report.completed) (hf : t ∉ report.failed) :
    Option.Rel Task.Ongoing before after := by
  cases h with
  | completed hc' _ _ => exact absurd hc' hc
  | failed _ hf' _ => exact absurd hf' hf
  | ongoing _ _ hrel => exact hrel

/-- only a completed task leaves its pools -/
theorem schedulers (h : Fate penalty report t before after) (hc : t ∉ report.completed) :
    after.map (·.schedulers) = before.map (·.schedulers) := by
  cases h with
  | completed hc' _ _ => exact absurd hc' hc
  | failed _ _ hback => exact congrArg some hback.schedulers
  | ongoing _ _ hrel => exact Arena.map_eq_of_rel (fun _ _ hongoing => hongoing.schedulers) hrel

theorem isSome_eq (h : Fate penalty report t before after) : after.isSome = before.isSome := by
  cases h with
  | completed _ _ _ => rfl
  | failed _ _ _ => rfl
  | ongoing _ _ hrel => exact Arena.isSome_eq_of_rel hrel

theorem of_held {task : Task} {u : UnitId} (h : Fate penalty report t before (some task)) (hu : task.unit? = some u) :
    t ∉ report.completed ∧ t ∉ report.failed ∧ ∃ first, before = some first ∧ Task.Ongoing first task := by
  cases h with
  | completed hc hf hended =>
    rw [hended.unit] at hu
    cases hu
  | failed hc hf hback =>
    rw [hback.unit] at hu
    cases hu
  | ongoing hc hf hrel => exact ⟨hc, hf, Arena.exists_before hrel⟩

/-- what the report says of the other tasks does not matter -/
theorem congr {report' : Report} (h : Fate penalty report t before after)
    (hcompleted : t ∈ report'.completed ↔ t ∈ report.completed) (hfailed : t ∈ report'.failed ↔ t ∈ report.failed) :
    Fate penalty report' t before after := by
  cases h with
  | completed hc hf hended => exact .completed (hcompleted.2 hc) (mt hfailed.1 hf) hended
  | failed hc hf hback => exact .failed (mt hcompleted.1 hc) (hfailed.2 hf) hback
  | ongoing hc hf hrel => exact .ongoing (mt hcompleted.1 hc) (mt hfailed.1 hf) hrel

end Fate

/-- the report of a phase that began in `start` lists what ended, each task once -/
structure Tells (start r : Running σ ρ) : Prop where
  regular : r.app.Regular
  settings : r.app.settings = start.app.settings
  assigned : r.report.assigned = start.report.assigned
  completed : r.report.completed.Nodup
  failed : r.report.failed.Nodup
  errors : ∀ e ∈ r.report.errors, e.1 ∈ r.report.failed
  fates : ∀ t, Fate start.app.settings.failurePenalty r.report t (start.app.tasks.get? t) (r.app.tasks.get? t)

/-- **One turn more is told faithfully**: the task has not ended before, since a unit holds it -/
theorem Tells.stepClaim {start : Running σ ρ} (h : Tells start r) {u : UnitId} {t : TaskId}
    (hc : r.app.claims[u]? = some t) : Tells start (r.stepClaim u t) := by
  obtain ⟨task, task', ht, hu, hturn, hget⟩ := turn_stepClaim h.regular hc
  have hfate := h.fates t
  rw [ht] at hfate
  obtain ⟨hcompleted, hfailed, first, hfirst, hongoing⟩ := hfate.of_held hu
  have hchain : Chain σ r.app (r.stepClaim u t).app := chain_stepClaim r hc
  have hregular : (r.stepClaim u t).app.Regular := h.regular.chain hchain
  have hsettings : (r.stepClaim u t).app.settings = start.app.settings := (chain_settings hchain).trans h.settings
  rw [h.settings] at hturn
  -- the other tasks are as they were, so only what the report says of them could matter
  have hfates : ∀ report : Report,
      (∀ t', t ≠ t' → (t' ∈ report.completed ↔ t' ∈ r.report.completed) ∧
        (t' ∈ report.failed ↔ t' ∈ r.report.failed)) →
      Fate start.app.settings.failurePenalty report t (some first) (some task') →
      ∀ t', Fate start.app.settings.failurePenalty report t' (start.app.tasks.get? t')
        ((r.stepClaim u t).app.tasks.get? t') := by
    intro report hothers hown t'
    rw [hget]
    split
    · subst t'
      rwa [hfirst]
    · rename_i hne
      exact (h.fates t').congr (hothers t' hne).1 (hothers t' hne).2
  generalize hreport : (r.stepClaim u t).report = report at hturn
  cases hturn with
  | completes hended =>
    refine ⟨hregular, hsettings, ?_, ?_, ?_, ?_, ?_⟩ <;> rw [hreport]
    · exact h.assigned
    · rw [← List.concat_eq_append, List.nodup_concat]
      exact ⟨hcompleted, h.completed⟩
    · exact h.failed
    · exact h.errors
    · apply hfates
      · intro t' hne
        simp [Ne.symm hne]
      · exact .completed (by simp) hfailed hended
  | fails es he hback =>
    refine ⟨hregular, hsettings, ?_, ?_, ?_, ?_, ?_⟩ <;> rw [hreport]
    · exact h.assigned
    · exact h.completed
    · rw [← List.concat_eq_append, List.nodup_concat]
      exact ⟨hfailed, h.failed⟩
    · intro e hm
      rcases List.mem_append.1 hm with hm | hm
      · exact List.mem_append_left _ (h.errors e hm)
      · exact List.mem_append_right _ (by simp [he e hm])
    · apply hfates
      · intro t' hne
        simp [Ne.symm hne]
      · exact .failed hcompleted (by simp) (hongoing.toKept.setBack hback)
  | goesOn hgoing hs =>
    refine ⟨hregular, hsettings, ?_, ?_, ?_, ?_, ?_⟩ <;> rw [hreport]
    · exact h.assigned
    · exact h.completed
    · exact h.failed
    · exact h.errors
    · apply hfates
      · exact fun t' _ => ⟨Iff.rfl, Iff.rfl⟩
      · exact .ongoing hcompleted hfailed (.some (hongoing.trans hgoing))

omit [Host σ] [Picker ρ] in
/-- before the first turn there is nothing to tell -/
theorem Begun.tells (h : Begun app alive r) (hr : r.app.Regular) : Tells r r where
  regular := hr
  settings := rfl
  assigned := rfl
  completed := by simp [h.completed]
  failed := by simp [h.failed]
  errors := by simp [h.errors]
  fates t := .ongoing (by simp [h.completed]) (by simp [h.failed]) (Arena.Related.refl .refl _ t)

theorem tells_stepClaims (h : Tells r r) : Tells r r.stepClaims :=
  stepEach_keeps (P := Tells r) (fun _ _ _ hc h => h.stepClaim hc) (List.append_nil _).symm h

end Running

namespace Application

open Running

variable {σ ρ : Type} [Host σ] [Picker ρ]

/-! ## Ticks after any run -/

/-- **A tick tells what it did and loses nothing.** After any operations, with any arguments and hosts, let a tick
happen with any host. Units and tasks of its assignments are listed once. No task is listed twice among those that were
completed or failed, and errors are of tasks that failed. A completed task is in its final state, and no unit and no
pool has it. A failed one has no unit, waits fresh in the pools that had it before, and is less urgent by the penalty,
as far as priorities reach. All tasks but the completed ones are in the same pools as before. What a unit held that was
alive at the start it still holds, unless the task was completed or failed. -/
theorem tick_report (settings : Settings) (picker : ρ) (ops : List (Op σ)) (host : σ) (output : List Printed) :
    let app := (initial settings picker).run ops
    let r := app.tick host output
    (r.report.assigned.map (·.1)).Nodup ∧ (r.report.assigned.map (·.2)).Nodup ∧
    (r.report.completed ++ r.report.failed).Nodup ∧ (∀ e ∈ r.report.errors, e.1 ∈ r.report.failed) ∧
    (∀ t ∈ r.report.completed, ∃ task, r.app.tasks.get? t = some task ∧ task.state = .done ∧ task.unit? = none ∧
      task.schedulers = ∅ ∧ ∀ s, ¬ r.app.Holds s t) ∧
    (∀ t ∈ r.report.failed, ∃ task task', app.tasks.get? t = some task ∧ r.app.tasks.get? t = some task' ∧
      task'.unit? = none ∧ task'.body.isPristine = true ∧ task'.body.reset = task.body.reset ∧
      task'.store = task'.initial ∧ task'.initial = task.initial ∧ task'.schedulers = task.schedulers ∧
      task'.priority.toInt =
        max (-2 ^ 63) (min (task.priority.toInt - app.settings.failurePenalty.toInt) (2 ^ 63 - 1))) ∧
    (∀ t, t ∉ r.report.completed → (∀ s, r.app.Holds s t ↔ app.Holds s t) ∧
      (r.app.tasks.get? t).map (·.schedulers) = (app.tasks.get? t).map (·.schedulers)) ∧
    ∀ u t, app.claims[u]? = some t → (Host.world host).isAlive u = true → t ∉ r.report.completed →
      t ∉ r.report.failed → r.app.claims[u]? = some t ∧ r.app.tasks.holder? t = some u := by
  intro app r
  have hregular : app.Regular := (regular_initial settings picker).run ops
  let begun : Running σ ρ := ({ app, host, output } : Running σ ρ).releaseDead.assignIdle
  have hchain : Chain σ app begun.app := (chain_releaseDead { app, host, output }).trans (chain_assignIdle _)
  have hbegun : Begun app (Host.world host).isAlive begun := begun_assignIdle (begun_releaseDead hregular host output)
  have hregular' : begun.app.Regular := hregular.chain hchain
  have htells : Tells begun r := tells_stepClaims (hbegun.tells hregular')
  have hpenalty : begun.app.settings = app.settings := chain_settings hchain
  refine ⟨?_, ?_, ?_, htells.errors, ?_, ?_, ?_, ?_⟩
  · rw [htells.assigned]
    exact hbegun.once
  · -- two units cannot hold one task
    rw [htells.assigned, List.Nodup, List.pairwise_map]
    refine (List.pairwise_map.1 hbegun.once).imp_of_mem fun {c d} hc hd hne he => hne ?_
    have hheld := (hregular'.agree c.1 c.2).1 (hbegun.assigned c hc)
    have hheld' := (hregular'.agree d.1 d.2).1 (hbegun.assigned d hd)
    rw [he] at hheld
    exact Option.some.inj (hheld.symm.trans hheld')
  · rw [List.nodup_append]
    refine ⟨htells.completed, htells.failed, fun t ht t' ht' he => ?_⟩
    subst t'
    exact ((htells.fates t).ended ht).1 ht'
  · intro t ht
    obtain ⟨-, task, htask, hended⟩ := (htells.fates t).ended ht
    refine ⟨task, htask, hended.done, hended.unit, hended.loose, fun s hs => ?_⟩
    rw [htells.regular.pools.agree, Arena.joined_of_get? htask, hended.loose] at hs
    exact Std.ExtTreeSet.not_mem_empty hs
  · intro t ht
    obtain ⟨middle, task', hmiddle, htask', hback⟩ := (htells.fates t).setBack ht
    have hrel := hbegun.tasks t
    rw [hmiddle] at hrel
    obtain ⟨task, htask, hkept⟩ := Arena.exists_before hrel
    have hwhole := hkept.setBack hback
    refine ⟨task, task', htask, htask', hwhole.unit, hwhole.fresh.pristine, hwhole.program,
      hwhole.fresh.store, hwhole.initial, hwhole.schedulers, ?_⟩
    rw [hwhole.priority, toInt_lowered, hpenalty]
  · intro t ht
    have hhandles : (r.app.tasks.get? t).map (·.schedulers) = (app.tasks.get? t).map (·.schedulers) :=
      ((htells.fates t).schedulers ht).trans
        (Arena.map_eq_of_rel (fun _ _ hkept => hkept.schedulers) (hbegun.tasks t))
    refine ⟨fun s => ?_, hhandles⟩
    rw [htells.regular.pools.agree, hregular.pools.agree]
    exact Arena.joined_congr hhandles s
  · intro u t hu ha hc hf
    obtain ⟨task, htask, hunit⟩ :=
      Arena.holder?_eq_some.1 ((hregular'.agree u t).1 (hbegun.stands u t hu ha))
    have hrel := (htells.fates t).going hc hf
    rw [htask] at hrel
    obtain ⟨task', htask', hongoing⟩ := Arena.exists_after hrel
    have hheld : r.app.tasks.holder? t = some u :=
      Arena.holder?_eq_some.2 ⟨task', htask', hongoing.unit.trans hunit⟩
    exact ⟨(htells.regular.agree u t).2 hheld, hheld⟩

/-- one unit each of four factions; nobody knows where the second is, and the last is dead -/
def fourUnits : Rehearsal where
  world :=
    { size := ⟨4, 4, 1⟩
      figures := [{ id := ⟨7⟩, faction? := some ⟨1⟩ }, { id := ⟨8⟩, faction? := some ⟨2⟩ },
        { id := ⟨9⟩, faction? := some ⟨3⟩ }, { id := ⟨10⟩, faction? := some ⟨4⟩, alive := false }] : Setting }.world
  final := .inProgress

/-- four pools with a task each, of which the last two are claimed; the second is nearly as little urgent as can be -/
def fourTasks : List (Op Rehearsal) :=
  [.addTask (Task.make "greet" 0 (.print {} (.boolean {} true))),
    .addTask (Task.make "locate" (Int64.minValue + 1) (.print {} (.place {} .here))),
    .addTask (Task.make "fetch" 0 (.action {} .moveTo (.cube {} ⟨3, 0, 0⟩))),
    .addTask (Task.make "rest" 0 (.print {} (.boolean {} false))),
    .addScheduler ⟨1⟩, .addScheduler ⟨2⟩, .addScheduler ⟨3⟩, .addScheduler ⟨4⟩,
    .schedule ⟨0⟩ ⟨0⟩, .schedule ⟨1⟩ ⟨1⟩, .schedule ⟨2⟩ ⟨2⟩, .schedule ⟨3⟩ ⟨3⟩,
    .assignNext ⟨2⟩ ⟨9⟩, .assignNext ⟨3⟩ ⟨10⟩]

/-- what a tick tells about them -/
def fourEvents : Report where
  assigned := [(⟨7⟩, ⟨0⟩), (⟨8⟩, ⟨1⟩)]
  completed := [⟨0⟩]
  failed := [⟨1⟩]
  interrupted := [⟨3⟩]
  errors := [(⟨1⟩, .unknownUnit ⟨8⟩)]

/-- one task is done, one raises an error and gets no less urgent than priorities reach, one goes on, and one is taken
from the dead unit -/
theorem tick_report_fourTasks :
    let app := (initial { failurePenalty := 3 } (Replay.mk [])).run fourTasks
    let r := app.tick fourUnits []
    r.report = fourEvents ∧
      (∃ task, r.app.tasks.get? ⟨0⟩ = some task ∧ task.state = .done ∧ ∀ s, ¬ r.app.Holds s ⟨0⟩) ∧
      (∃ task, r.app.tasks.get? ⟨1⟩ = some task ∧ task.unit? = none ∧ task.body.isPristine = true ∧
        task.priority.toInt = -2 ^ 63) ∧
      (∀ s, r.app.Holds s ⟨3⟩ ↔ app.Holds s ⟨3⟩) ∧ r.app.claims[(⟨9⟩ : UnitId)]? = some ⟨2⟩ := by
  intro app r
  have hreport : r.report = fourEvents := by decide +kernel
  obtain ⟨-, -, -, -, hdone, hback, hpools, hstands⟩ :=
    tick_report { failurePenalty := 3 } (Replay.mk []) fourTasks fourUnits []
  have hcompleted : ⟨0⟩ ∈ r.report.completed := by
    rw [hreport]
    decide
  have hfailed : ⟨1⟩ ∈ r.report.failed := by
    rw [hreport]
    decide
  have hothers : ⟨3⟩ ∉ r.report.completed ∧ (⟨2⟩ ∉ r.report.completed) ∧ ⟨2⟩ ∉ r.report.failed := by
    rw [hreport]
    decide
  obtain ⟨greeted, hgreeted, hstate, -, -, hloose⟩ := hdone ⟨0⟩ hcompleted
  obtain ⟨first, lost, hfirst, hlost, hfree, hpristine, -, -, -, -, hpriority⟩ := hback ⟨1⟩ hfailed
  have hlowest : (app.tasks.get? ⟨1⟩).map (·.priority) = some (Int64.minValue + 1) := by decide +kernel
  have hbefore : first.priority = Int64.minValue + 1 := by
    have hfirst' : app.tasks.get? ⟨1⟩ = some first := hfirst
    rw [hfirst'] at hlowest
    exact Option.some.inj hlowest
  refine ⟨hreport, ⟨greeted, hgreeted, hstate, hloose⟩, ⟨lost, hlost, hfree, hpristine, ?_⟩,
    (hpools ⟨3⟩ hothers.1).1, (hstands ⟨9⟩ ⟨2⟩ ?_ ?_ hothers.2.1 hothers.2.2).1⟩
  · rw [hpriority, hbefore]
    decide +kernel
  · decide +kernel
  · decide +kernel

end Application

end Errand
