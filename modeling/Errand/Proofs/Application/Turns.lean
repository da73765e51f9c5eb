/-
Turns: in the third phase of a tick every claim is stepped once, and by itself.

The phase goes through the claims that stand at its start, in order of their units. `Turns` records the calls of
`advance` that it makes: one for each claim, on the task as the first two phases have left it (`turns_stepEach`). What
is made of the answer to a call is `Isolated`: it concerns one task, one claim and, if the task is done, the entries of
that task (`isolated_concluded`). The dead have lost their claims before (`claims_releaseDead`). `tick_turns` puts these
together.
-/
import Errand.Proofs.Application.Report
import Errand.Proofs.Sandbox.Death

namespace Errand

namespace Scheduler

variable {s s' : Scheduler} {tasks tasks' : Arena} {t : TaskId}

/-! ## Pools without a task -/

/-- the pool without a task; the other entries stay as they are, in their order -/
def without (s : Scheduler) (t : TaskId) : Scheduler := { s with entries := s.entries.filter (·.task ≠ t) }

theorem without_of_not_contains (h : ¬ s.contains t = true) : s.without t = s := by
  have hentries : s.entries.filter (·.task ≠ t) = s.entries := by
    rw [List.filter_eq_self]
    intro e he
    have hne : e.task ≠ t := fun het => h (contains_iff.2 (List.mem_map.2 ⟨e, he, het⟩))
    simpa using hne
  rw [without, hentries]

theorem eraseIdx_slot (h : s.Orderly) {slot : Nat} (hi : s.slot? t = some slot) :
    { s with entries := s.entries.eraseIdx slot } = s.without t := by
  obtain ⟨pre, e, post, hs, rfl, herase, -⟩ := split_of_slot? hi
  have hothers : ∀ d ∈ pre ++ post, d.task ≠ e.task := fun d hd he =>
    (h.notMem_others hs).1 (he ▸ List.mem_map_of_mem hd)
  have hentries : s.entries.filter (·.task ≠ e.task) = pre ++ post := by
    rw [hs, List.filter_append, List.filter_cons_of_neg (by simp), ← List.filter_append, List.filter_eq_self]
    simpa using hothers
  rw [without, hentries, herase]

@[simp] theorem without_without : (s.without t).without t = s.without t := by
  simp [without]

theorem Orderly.eq_of_seq (h : s.Orderly) {d e : Entry} (hd : d ∈ s.entries) (he : e ∈ s.entries)
    (hseq : d.seq = e.seq) : d = e :=
  List.inj_on_of_nodup_map (List.pairwise_map.2 (h.ascending.imp Nat.ne_of_lt)) hd he hseq

theorem ranked_without (hp : ∀ t', t' ≠ t → (tasks'.get? t').map (·.priority) = (tasks.get? t').map (·.priority)) :
    (s.ranked tasks').filter (·.entry.task ≠ t) = (s.without t).ranked tasks := by
  rw [ranked, List.filter_filterMap, ranked, without, List.filterMap_filter]
  refine List.filterMap_congr fun e _ => ?_
  by_cases he : e.task = t
  · simp [he]
  · have hsame := congrArg (Option.map fun p : Int64 => (⟨p, e⟩ : Ranked)) (hp e.task he)
    simp only [Option.map_map, Function.comp_def] at hsame
    rw [hsame, if_pos (by simpa using he)]
    cases tasks.get? e.task <;> simp [he]

/-- the order of the others in rank is no matter of this task, whatever its own priority -/
theorem ordered_without (h : s.Orderly)
    (hp : ∀ t', t' ≠ t → (tasks'.get? t').map (·.priority) = (tasks.get? t').map (·.priority)) :
    (s.ordered tasks').filter (· ≠ t) = (s.without t).ordered tasks := by
  have hperm : (((s.ranked tasks').mergeSort Ranked.before).filter (·.entry.task ≠ t)).Perm
      (((s.without t).ranked tasks).mergeSort Ranked.before) := by
    rw [← ranked_without hp]
    exact ((List.mergeSort_perm _ _).filter _).trans (List.mergeSort_perm _ _).symm
  have hsorted : ∀ l : List Ranked, (l.mergeSort Ranked.before).Pairwise fun a b => a.before b = true :=
    List.pairwise_mergeSort Ranked.before_trans Ranked.before_total
  have hsame : ((s.ranked tasks').mergeSort Ranked.before).filter (·.entry.task ≠ t) =
      ((s.without t).ranked tasks).mergeSort Ranked.before := by
    refine List.Perm.eq_of_pairwise (fun a b ha hb hab hba => ?_) ((hsorted _).filter _) (hsorted _) hperm
    -- members of one rank have one number, so they are one
    have hranks := Ranked.before_iff.1 hab
    have hranks' := Ranked.before_iff.1 hba
    obtain ⟨hd, -⟩ := mem_ranked.1 (List.mem_mergeSort.1 (List.mem_of_mem_filter ha))
    obtain ⟨he, -⟩ := mem_ranked.1 (List.mem_mergeSort.1 hb)
    have hpriority : a.priority = b.priority := Int64.toInt_inj.1 (by omega)
    have hentry : a.entry = b.entry := h.eq_of_seq hd (List.mem_of_mem_filter he) (by omega)
    cases a; cases b
    exact congrArg₂ Ranked.mk hpriority hentry
  rw [ordered_eq, ordered_eq, ← hsame, List.filter_map]
  rfl

theorem ordered_others (h : s.Orderly) (h' : s'.Orderly) (hs : s'.without t = s.without t)
    (hp : ∀ t', t' ≠ t → (tasks'.get? t').map (·.priority) = (tasks.get? t').map (·.priority)) :
    (s'.ordered tasks').filter (· ≠ t) = (s.ordered tasks).filter (· ≠ t) := by
  rw [ordered_without h' hp, ordered_without h fun _ _ => rfl, hs]

end Scheduler

namespace Application

variable {ρ : Type} {app : Application ρ}

/-! ## Pools after a task is done -/

/-- a pool that a task leaves is without it, and the other pools stay as they are -/
theorem scheduler?_leavePool (h : app.Pools) (t : TaskId) (s s' : SchedulerId) :
    (app.leavePool t s).scheduler? s' =
      if s' = s then (app.scheduler? s').map (·.without t) else app.scheduler? s' := by
  by_cases hholds : app.Holds s t
  · obtain ⟨sched, hs, hc⟩ := hholds
    obtain ⟨slot, hi⟩ := Scheduler.slot?_of_contains hc
    have hleft : app.leavePool t s = { app.withScheduler s { sched with entries := sched.entries.eraseIdx slot } with
        tasks := app.tasks.modify t (·.quit sched.id) } := by
      simp only [leavePool, unschedule, hs, Scheduler.remove, hi]
    rw [hleft, scheduler?_withScheduler hs, Scheduler.eraseIdx_slot (h.orderly s sched hs) hi]
    split
    · subst s'
      rw [hs]
      rfl
    · rfl
  · rw [leavePool_of_not_holds hholds]
    split
    · subst s'
      cases hs : app.scheduler? s with
      | none => rfl
      | some sched =>
        rw [holds_of_scheduler? hs] at hholds
        rw [Option.map_some, Scheduler.without_of_not_contains hholds]
    · rfl

theorem scheduler?_leavePools (h : app.Pools) (t : TaskId) (ss : List SchedulerId) (s' : SchedulerId) :
    (ss.foldl (leavePool · t) app).scheduler? s' =
      if s' ∈ ss then (app.scheduler? s').map (·.without t) else app.scheduler? s' := by
  induction ss generalizing app with
  | nil => simp
  | cons s ss ih =>
    rw [List.foldl_cons, ih (pools_leavePool h t s), scheduler?_leavePool h]
    by_cases hs : s' = s
    · subst s'
      cases app.scheduler? s <;> simp
    · simp [hs]

/-- **When a task is done every pool is without it**, and otherwise as it was -/
theorem scheduler?_finish (h : app.Pools) {t : TaskId} {task : Task} (ht : app.tasks.get? t = some task) (u : UnitId)
    (s : SchedulerId) : (app.finish t u).scheduler? s = (app.scheduler? s).map (·.without t) := by
  have hended : Pools { app with claims := app.claims.erase u, tasks := app.tasks.modify t Task.finish } :=
    h.same rfl rfl fun task _ => task.same_finish
  unfold finish
  simp only [Running.get?_modify_self ht]
  rw [scheduler?_leavePools hended]
  split
  · rfl
  · rename_i hnot
    have hloose : s ∉ task.schedulers := fun hs => hnot (Std.ExtTreeSet.mem_toList.2 hs)
    cases hs : app.scheduler? s with
    | none => exact hs
    | some sched =>
      rw [Option.map_some, Scheduler.without_of_not_contains (mt (h.contains_iff hs ht).1 hloose)]
      exact hs

end Application

/-! ## Turns -/

/-- a call of `advance`: on whose behalf, for which task, in which state, and with what is outside of it -/
structure Advance (σ ρ : Type) where
  unit : UnitId
  task : TaskId
  before : Task
  outside : Outside σ ρ

namespace Advance

variable {σ ρ : Type}

def claim (a : Advance σ ρ) : UnitId × TaskId := (a.unit, a.task)

variable [Host σ] [Picker ρ]

def answer (a : Advance σ ρ) : Except EvalError ExecState × Task × Outside σ ρ := a.before.advance a.unit a.outside

/-- what a call and what is made of its answer leave as it was -/
structure Isolated (a : Advance σ ρ) (app app' : Application ρ) : Prop where
  tasks : ∀ t, t ≠ a.task → app'.tasks.get? t = app.tasks.get? t
  claims : ∀ u : UnitId, u ≠ a.unit → app'.claims[u]? = app.claims[u]?
  stays : a.answer.1 ≠ .ok .done → app'.schedulers = app.schedulers
  /-- when the task is done, its own entries are gone -/
  leaves : a.answer.1 = .ok .done → ∀ s, app'.scheduler? s = (app.scheduler? s).map (·.without a.task)
  /-- the order in which other tasks are assigned -/
  ranks : ∀ s sched sched', app.scheduler? s = some sched → app'.scheduler? s = some sched' →
    (sched'.ordered app'.tasks).filter (· ≠ a.task) = (sched.ordered app.tasks).filter (· ≠ a.task)

end Advance

namespace Running

open Application

variable {σ ρ : Type} {app : Application ρ} {r r' : Running σ ρ}

def outside (r : Running σ ρ) : Outside σ ρ := { host := r.host, picker := r.app.picker, output := r.output }

variable [Host σ] [Picker ρ] {a : Advance σ ρ}

/-- makes the call, once, and does what its answer asks for -/
def concluded (r : Running σ ρ) (a : Advance σ ρ) : Running σ ρ :=
  let (result, task, o) := a.answer
  let app := { r.app with tasks := r.app.tasks.modify a.task fun _ => task, picker := o.picker }
  let r := { r with app, host := o.host, output := o.output }
  match result with
  | .ok .done =>
    { r with
      app := app.finish a.task a.unit
      report := { r.report with completed := r.report.completed ++ [a.task] } }
  | .ok .failed =>
    { r with
      app := app.fail a.task a.unit
      report := { r.report with failed := r.report.failed ++ [a.task] } }
  | .ok _ => r
  | .error e =>
    { r with
      app := app.fail a.task a.unit
      report := { r.report with failed := r.report.failed ++ [a.task], errors := r.report.errors ++ [(a.task, e)] } }

/-- the calls that are made one after the other, each concluded before the next, from one state to another -/
inductive Turns : Running σ ρ → List (Advance σ ρ) → Running σ ρ → Prop
  | nil {r : Running σ ρ} : Turns r [] r
  | cons {r r' : Running σ ρ} {a : Advance σ ρ} {calls : List (Advance σ ρ)}
      (ht : r.app.tasks.get? a.task = some a.before) (ho : a.outside = r.outside)
      (h : Turns (r.concluded a) calls r') : Turns r (a :: calls) r'

theorem stepClaim_eq (ht : r.app.tasks.get? a.task = some a.before) (ho : a.outside = r.outside) :
    r.stepClaim a.unit a.task = r.concluded a := by
  unfold stepClaim concluded Advance.answer
  rw [ht, ho]
  rfl

/-- only a task that is done leaves its pools -/
theorem schedulers_concluded (hd : a.answer.1 ≠ .ok .done) : (r.concluded a).app.schedulers = r.app.schedulers := by
  unfold concluded
  generalize a.answer = answer at hd
  obtain ⟨result, task, o⟩ := answer
  simp only []
  split
  · exact absurd rfl hd
  all_goals rfl

/-- a task that is done leaves every pool -/
theorem scheduler?_concluded (h : r.app.Pools) (hc : r.app.claims[a.unit]? = some a.task)
    (ht : r.app.tasks.get? a.task = some a.before) (hd : a.answer.1 = .ok .done) (s : SchedulerId) :
    (r.concluded a).app.scheduler? s = (r.app.scheduler? s).map (·.without a.task) := by
  have hstepped := moves_pools (.advance hc ht a.outside a.answer.2.2.picker) h
  have hadvanced := get?_modify_self ht fun _ => a.before.advanced a.unit a.outside
  have hfinished := scheduler?_finish hstepped hadvanced a.unit s
  unfold concluded
  have hanswer : a.answer = (.ok .done, a.before.advanced a.unit a.outside, a.answer.2.2) := Prod.ext hd rfl
  rw [hanswer]
  exact hfinished

/-- **A turn concerns nobody else** -/
theorem isolated_concluded (h : r.app.Regular) (hc : r.app.claims[a.unit]? = some a.task)
    (ht : r.app.tasks.get? a.task = some a.before) (ho : a.outside = r.outside) :
    a.Isolated r.app (r.concluded a).app := by
  have hstep := stepClaim_eq ht ho
  have htasks : ∀ t, t ≠ a.task → (r.concluded a).app.tasks.get? t = r.app.tasks.get? t := by
    intro t hne
    obtain ⟨task, task', -, -, -, hget⟩ := turn_stepClaim h hc
    rw [← hstep, hget, if_neg hne.symm]
  have hregular : (r.concluded a).app.Regular := h.chain (hstep ▸ chain_stepClaim r hc)
  refine ⟨htasks, fun u hne => ?_, schedulers_concluded, scheduler?_concluded h.pools hc ht,
    fun s sched sched' hs hs' => ?_⟩
  · rw [← hstep]
    exact r.claims_stepClaim a.task hne.symm
  · have hothers : sched'.without a.task = sched.without a.task := by
      by_cases hd : a.answer.1 = .ok .done
      · rw [scheduler?_concluded h.pools hc ht hd, hs] at hs'
        rw [← Option.some.inj hs', Scheduler.without_without]
      · rw [scheduler?, schedulers_concluded hd] at hs'
        rw [Option.some.inj (hs.symm.trans hs')]
    exact Scheduler.ordered_others (h.pools.orderly s sched hs) (hregular.pools.orderly s sched' hs') hothers
      fun t hne => congrArg _ (htasks t hne)

/-! ## The phase -/

theorem Turns.append {calls : List (Advance σ ρ)} (h : Turns r calls r') (ht : r'.app.tasks.get? a.task = some a.before)
    (ho : a.outside = r'.outside) : Turns r (calls ++ [a]) (r'.concluded a) := by
  induction h with
  | nil => exact .cons ht ho .nil
  | cons ht' ho' _ ih => exact .cons ht' ho' (ih ht ho)

theorem Turns.split {pre post : List (Advance σ ρ)} (h : Turns r (pre ++ post) r') :
    ∃ between, Turns r pre between ∧ Turns between post r' := by
  induction pre generalizing r with
  | nil => exact ⟨r, .nil, h⟩
  | cons a pre ih =>
    cases h with
    | cons ht ho h =>
      obtain ⟨between, hpre, hpost⟩ := ih h
      exact ⟨between, .cons ht ho hpre, hpost⟩

theorem Turns.eq_stepEach {calls : List (Advance σ ρ)} (h : Turns r calls r') :
    r' = r.stepEach (calls.map Advance.claim) := by
  induction h with
  | nil => rfl
  | cons ht ho _ ih => exact ih.trans (by rw [← stepClaim_eq ht ho]; rfl)

theorem get?_stepEach (h : r.app.Regular) {pre post : List (UnitId × TaskId)}
    (hsplit : r.app.claims.toList = pre ++ post) {t : TaskId} (ht : ∀ c ∈ pre, c.2 ≠ t) :
    (r.stepEach pre).app.tasks.get? t = r.app.tasks.get? t := by
  induction pre using List.reverseRecOn generalizing post with
  | nil => rfl
  | append_singleton pre c ih =>
    rw [List.append_assoc] at hsplit
    have hregular : (r.stepEach pre).app.Regular := h.chain (chain_stepEach r hsplit)
    obtain ⟨task, task', -, -, -, hget⟩ := turn_stepClaim hregular (r.stands_at_turn hsplit)
    have hstep : r.stepEach (pre ++ [c]) = (r.stepEach pre).stepClaim c.1 c.2 := by simp [stepEach]
    rw [hstep, hget, if_neg (ht c (by simp)), ih hsplit fun d hd => ht d (by simp [hd])]

omit [Host σ] [Picker ρ] in
/-- no two claims of the table are on one task -/
theorem claims_apart (h : r.app.Agree) {pre post : List (UnitId × TaskId)} {c : UnitId × TaskId}
    (hsplit : r.app.claims.toList = pre ++ c :: post) : ∀ d ∈ pre, d.2 ≠ c.2 := by
  intro d hd he
  have hheld : ∀ c' ∈ pre ++ c :: post, r.app.tasks.holder? c'.2 = some c'.1 := by
    intro c' hc'
    rw [← hsplit] at hc'
    exact (h c'.1 c'.2).1 (Std.ExtTreeMap.mem_toList_iff_getElem?_eq_some.1 hc')
  have hunit : d.1 = c.1 := by
    have hboth := hheld d (by simp [hd])
    rw [he, hheld c (by simp)] at hboth
    exact (Option.some.inj hboth).symm
  have hkeys := r.app.claims.distinct_keys_toList
  rw [hsplit, List.pairwise_append] at hkeys
  exact hkeys.2.2 d hd c List.mem_cons_self (by simp [hunit])

/-- **One call for each claim**, on the task as it was when the phase began -/
theorem turns_stepEach (h : r.app.Regular) {pre post : List (UnitId × TaskId)}
    (hsplit : r.app.claims.toList = pre ++ post) :
    ∃ calls, Turns r calls (r.stepEach pre) ∧ calls.map Advance.claim = pre ∧
      ∀ a ∈ calls, r.app.tasks.get? a.task = some a.before := by
  induction pre using List.reverseRecOn generalizing post with
  | nil => exact ⟨[], .nil, rfl, nofun⟩
  | append_singleton pre c ih =>
    rw [List.append_assoc] at hsplit
    obtain ⟨calls, hturns, hcalls, hbefore⟩ := ih hsplit
    have hregular : (r.stepEach pre).app.Regular := h.chain (chain_stepEach r hsplit)
    obtain ⟨task, ht, -⟩ := Arena.holder?_eq_some.1 ((hregular.agree c.1 c.2).1 (r.stands_at_turn hsplit))
    let a : Advance σ ρ := { unit := c.1, task := c.2, before := task, outside := (r.stepEach pre).outside }
    have hstep : r.stepEach (pre ++ [c]) = (r.stepEach pre).concluded a := by
      rw [← stepClaim_eq (a := a) ht rfl]
      simp [stepEach, a]
    refine ⟨calls ++ [a], hstep ▸ hturns.append ht rfl, by simp [hcalls, Advance.claim, a], fun b hb => ?_⟩
    rcases List.mem_append.1 hb with hb | hb
    · exact hbefore b hb
    · obtain rfl := List.mem_singleton.1 hb
      exact (get?_stepEach h hsplit (claims_apart h.agree hsplit)).symm.trans ht

/-! ## The dead -/

omit [Picker ρ] in
/-- nobody holds a task that has been interrupted, and nothing new is held -/
theorem claims_freeDead (h : r.app.Agree) {t t' : TaskId} {v : UnitId}
    (hv : (r.freeDead t).app.claims[v]? = some t') : r.app.claims[v]? = some t' ∧ t' ≠ t := by
  cases ht : r.app.tasks.get? t with
  | none =>
    have hsame : r.freeDead t = r := by
      unfold freeDead
      simp [interrupt, ht]
    rw [hsame] at hv
    refine ⟨hv, ?_⟩
    rintro rfl
    obtain ⟨task, htask, -⟩ := Arena.holder?_eq_some.1 ((h v t').1 hv)
    simp [ht] at htask
  | some task =>
    have hfreed : (r.freeDead t).app =
        { r.app with tasks := r.app.tasks.modify t fun _ => task.release.2 }.freeing task.unit? := by
      unfold freeDead
      simp only [interrupt, ht]
      rfl
    rw [hfreed, claims_freeing] at hv
    split at hv
    · cases hv
    · rename_i hother
      refine ⟨hv, ?_⟩
      rintro rfl
      exact hother ((Arena.holder?_of_get? ht).symm.trans ((h v t').1 hv))

theorem claims_freeEach (h : r.app.Regular) (cs : List (UnitId × TaskId)) {v : UnitId} {t : TaskId}
    (hv : (cs.foldl (fun r c => r.freeDead c.2) r).app.claims[v]? = some t) :
    r.app.claims[v]? = some t ∧ ∀ c ∈ cs, t ≠ c.2 := by
  induction cs generalizing r with
  | nil => exact ⟨hv, nofun⟩
  | cons c cs ih =>
    obtain ⟨hrest, hothers⟩ := ih (h.chain (r.chain_freeDead c.2)) hv
    obtain ⟨hbefore, hne⟩ := claims_freeDead h.agree hrest
    exact ⟨hbefore, List.forall_mem_cons.2 ⟨hne, hothers⟩⟩

/-- **The dead lose their claims** in the first phase -/
theorem claims_releaseDead (h : r.app.Regular) {v : UnitId} {t : TaskId}
    (hv : r.releaseDead.app.claims[v]? = some t) :
    r.app.claims[v]? = some t ∧ (Host.world r.host).isAlive v = true := by
  obtain ⟨hbefore, hothers⟩ := claims_freeEach h _ hv
  refine ⟨hbefore, by_contra fun hdead => ?_⟩
  have hmem : (v, t) ∈ r.app.claims.toList.filter fun c => !(Host.world r.host).isAlive c.1 :=
    List.mem_filter.2 ⟨Std.ExtTreeMap.mem_toList_iff_getElem?_eq_some.2 hbefore, by simpa using hdead⟩
  exact hothers _ hmem rfl

omit [Picker ρ] in
/-- whoever holds something after the second phase held it before, or was alive and has just been given it -/
theorem claims_assignIdle (r : Running σ ρ) {v : UnitId} {t : TaskId} (hv : r.assignIdle.app.claims[v]? = some t) :
    r.app.claims[v]? = some t ∨
      (Host.world r.host).isAlive v = true ∧ (v, t) ∈ r.assignIdle.report.assigned := by
  let P (r' : Running σ ρ) : Prop := ∀ (v : UnitId) t, r'.app.claims[v]? = some t →
    r.app.claims[v]? = some t ∨ (Host.world r.host).isAlive v = true ∧ (v, t) ∈ r'.report.assigned
  have hphase : P r.assignIdle := by
    rw [assignIdle_eq]
    refine offerEach_keeps (P := P) (fun r' u t task ha _ _ _ h v t' hv => ?_) _ fun v t hv => .inl hv
    rw [claims_claiming] at hv
    split at hv
    · subst v
      obtain rfl := Option.some.inj hv
      exact .inr ⟨ha, List.mem_append_right _ List.mem_cons_self⟩
    · exact (h v t' hv).imp_right fun h => ⟨h.1, List.mem_append_left _ h.2⟩
  exact hphase v t hv

end Running

/-- cancelling an action brings nobody to life -/
def Host.Mortal (σ : Type) [Host σ] : Prop :=
  ∀ (host : σ) (u v : UnitId), (Host.world (Host.abort u host)).isAlive v = true → (Host.world host).isAlive v = true

theorem Sandbox.mortal : Host.Mortal Sandbox := fun w u v h => (w.isAlive_abort u v).symm.trans h

namespace Running

variable {σ ρ : Type} [Host σ] {r : Running σ ρ}

/-- the first phase asks the host for aborts only -/
theorem alive_releaseDead (hmortal : Host.Mortal σ) {v : UnitId}
    (hv : (Host.world r.releaseDead.host).isAlive v = true) : (Host.world r.host).isAlive v = true := by
  have hfreed : ∀ (r : Running σ ρ) (t : TaskId), (Host.world (r.freeDead t).host).isAlive v = true →
      (Host.world r.host).isAlive v = true := by
    intro r t hv
    obtain he | ⟨task, -, he⟩ := r.freeDead_cases t
    · rwa [he] at hv
    · rw [he] at hv
      unfold Task.interrupt at hv
      simp only [] at hv
      split at hv
      · exact hmortal _ _ _ hv
      · exact hv
  exact List.foldlRecOn (motive := fun r' : Running σ ρ => (Host.world r'.host).isAlive v = true →
    (Host.world r.host).isAlive v = true) _ _ id (fun r' ih c _ hv => ih (hfreed r' c.2 hv)) hv

end Running

namespace Application

open Running

variable {σ ρ : Type} [Host σ] [Picker ρ]

theorem ascending_claims {ρ : Type} (app : Application ρ) :
    app.claims.toList.Pairwise fun c d => c.1.number < d.1.number :=
  app.claims.ordered_keys_toList.imp fun {c d} h =>
    Std.compare_eq_lt.1 (show compare c.1.number d.1.number = .lt from h)

/-- **Every claim has one turn, and nobody else notices.** After any operations, with any arguments and hosts, let a
tick happen with any host. Its third phase calls `advance` once for each claim that stands after the assignments, the
new ones included, in ascending order of the units and on the task as the assignments have left it. Whatever a call
answers, what is made of it leaves all other tasks, the claims of all other units and the entries of all other tasks in
the pools as they were, and these are ranked as before. A unit that was dead at the start has a turn only if the host
shows it alive after the aborts of the first phase, and then for a claim of this tick; none has one if cancelling an
action brings nobody to life. -/
theorem tick_turns (settings : Settings) (picker : ρ) (ops : List (Op σ)) (host : σ) (output : List Printed) :
    let app := (initial settings picker).run ops
    let released := ({ app, host, output } : Running σ ρ).releaseDead
    let begun := released.assignIdle
    let final := app.tick host output
    ∃ calls : List (Advance σ ρ), Turns begun calls final ∧
      calls.map Advance.claim = begun.app.claims.toList ∧
      calls.Pairwise (fun a b => a.unit.number < b.unit.number) ∧
      (∀ c ∈ final.report.assigned, c ∈ calls.map Advance.claim) ∧
      (∀ pre a post, calls = pre ++ a :: post → ∃ r, Turns begun pre r ∧ Turns (r.concluded a) post final ∧
        r.app.claims[a.unit]? = some a.task ∧ begun.app.tasks.get? a.task = some a.before ∧
        a.before.unit? = some a.unit ∧ a.Isolated r.app (r.concluded a).app) ∧
      (∀ a ∈ calls, (Host.world host).isAlive a.unit = true ∨
        (Host.world released.host).isAlive a.unit = true ∧ a.claim ∈ final.report.assigned) ∧
      (Host.Mortal σ → ∀ a ∈ calls, (Host.world host).isAlive a.unit = true) := by
  intro app released begun final
  have hregular : app.Regular := (regular_initial settings picker).run ops
  have hreleased : released.app.Regular := hregular.chain (chain_releaseDead { app, host, output })
  have hbegun : Begun app (Host.world host).isAlive begun := begun_assignIdle (begun_releaseDead hregular host output)
  have hregular' : begun.app.Regular := hreleased.chain (chain_assignIdle _)
  have hassigned : final.report.assigned = begun.report.assigned :=
    (tells_stepClaims (hbegun.tells hregular')).assigned
  obtain ⟨calls, hturns, hcalls, hbefore⟩ := turns_stepEach hregular' (List.append_nil _).symm
  have hstands : ∀ a ∈ calls, begun.app.claims[a.unit]? = some a.task := by
    intro a ha
    have hmem : a.claim ∈ begun.app.claims.toList := hcalls ▸ List.mem_map_of_mem ha
    exact Std.ExtTreeMap.mem_toList_iff_getElem?_eq_some.1 hmem
  have halive : ∀ a ∈ calls, (Host.world host).isAlive a.unit = true ∨
      (Host.world released.host).isAlive a.unit = true ∧ a.claim ∈ begun.report.assigned := by
    intro a ha
    exact (released.claims_assignIdle (hstands a ha)).imp_left fun h => (claims_releaseDead hregular h).2
  rw [hassigned]
  refine ⟨calls, hturns, hcalls, ?_, fun c hc => ?_, ?_, halive, fun hmortal a ha => ?_⟩
  · have hascending := begun.app.ascending_claims
    rwa [← hcalls, List.pairwise_map] at hascending
  · rw [hcalls]
    exact Std.ExtTreeMap.mem_toList_iff_getElem?_eq_some.2 (hbegun.assigned c hc)
  · rintro pre a post rfl
    obtain ⟨r, hpre, hpost⟩ := hturns.split
    have hr : r = begun.stepEach (pre.map Advance.claim) := hpre.eq_stepEach
    have hsplit : begun.app.claims.toList = pre.map Advance.claim ++ a.claim :: post.map Advance.claim := by
      rw [← hcalls, List.map_append, List.map_cons]
    have hc : r.app.claims[a.unit]? = some a.task := hr ▸ begun.stands_at_turn hsplit
    have hregular'' : r.app.Regular := hregular'.chain (hr ▸ chain_stepEach begun hsplit)
    have ht := hbefore a (by simp)
    obtain ⟨task, htask, hunit⟩ := Arena.holder?_eq_some.1 ((hregular'.agree _ _).1 (hstands a (by simp)))
    obtain rfl := Option.some.inj (ht.symm.trans htask)
    cases hpost with
    | cons ht' ho hpost =>
      exact ⟨r, hpre, hpost, hc, ht, hunit, isolated_concluded hregular'' hc ht' ho⟩
  · exact (halive a ha).elim id fun h => alive_releaseDead hmortal h.1

/-- a corridor with two units of one faction and one of another -/
def ward : Sandbox :=
  (((({ size := ⟨4, 1, 1⟩ } : Sandbox).addUnit { id := ⟨7⟩, faction := ⟨1⟩, position := ⟨0, 0, 0⟩ }).addUnit
    { id := ⟨8⟩, faction := ⟨1⟩, position := ⟨1, 0, 0⟩ }).addUnit
    { id := ⟨9⟩, faction := ⟨2⟩, position := ⟨3, 0, 0⟩ })

/-- the first unit sets out on a walk, while the last finds no boulder -/
def rounds {σ : Type} (host : σ) : List (Op σ) :=
  [.addTask (Task.make "walk" 0 (.action {} .moveTo (.cube {} ⟨3, 0, 0⟩))),
    .addTask (Task.make "search" 0 (.print {} (.place {} .boulder))),
    .addScheduler ⟨1⟩, .addScheduler ⟨2⟩, .schedule ⟨0⟩ ⟨0⟩, .schedule ⟨1⟩ ⟨1⟩, .tick host []]

/-- the walk of a dead unit goes to the other one; the second turn, which raises an error, leaves that one and its task
alone -/
theorem tick_turns_ward :
    let app := (initial {} (Replay.mk [])).run (rounds ward)
    let host := ward.kill ⟨7⟩
    let begun := ({ app, host } : Running Sandbox Replay).releaseDead.assignIdle
    ∃ (first second : Advance Sandbox Replay) (r : Running Sandbox Replay),
      Turns begun [first, second] (app.tick host []) ∧
      [first, second].map Advance.claim = [(⟨8⟩, ⟨0⟩), (⟨9⟩, ⟨1⟩)] ∧
      (∀ a ∈ [first, second], host.isAlive a.unit = true) ∧
      (r.concluded second).app.tasks.get? ⟨0⟩ = r.app.tasks.get? ⟨0⟩ ∧
      (r.concluded second).app.claims[(⟨8⟩ : UnitId)]? = r.app.claims[(⟨8⟩ : UnitId)]? := by
  intro app host begun
  have hclaims : begun.app.claims.toList = [(⟨8⟩, ⟨0⟩), (⟨9⟩, ⟨1⟩)] := by decide +kernel
  obtain ⟨calls, hturns, hcalls, -, -, hsplit, -, halive⟩ := tick_turns {} (Replay.mk []) (rounds ward) host []
  have hmap : calls.map Advance.claim = [(⟨8⟩, ⟨0⟩), (⟨9⟩, ⟨1⟩)] := hcalls.trans hclaims
  obtain ⟨first, rest, rfl, hfirst, hrest⟩ := List.map_eq_cons_iff.1 hmap
  obtain ⟨second, rest, rfl, hsecond, hnil⟩ := List.map_eq_cons_iff.1 hrest
  obtain rfl := List.map_eq_nil_iff.1 hnil
  obtain ⟨r, -, -, -, -, -, hisolated⟩ := hsplit [first] second [] rfl
  obtain ⟨hunit, htask⟩ := Prod.mk.inj hsecond
  refine ⟨first, second, r, hturns, hmap, halive Sandbox.mortal, hisolated.tasks _ ?_, hisolated.claims _ ?_⟩
  · rw [htask]
    decide
  · rw [hunit]
    decide

/-- a sandbox in which whoever is called off gets up again -/
structure Revival where
  sandbox : Sandbox

instance : Host Revival where
  world r := r.sandbox.world
  command u c r := ⟨r.sandbox.command u c⟩
  abort u r := ⟨(r.sandbox.abort u).modifyActor u fun a => { a with unit := { a.unit with alive := true } }⟩
  poll u r := (r.sandbox.status u, r)

/-- with such a host a unit that is dead at the start loses its claim, gets up and is given the task again, so that it
has a claim in the third phase -/
theorem dead_reclaims :
    let app := (initial {} (Replay.mk [])).run (rounds (Revival.mk ward))
    let host : Revival := ⟨ward.kill ⟨7⟩⟩
    let begun := ({ app, host } : Running Revival Replay).releaseDead.assignIdle
    (Host.world host).isAlive ⟨7⟩ = false ∧ begun.report.interrupted = [⟨0⟩] ∧
      begun.app.claims[(⟨7⟩ : UnitId)]? = some ⟨0⟩ ∧ ¬ Host.Mortal Revival := by
  intro app host begun
  have hdead : (Host.world host).isAlive ⟨7⟩ = false := by decide +kernel
  refine ⟨hdead, by decide +kernel, by decide +kernel, fun hmortal => ?_⟩
  have hrises : (Host.world (Host.abort ⟨7⟩ host)).isAlive ⟨7⟩ = true := by decide +kernel
  rw [hmortal host ⟨7⟩ ⟨7⟩ hrises] at hdead
  cases hdead

end Application

end Errand
