/-
Attendance: no unit of a sandbox is left with an action that no task waits for.

`Attends` says that every unit whose status is in progress holds a task with an action on record. An interruption aborts
that action; a claim that ends otherwise ends because the task is done or has failed, and then the last answer of the
unit was not that it is in progress (`attends_advance`). So whatever an application does in a sandbox, and whatever
befalls the sandbox meanwhile, the site stays attended (`attended_history`): every busy unit is in the table of claims,
and its task waits for it (`busy_claimed`).
-/
import Errand.Proofs.Application.Lives
import Errand.Proofs.Sandbox.Status

namespace Errand

/-! ## The host after a change of a task -/

namespace Task

variable {t : Task} {u : UnitId} {w : Sandbox}

theorem status_interrupt (hu : t.unit? = some u) (ha : t.action? ≠ none) :
    (t.interrupt w).2.2.status u ≠ .inProgress := by
  obtain ⟨kind, hk⟩ := Option.ne_none_iff_exists'.1 ha
  unfold interrupt
  simp only [hu, hk]
  exact w.status_abort u

theorem calm_interrupt (t : Task) (w : Sandbox) : Sandbox.Calm w (t.interrupt w).2.2 := by
  unfold interrupt
  simp only []
  split
  · exact w.calm_abort _
  · exact .refl w

end Task

/-- a step concerns the status of its own unit only; if that is in progress afterwards, the step waits for it, or the
unit was in progress before without an action on record -/
theorem Stmt.Effect.status {ρ : Type} [Picker ρ] {fr : Frame} {s : Stmt} {lv : Live Sandbox ρ} {r : Stepped Sandbox ρ}
    (h : Stmt.Effect fr s lv r) (hr : Records lv.action s) :
    (∀ v, fr.unit ≠ v → r.live.host.status v = lv.host.status v) ∧
      (r.live.host.status fr.unit = .inProgress →
        r.result = .ok .inProgress ∧ r.live.action ≠ none ∨
          lv.host.status fr.unit = .inProgress ∧ lv.action = none) := by
  cases h with
  | quiet hs _ hh _ =>
    rw [hh]
    exact ⟨fun _ _ => rfl, fun hp => .inr ⟨hp, hr.eq_none hs⟩⟩
  | @waits kind hs hasked =>
    have hleft : r.live.host = lv.host := hasked.left
    rw [hleft]
    refine ⟨fun _ _ => rfl, fun hp => .inl ?_⟩
    obtain ⟨hresult, -, haction⟩ := hasked.goes hp
    exact ⟨hresult, by rw [haction, (hr kind).2 hs]; simp⟩
  | @starts kind c hs hasked =>
    have hleft : r.live.host = lv.host.command fr.unit c := hasked.left
    rw [hleft]
    refine ⟨fun v hv => Sandbox.status_command c hv, fun hp => .inl ?_⟩
    obtain ⟨hresult, -, haction⟩ := hasked.goes hp
    exact ⟨hresult, by rw [haction]; simp⟩

namespace Arena

/-! ## Attendance of the tasks -/

/-- every unit whose action is in progress holds a task with an action on record -/
def Attends (a : Arena) (w : Sandbox) : Prop :=
  ∀ u, w.status u = .inProgress → ∃ t task, a.get? t = some task ∧ task.unit? = some u ∧ task.action? ≠ none

variable {a : Arena} {w w' : Sandbox} {t : TaskId} {task : Task} {u : UnitId} {f : Task → Task}

theorem Attends.calm (h : a.Attends w) (hc : Sandbox.Calm w w') : a.Attends w' := fun u hu => h u (hc u hu)

/-- a change after which a task keeps the unit and the action that are still in progress -/
theorem Attends.modify (h : a.Attends w) (hc : Sandbox.Calm w w')
    (hf : ∀ task u, a.get? t = some task → task.unit? = some u → task.action? ≠ none → w'.status u = .inProgress →
      (f task).unit? = some u ∧ (f task).action? ≠ none) : (a.modify t f).Attends w' := by
  intro u hu
  obtain ⟨t', task, ht', hunit, haction⟩ := h u (hc u hu)
  by_cases ht : t = t'
  · subst t'
    exact ⟨t, f task, by rw [get?_modify, if_pos rfl, ht']; rfl, hf task u ht' hunit haction hu⟩
  · exact ⟨t', task, by rw [get?_modify, if_neg ht, ht'], hunit, haction⟩

/-- a change that concerns neither unit nor action -/
theorem Attends.keep (h : a.Attends w) (hu : ∀ task, (f task).unit? = task.unit?)
    (ha : ∀ task, (f task).action? = task.action?) : (a.modify t f).Attends w :=
  h.modify (.refl w) fun task u _ hunit haction _ => ⟨(hu task).trans hunit, by rwa [ha task]⟩

/-- any change of a task that no unit holds -/
theorem Attends.free (h : a.Attends w) (hfree : ∀ task, a.get? t = some task → task.unit? = none) :
    (a.modify t f).Attends w := by
  refine h.modify (.refl w) fun task u ht hu => ?_
  rw [hfree task ht] at hu
  cases hu

/-- any change of a task whose unit is not busy -/
theorem Attends.ended (h : a.Attends w) (ht : a.get? t = some task) (hu : task.unit? = some u)
    (hw : w.status u ≠ .inProgress) : (a.modify t f).Attends w := by
  refine h.modify (.refl w) fun task' v ht' hv _ hp => ?_
  obtain rfl := Option.some.inj (ht.symm.trans ht')
  obtain rfl := Option.some.inj (hu.symm.trans hv)
  exact absurd hp hw

theorem Attends.insert (h : a.Attends w) (new : Task) : (a.insert new).2.Attends w := by
  intro u hu
  obtain ⟨t, task, ht, hunit, haction⟩ := h u hu
  have hlt : t.index ≠ a.size := by
    intro he
    rw [get?_eq_none_of_size_le he.ge] at ht
    cases ht
  exact ⟨t, task, by rw [get?_insert, if_neg hlt, ht], hunit, haction⟩

theorem Attends.interrupt (h : a.Attends w) (ht : a.get? t = some task) (f : Task → Task) :
    (a.modify t f).Attends (task.interrupt w).2.2 := by
  refine h.modify (task.calm_interrupt w) fun task' u ht' hu ha hp => ?_
  obtain rfl := Option.some.inj (ht.symm.trans ht')
  exact absurd hp (Task.status_interrupt hu ha)

variable {ρ : Type} [Picker ρ]

/-- **An advance by the holder**: if its unit is busy afterwards, the task is under way and waits for it; no other task
holds the unit, so no one else lets it go -/
theorem attends_advance {o : Outside Sandbox ρ} (h : a.Attends o.host) (ht : a.get? t = some task)
    (hu : task.unit? = some u) (hone : ∀ t', a.holder? t' = some u → t' = t) (hcoherent : task.Coherent) :
    ((task.stepFor u o).live.host.status u = .inProgress → (task.stepFor u o).result = .ok .inProgress) ∧
      (a.modify t fun _ => task.advanced u o).Attends (task.stepFor u o).live.host := by
  have hheld : task.heldBy u o.host = task := by rw [Task.heldBy_eq, if_pos hu]
  have heffect := Task.effect_stepFor hcoherent u o
  rw [hheld, Task.claimFor_of_unit? hu] at heffect
  obtain ⟨hothers, hown⟩ := heffect.status hcoherent.records
  -- with nothing on record the unit was not busy before, since this is the only task that it holds
  have hbusy : (task.stepFor u o).live.host.status u = .inProgress →
      (task.stepFor u o).result = .ok .inProgress ∧ (task.stepFor u o).live.action ≠ none := by
    intro hp
    obtain hwaits | ⟨hbefore, hnone⟩ := hown hp
    · exact hwaits
    · obtain ⟨t', task', ht', hu', ha'⟩ := h u hbefore
      obtain rfl := hone t' ((holder?_of_get? ht').trans hu')
      obtain rfl := Option.some.inj (ht.symm.trans ht')
      exact absurd hnone ha'
  refine ⟨fun hp => (hbusy hp).1, fun v hp => ?_⟩
  by_cases hv : u = v
  · subst v
    obtain ⟨hresult, haction⟩ := hbusy hp
    refine ⟨t, _, Running.get?_modify_self ht _, task.unit?_advanced u o, ?_⟩
    simpa only [Task.advanced_eq, hresult] using haction
  · obtain ⟨t', task', ht', hu', ha'⟩ := h v ((hothers v hv).symm.trans hp)
    have hne : t ≠ t' := by
      rintro rfl
      obtain rfl := Option.some.inj (ht.symm.trans ht')
      exact hv (Option.some.inj (hu.symm.trans hu'))
    exact ⟨t', task', by rw [get?_modify, if_neg hne, ht'], hu', ha'⟩

end Arena

namespace Application

variable {ρ : Type} {app : Application ρ} {w : Sandbox}

/-! ## Operations -/

theorem attends_addTasks (h : app.tasks.Attends w) (ts : List Task) : (app.addTasks ts).2.tasks.Attends w := by
  induction ts generalizing app with
  | nil => exact h
  | cons t ts ih =>
    have hadded : (app.addTask t).2.tasks.Attends w := h.insert t
    exact ih hadded

theorem attends_addScheduler (h : app.tasks.Attends w) (f : FactionId) : (app.addScheduler f).2.tasks.Attends w := by
  obtain ⟨e, he⟩ | ⟨-, he⟩ := app.addScheduler_cases f
  · rwa [he]
  · rwa [he]

theorem attends_schedule (h : app.tasks.Attends w) (s : SchedulerId) (t : TaskId) :
    (app.schedule s t).2.tasks.Attends w := by
  obtain ⟨e, he⟩ | ⟨sched, task, -, -, -, -, he⟩ := app.schedule_cases s t
  · rwa [he]
  · rw [he]
    exact h.keep (fun _ => rfl) (fun _ => rfl)

theorem attends_replace (h : app.tasks.Attends w) (s : SchedulerId) (t u : TaskId) :
    (app.replace s t u w).2.1.tasks.Attends (app.replace s t u w).2.2 := by
  obtain ⟨e, he⟩ | ⟨sched, slot, member, newcomer, -, -, ht, hu, -, hf, -, he⟩ := app.replace_cases s t u w
  · rwa [he]
  · rw [he, tasks_freeing]
    refine (h.interrupt ht _).free fun task hg => ?_
    -- neither the newcomer nor the member that was interrupted has a unit
    rw [Arena.get?_modify, hu] at hg
    split at hg
    · obtain rfl := Option.some.inj hg
      rfl
    · obtain rfl := Option.some.inj hg
      exact hf

theorem attends_assignNext (h : app.tasks.Attends w) (s : SchedulerId) (u : UnitId) :
    (app.assignNext s u).2.tasks.Attends w := by
  obtain ⟨e, he⟩ | he | ⟨sched, t, task, -, -, -, ht, hf, he⟩ := app.assignNext_cases s u
  · rwa [he]
  · rwa [he]
  · rw [he]
    refine h.free fun task' ht' => ?_
    obtain rfl := Option.some.inj (ht.symm.trans ht')
    exact hf

theorem attends_interrupt (h : app.tasks.Attends w) (t : TaskId) :
    (app.interrupt t w).2.1.tasks.Attends (app.interrupt t w).2.2 := by
  obtain ⟨e, he⟩ | ⟨task, ht, he⟩ := app.interrupt_cases t w
  · rwa [he]
  · rw [he, tasks_freeing]
    exact h.interrupt ht _

theorem attends_stop (h : app.tasks.Attends w) (s : SchedulerId) (t : TaskId) :
    (app.stop s t w).2.1.tasks.Attends (app.stop s t w).2.2 := by
  obtain ⟨e, he⟩ | ⟨task, ht, he⟩ := app.stop_cases s t w
  · rwa [he]
  · rw [he, tasks_freeing]
    exact h.interrupt ht _

theorem attends_unschedule (h : app.tasks.Attends w) (s : SchedulerId) (t : TaskId) :
    (app.unschedule s t).2.tasks.Attends w := by
  obtain ⟨e, he⟩ | ⟨sched, slot, -, -, he⟩ := app.unschedule_cases s t
  · rwa [he]
  · rw [he]
    exact h.keep (fun _ => rfl) (fun _ => rfl)

theorem attends_setPriority (h : app.tasks.Attends w) (t : TaskId) (priority : Int64) :
    (app.setPriority t priority).2.tasks.Attends w := by
  obtain ⟨e, he⟩ | ⟨task, -, he⟩ := app.setPriority_cases t priority
  · rwa [he]
  · rw [he]
    exact h.keep (fun _ => rfl) (fun _ => rfl)

/-- a finished task whose unit is not busy -/
theorem attends_finish (h : app.tasks.Attends w) {t : TaskId} {u : UnitId} {task : Task}
    (ht : app.tasks.get? t = some task) (hu : task.unit? = some u) (hw : w.status u ≠ .inProgress) :
    (app.finish t u).tasks.Attends w := by
  apply finish_keeps (P := fun app => app.tasks.Attends w)
  · exact h.ended ht hu hw
  · exact fun app s h => attends_unschedule h s t

/-- the application is regular, and no unit of the sandbox is busy without a task that waits for it -/
structure Attended (app : Application ρ) (w : Sandbox) : Prop where
  regular : app.Regular
  attends : app.tasks.Attends w

end Application

namespace Running

variable {ρ : Type} [Picker ρ] {r : Running Sandbox ρ}

open Application

/-! ## Ticks -/

theorem attended_freeDead (h : r.app.Attended r.host) (t : TaskId) :
    (r.freeDead t).app.Attended (r.freeDead t).host := by
  refine ⟨h.regular.chain (r.chain_freeDead t), ?_⟩
  have hfreed := attends_interrupt h.attends t
  unfold freeDead
  split
  · rename_i app host he
    rwa [he] at hfreed
  · rename_i app host he
    rwa [he] at hfreed

theorem attended_releaseDead (h : r.app.Attended r.host) : r.releaseDead.app.Attended r.releaseDead.host :=
  List.foldlRecOn (motive := fun r : Running Sandbox ρ => r.app.Attended r.host) _ _ h
    fun _ h c _ => attended_freeDead h c.2

omit [Picker ρ] in
theorem attends_offer (world : World) (s : SchedulerId) {us : List UnitId} (h : r.app.tasks.Attends r.host) :
    (r.offer world s us).app.tasks.Attends (r.offer world s us).host := by
  induction us generalizing r with
  | nil => exact h
  | cons u rest ih =>
    have hassigned := attends_assignNext h s u
    unfold offer
    split
    · exact ih h
    · split
      next t app he =>
        rw [he] at hassigned
        exact ih (r := { r with app, report := { r.report with assigned := r.report.assigned ++ [(u, t)] } }) hassigned
      next x app _ he =>
        rw [he] at hassigned
        exact hassigned

theorem attended_assignIdle (h : r.app.Attended r.host) : r.assignIdle.app.Attended r.assignIdle.host :=
  List.foldlRecOn (motive := fun r : Running Sandbox ρ => r.app.Attended r.host) _ _ h
    fun r h o _ => ⟨h.regular.chain (chain_offer _ o.1 r o.2), attends_offer _ o.1 h.attends⟩

theorem attended_stepClaim (h : r.app.Attended r.host) {u : UnitId} {t : TaskId} (hc : r.app.claims[u]? = some t) :
    (r.stepClaim u t).app.Attended (r.stepClaim u t).host := by
  refine ⟨h.regular.chain (chain_stepClaim r hc), ?_⟩
  obtain ⟨task, ht, hu⟩ := Arena.holder?_eq_some.1 ((h.regular.agree u t).1 hc)
  have hone : ∀ t', r.app.tasks.holder? t' = some u → t' = t := fun t' ht' =>
    Option.some.inj (((h.regular.agree u t').2 ht').symm.trans hc)
  let o : Outside Sandbox ρ := { host := r.host, picker := r.app.picker, output := r.output }
  have hattends : r.app.tasks.Attends o.host := h.attends
  obtain ⟨hbusy, hattends'⟩ := Arena.attends_advance hattends ht hu hone (h.regular.coherent t task ht)
  have ht' := get?_modify_self ht fun _ => task.advanced u o
  have hu' : (task.advanced u o).unit? = some u := task.unit?_advanced u o
  -- a claim that ends leaves its unit idle
  have hidle : ∀ x, (task.stepFor u o).result = x → x ≠ .ok .inProgress →
      (task.stepFor u o).live.host.status u ≠ .inProgress := fun x hx hne hp => hne (hx ▸ hbusy hp)
  unfold stepClaim
  simp only [ht, task.advance_eq]
  split
  · rename_i hr
    exact attends_finish hattends' ht' hu' (hidle _ hr (by simp))
  · rename_i hr
    exact hattends'.ended ht' hu' (hidle _ hr (by simp))
  · exact hattends'
  · rename_i e hr
    exact hattends'.ended ht' hu' (hidle _ hr (by simp))

theorem attended_tick {app : Application ρ} {w : Sandbox} (h : app.Attended w) (output : List Printed) :
    (app.tick w output).app.Attended (app.tick w output).host := by
  have hbegun := attended_assignIdle (attended_releaseDead (r := { app, host := w, output }) h)
  exact stepEach_keeps (P := fun r => r.app.Attended r.host) (fun _ _ _ hc h => attended_stepClaim h hc)
    (List.append_nil _).symm hbegun

end Running

/-! ## Histories -/

/-- an application with the sandbox in which it works -/
structure Site (ρ : Type) where
  app : Application ρ
  sandbox : Sandbox

/-- the same operation with another host -/
def Application.Op.withHost {σ τ : Type} (host : τ) : Op σ → Op τ
  | .addTask t => .addTask t
  | .instantiate t selections => .instantiate t selections
  | .addScheduler f => .addScheduler f
  | .schedule s t => .schedule s t
  | .replace s t u _ => .replace s t u host
  | .assignNext s u => .assignNext s u
  | .interrupt t _ => .interrupt t host
  | .stop s t _ => .stop s t host
  | .unschedule s t => .unschedule s t
  | .setPriority t priority => .setPriority t priority
  | .tick _ output => .tick host output

/-- what can happen at a site: an operation in its sandbox, or something that befalls the sandbox -/
inductive Happening where
  | operation (op : Application.Op Unit)
  | advance
  | kill (u : UnitId)
  | setTerrain (c : Cube) (t : Terrain)

namespace Site

variable {ρ : Type} [Picker ρ] {site : Site ρ}

/-- the operation, with the sandbox as its host -/
def operate (site : Site ρ) : Application.Op Unit → Site ρ
  | .replace s t u _ =>
    let (_, app, sandbox) := site.app.replace s t u site.sandbox
    { app, sandbox }
  | .interrupt t _ =>
    let (_, app, sandbox) := site.app.interrupt t site.sandbox
    { app, sandbox }
  | .stop s t _ =>
    let (_, app, sandbox) := site.app.stop s t site.sandbox
    { app, sandbox }
  | .tick _ output =>
    let r := site.app.tick site.sandbox output
    { app := r.app, sandbox := r.host }
  | op => { site with app := site.app.perform (op.withHost site.sandbox) }

theorem app_operate (site : Site ρ) (op : Application.Op Unit) :
    (site.operate op).app = site.app.perform (op.withHost site.sandbox) := by
  cases op <;> rfl

/-- an application in a sandbox whose units were just added -/
def opened (app : Application ρ) (w : Sandbox) (units : List Resident) : Site ρ :=
  { app, sandbox := units.foldl Sandbox.addUnit { w with actors := ∅ } }

def happen (site : Site ρ) : Happening → Site ρ
  | .operation op => site.operate op
  | .advance => { site with sandbox := site.sandbox.advance }
  | .kill u => { site with sandbox := site.sandbox.kill u }
  | .setTerrain c t => { site with sandbox := site.sandbox.setTerrain c t }

def history (site : Site ρ) (events : List Happening) : Site ρ := events.foldl happen site

/-- **Every operation leaves the site attended**, accepted or refused -/
theorem attended_operate (h : site.app.Attended site.sandbox) (op : Application.Op Unit) :
    (site.operate op).app.Attended (site.operate op).sandbox where
  regular := by
    rw [app_operate]
    exact h.regular.run [op.withHost site.sandbox]
  attends := by
    cases op with
    | addTask t => exact h.attends.insert t
    | instantiate t selections => exact Application.attends_addTasks h.attends _
    | addScheduler f => exact Application.attends_addScheduler h.attends f
    | schedule s t => exact Application.attends_schedule h.attends s t
    | replace s t u => exact Application.attends_replace h.attends s t u
    | assignNext s u => exact Application.attends_assignNext h.attends s u
    | interrupt t => exact Application.attends_interrupt h.attends t
    | stop s t => exact Application.attends_stop h.attends s t
    | unschedule s t => exact Application.attends_unschedule h.attends s t
    | setPriority t priority => exact Application.attends_setPriority h.attends t priority
    | tick _ output => exact (Running.attended_tick h output).attends

theorem attended_happen (h : site.app.Attended site.sandbox) (e : Happening) :
    (site.happen e).app.Attended (site.happen e).sandbox := by
  cases e with
  | operation op => exact attended_operate h op
  | advance => exact ⟨h.regular, h.attends.calm site.sandbox.calm_advance⟩
  | kill u => exact ⟨h.regular, h.attends.calm (site.sandbox.calm_kill u)⟩
  | setTerrain c t => exact ⟨h.regular, h.attends.calm (site.sandbox.calm_setTerrain c t)⟩

omit [Picker ρ] in
theorem attended_opened {app : Application ρ} (h : app.Regular) (w : Sandbox) (units : List Resident) :
    (opened app w units).app.Attended (opened app w units).sandbox :=
  ⟨h, fun u hu => absurd hu (Sandbox.still_addUnits w units u)⟩

theorem attended_history (h : site.app.Attended site.sandbox) (events : List Happening) :
    (site.history events).app.Attended (site.history events).sandbox := by
  induction events generalizing site with
  | nil => exact h
  | cons e events ih => exact ih (attended_happen h e)

/-- **No action without a task that waits for it.** Take an application after any operations, with any hosts, and a
sandbox whose units were just added. Then let anything happen: operations and ticks with the sandbox as the host, time,
deaths and changes of the terrain. Every unit whose status is in progress is in the table of claims, and the task that
it holds has an action on record; a unit that holds nothing, whatever ended its claim, has nothing in progress. -/
theorem busy_claimed {σ : Type} [Host σ] (settings : Settings) (picker : ρ) (earlier : List (Application.Op σ))
    (w : Sandbox) (units : List Resident) (events : List Happening) :
    let site := (opened ((Application.initial settings picker).run earlier) w units).history events
    (∀ u, site.sandbox.status u = .inProgress → ∃ t task kind, site.app.claims[u]? = some t ∧
      site.app.tasks.get? t = some task ∧ task.unit? = some u ∧ task.action? = some kind) ∧
    ∀ u, site.app.claims[u]? = none → site.sandbox.status u ≠ .inProgress := by
  intro site
  have hsite : site.app.Attended site.sandbox :=
    attended_history (attended_opened ((Application.regular_initial settings picker).run earlier) w units) events
  have hbusy : ∀ u, site.sandbox.status u = .inProgress → ∃ t task kind, site.app.claims[u]? = some t ∧
      site.app.tasks.get? t = some task ∧ task.unit? = some u ∧ task.action? = some kind := by
    intro u hu
    obtain ⟨t, task, ht, hunit, haction⟩ := hsite.attends u hu
    obtain ⟨kind, hkind⟩ := Option.ne_none_iff_exists'.1 haction
    exact ⟨t, task, kind, (hsite.regular.agree u t).2 (Arena.holder?_eq_some.2 ⟨task, ht, hunit⟩), ht, hunit, hkind⟩
  refine ⟨hbusy, fun u hnone hu => ?_⟩
  obtain ⟨t, task, kind, hclaim, -⟩ := hbusy u hu
  rw [hnone] at hclaim
  cases hclaim

/-- a level place with one unit, where nothing has happened yet -/
abbrev lawn : Site Replay :=
  opened ((Application.initial {} (Replay.mk [])).run ([] : List (Application.Op Sandbox))) { size := ⟨4, 4, 1⟩ }
    [{ id := ⟨7⟩, faction := ⟨1⟩, position := ⟨0, 0, 0⟩ }]

/-- the unit is on its way when it dies -/
def killedOnTheWay : List Happening :=
  [.operation (.addTask (Task.make "fetch" 2 (.action {} .moveTo (.cube {} ⟨3, 0, 0⟩)))),
    .operation (.addScheduler ⟨1⟩), .operation (.schedule ⟨0⟩ ⟨0⟩), .operation (.tick () []), .advance, .kill ⟨7⟩]

/-- the next tick takes its claim -/
def buried : List Happening := killedOnTheWay ++ [.operation (.tick () [])]

/-- the dead unit keeps its claim until then, and afterwards is not busy any more -/
theorem busy_claimed_killed :
    (lawn.history killedOnTheWay).sandbox.status ⟨7⟩ = .inProgress ∧
      (∃ t task kind, (lawn.history killedOnTheWay).app.claims[(⟨7⟩ : UnitId)]? = some t ∧
        (lawn.history killedOnTheWay).app.tasks.get? t = some task ∧ task.unit? = some ⟨7⟩ ∧
        task.action? = some kind) ∧
      (lawn.history buried).app.claims[(⟨7⟩ : UnitId)]? = none ∧
      (lawn.history buried).sandbox.status ⟨7⟩ ≠ .inProgress := by
  have hbusy : (lawn.history killedOnTheWay).sandbox.status ⟨7⟩ = .inProgress := by decide +kernel
  have hfree : (lawn.history buried).app.claims[(⟨7⟩ : UnitId)]? = none := by decide +kernel
  have hclaimed := (busy_claimed {} (Replay.mk []) ([] : List (Application.Op Sandbox)) _ _ killedOnTheWay).1 ⟨7⟩ hbusy
  have hidle := (busy_claimed {} (Replay.mk []) ([] : List (Application.Op Sandbox)) _ _ buried).2 ⟨7⟩ hfree
  exact ⟨hbusy, hclaimed, hfree, hidle⟩

end Site

end Errand
