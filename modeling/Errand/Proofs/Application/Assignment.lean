/-
Assignment: what the second phase of a tick hands out, and that it leaves no unit idle while something is pending.

The phase goes through the schedulers in turn (`offerEach`). For one of them it makes exactly the claims by which its
idle units, in order, are paired with what is pending at that moment, in order of rank (`offer_eq`): each claim strikes
one task from what is pending and one unit from those that are idle. A scheduler is served when nothing is pending any
more or every living member of its faction holds something; it stays served whatever is claimed afterwards, for other
pools (`Served.claiming`), so at the end of the phase all of them are.
-/
import Errand.Proofs.Application.Refusal
import Errand.Proofs.Scheduler.Order

namespace Errand

namespace Running

open Application

variable {σ ρ : Type} {r : Running σ ρ} {world : World}

/-! ## Claims one after the other -/

/-- a unit claims a task, and the report says so -/
def claiming (r : Running σ ρ) (c : UnitId × TaskId) : Running σ ρ :=
  { r with
    app := { r.app with tasks := r.app.tasks.modify c.2 (·.claim c.1), claims := r.app.claims.insert c.1 c.2 }
    report := { r.report with assigned := r.report.assigned ++ [c] } }

def claimEach (r : Running σ ρ) (cs : List (UnitId × TaskId)) : Running σ ρ := cs.foldl claiming r

theorem assigned_claimEach (r : Running σ ρ) (cs : List (UnitId × TaskId)) :
    (r.claimEach cs).report.assigned = r.report.assigned ++ cs := by
  induction cs generalizing r with
  | nil => simp [claimEach]
  | cons c cs ih =>
    calc ((r.claiming c).claimEach cs).report.assigned = (r.claiming c).report.assigned ++ cs := ih _
      _ = r.report.assigned ++ c :: cs := List.append_assoc _ _ _

theorem claims_claiming (r : Running σ ρ) (u : UnitId) (t : TaskId) (v : UnitId) :
    (r.claiming (u, t)).app.claims[v]? = if u = v then some t else r.app.claims[v]? := by
  simp [claiming, Std.ExtTreeMap.getElem?_insert]

/-- the table after units that held nothing have claimed one task each -/
theorem claims_claimEach {cs : List (UnitId × TaskId)} (hcs : (cs.map (·.1)).Nodup)
    (hfree : ∀ c ∈ cs, r.app.claims[c.1]? = none) (u : UnitId) (t : TaskId) :
    (r.claimEach cs).app.claims[u]? = some t ↔ (u, t) ∈ cs ∨ r.app.claims[u]? = some t := by
  induction cs generalizing r with
  | nil => simp [claimEach]
  | cons c cs ih =>
    obtain ⟨v, t'⟩ := c
    rw [List.map_cons, List.nodup_cons] at hcs
    have hv : ∀ d ∈ cs, v ≠ d.1 := fun d hd he => hcs.1 (List.mem_map.2 ⟨d, hd, he.symm⟩)
    have hfree' : ∀ d ∈ cs, (r.claiming (v, t')).app.claims[d.1]? = none := by
      intro d hd
      rw [claims_claiming, if_neg (hv d hd)]
      exact hfree d (List.mem_cons_of_mem _ hd)
    have hnone : r.app.claims[v]? = none := hfree (v, t') List.mem_cons_self
    have hstep : (r.claimEach ((v, t') :: cs)).app.claims[u]? = some t ↔
        (u, t) ∈ cs ∨ (r.claiming (v, t')).app.claims[u]? = some t := ih hcs.2 hfree'
    rw [hstep, claims_claiming, List.mem_cons, Prod.mk.injEq]
    by_cases hu : v = u
    · subst u
      simp [hnone, eq_comm, or_comm]
    · simp [hu, Ne.symm hu]

/-- units that are listed once occur once in a pairing -/
theorem nodup_fst_zip {us : List UnitId} (h : us.Nodup) (ts : List TaskId) : ((us.zip ts).map (·.1)).Nodup := by
  have hfst : ((us.zip ts).map (·.1)) = us.take (min us.length ts.length) := by
    rw [List.zip_eq_zip_take_min]
    exact List.map_fst_zip (by simp)
  rw [hfst]
  exact h.sublist (List.take_sublist _ _)

/-! ## One scheduler -/

/-- the units that live and hold nothing -/
def idle (world : World) (r : Running σ ρ) (us : List UnitId) : List UnitId :=
  us.filter fun u => world.isAlive u && (r.app.claims[u]?).isNone

theorem mem_idle {us : List UnitId} {u : UnitId} :
    u ∈ r.idle world us ↔ u ∈ us ∧ world.isAlive u = true ∧ r.app.claims[u]? = none := by
  simp [idle]

/-- whom the phase passes over -/
theorem passes_over_iff {u : UnitId} :
    (r.app.claims.contains u || !world.isAlive u) = true ↔ ¬ (world.isAlive u = true ∧ r.app.claims[u]? = none) := by
  rw [← Std.ExtTreeMap.isSome_getElem?_eq_contains]
  cases world.isAlive u <;> cases r.app.claims[u]? <;> simp

theorem offer_cons_idle {sched : Scheduler} {s : SchedulerId} {u : UnitId} {rest : List UnitId}
    (hs : r.app.scheduler? s = some sched) (ha : world.isAlive u = true) (hu : r.app.claims[u]? = none) :
    r.offer world s (u :: rest) =
      match sched.pending r.app.tasks with
      | [] => r
      | t :: _ => (r.claiming (u, t)).offer world s rest := by
  rw [offer, if_neg (mt passes_over_iff.1 (not_not.2 ⟨ha, hu⟩)), assignNext, hu, hs]
  simp only [Scheduler.assignNext_eq]
  cases sched.pending r.app.tasks <;> rfl

theorem offer_cons_busy {s : SchedulerId} {u : UnitId} {rest : List UnitId}
    (hu : ¬ (world.isAlive u = true ∧ r.app.claims[u]? = none)) :
    r.offer world s (u :: rest) = r.offer world s rest := by
  rw [offer, if_pos (passes_over_iff.2 hu)]

/-- **What is offered**: the idle units are paired with what is pending, each in order, as far as both reach -/
theorem offer_eq {sched : Scheduler} {s : SchedulerId} {us : List UnitId} (hs : r.app.scheduler? s = some sched)
    (ho : sched.Orderly) (hus : us.Nodup) :
    r.offer world s us = r.claimEach ((r.idle world us).zip (sched.pending r.app.tasks)) := by
  induction us generalizing r with
  | nil => rfl
  | cons u rest ih =>
    rw [List.nodup_cons] at hus
    by_cases hu : world.isAlive u = true ∧ r.app.claims[u]? = none
    · have hidle : r.idle world (u :: rest) = u :: r.idle world rest := List.filter_cons_of_pos (by simp [hu])
      rw [offer_cons_idle hs hu.1 hu.2, hidle]
      cases hp : sched.pending r.app.tasks with
      | nil => rfl
      | cons t ts =>
        -- the claim takes `u` from the idle units and `t` from what is pending
        have hpending : sched.pending (r.claiming (u, t)).app.tasks = ts := Scheduler.pending_claim_first ho hp u
        have hrest : (r.claiming (u, t)).idle world rest = r.idle world rest := by
          refine List.filter_congr fun v hv => ?_
          have hne : u ≠ v := fun he => hus.1 (he ▸ hv)
          rw [claims_claiming, if_neg hne]
        calc (r.claiming (u, t)).offer world s rest
            = (r.claiming (u, t)).claimEach (((r.claiming (u, t)).idle world rest).zip
                (sched.pending (r.claiming (u, t)).app.tasks)) := ih hs hus.2
          _ = (r.claiming (u, t)).claimEach ((r.idle world rest).zip ts) := by rw [hpending, hrest]
    · have hidle : r.idle world (u :: rest) = r.idle world rest := List.filter_cons_of_neg (by simpa using hu)
      rw [offer_cons_busy hu, hidle]
      exact ih hs hus.2

/-- when nothing is pending, nothing is given away -/
theorem offer_of_pending_nil {sched : Scheduler} {s : SchedulerId} (hs : r.app.scheduler? s = some sched)
    (hp : sched.pending r.app.tasks = []) (us : List UnitId) : r.offer world s us = r := by
  induction us with
  | nil => rfl
  | cons u rest ih =>
    by_cases hu : world.isAlive u = true ∧ r.app.claims[u]? = none
    · rw [offer_cons_idle hs hu.1 hu.2, hp]
    · rw [offer_cons_busy hu, ih]

theorem offer_append {sched : Scheduler} {s : SchedulerId} (hs : r.app.scheduler? s = some sched)
    (us vs : List UnitId) : r.offer world s (us ++ vs) = (r.offer world s us).offer world s vs := by
  induction us generalizing r with
  | nil => rfl
  | cons u rest ih =>
    rw [List.cons_append]
    by_cases hu : world.isAlive u = true ∧ r.app.claims[u]? = none
    · rw [offer_cons_idle hs hu.1 hu.2, offer_cons_idle hs hu.1 hu.2]
      cases hp : sched.pending r.app.tasks with
      | nil => exact (offer_of_pending_nil hs hp vs).symm
      | cons t ts => exact ih hs
    · rw [offer_cons_busy hu, offer_cons_busy hu]
      exact ih hs

/-! ## Induction over the phase -/

/-- the unit may claim the task: it lives and holds nothing, no unit holds the task, and some pool has it -/
structure MayClaim (world : World) (r : Running σ ρ) (u : UnitId) (t : TaskId) : Prop where
  alive : world.isAlive u = true
  idle : r.app.claims[u]? = none
  free : ∃ task, r.app.tasks.get? t = some task ∧ task.unit? = none
  member : ∃ s sched, r.app.scheduler? s = some sched ∧ t ∈ sched.ordered r.app.tasks

/-- **What a claim keeps, offering keeps** -/
theorem offer_induct {P : Running σ ρ → Prop}
    (hP : ∀ (r : Running σ ρ) (u : UnitId) (t : TaskId), r.MayClaim world u t → P r → P (r.claiming (u, t)))
    (s : SchedulerId) (us : List UnitId) (h : P r) : P (r.offer world s us) := by
  induction us generalizing r with
  | nil => exact h
  | cons u rest ih =>
    by_cases hu : world.isAlive u = true ∧ r.app.claims[u]? = none
    · rw [offer, if_neg (mt passes_over_iff.1 (not_not.2 hu))]
      obtain ⟨e, he⟩ | he | ⟨sched, t, task, hnone, hs, hm, ht, hfree, he⟩ := r.app.assignNext_cases s u
      · rw [he]
        exact h
      · rw [he]
        exact h
      · rw [he]
        exact ih (hP r u t ⟨hu.1, hnone, ⟨task, ht, hfree⟩, s, sched, hs, hm⟩ h)
    · rw [offer_cons_busy hu]
      exact ih h

/-- a living unit that holds nothing claims a task that no unit holds -/
theorem offer_keeps {P : Running σ ρ → Prop}
    (hP : ∀ (r : Running σ ρ) (u : UnitId) (t : TaskId) (task : Task), world.isAlive u = true →
      r.app.claims[u]? = none → r.app.tasks.get? t = some task → task.unit? = none → P r → P (r.claiming (u, t)))
    (s : SchedulerId) (us : List UnitId) (h : P r) : P (r.offer world s us) := by
  refine offer_induct (fun r u t hm h => ?_) s us h
  obtain ⟨task, ht, hfree⟩ := hm.free
  exact hP r u t task hm.alive hm.idle ht hfree h

/-- offers what some schedulers have, one after the other -/
def offerEach (world : World) (r : Running σ ρ) (scheds : List Scheduler) : Running σ ρ :=
  scheds.foldl (fun r sched => r.offer world sched.id (world.members sched.faction)) r

theorem offerEach_induct {P : Running σ ρ → Prop}
    (hP : ∀ (r : Running σ ρ) (u : UnitId) (t : TaskId), r.MayClaim world u t → P r → P (r.claiming (u, t)))
    (scheds : List Scheduler) (h : P r) : P (r.offerEach world scheds) := by
  apply List.foldlRecOn (motive := P)
  · exact h
  · intro r h sched _
    exact offer_induct hP _ _ h

theorem offerEach_keeps {P : Running σ ρ → Prop}
    (hP : ∀ (r : Running σ ρ) (u : UnitId) (t : TaskId) (task : Task), world.isAlive u = true →
      r.app.claims[u]? = none → r.app.tasks.get? t = some task → task.unit? = none → P r → P (r.claiming (u, t)))
    (scheds : List Scheduler) (h : P r) : P (r.offerEach world scheds) := by
  refine offerEach_induct (fun r u t hm h => ?_) scheds h
  obtain ⟨task, ht, hfree⟩ := hm.free
  exact hP r u t task hm.alive hm.idle ht hfree h

theorem assignIdle_eq [Host σ] (r : Running σ ρ) :
    r.assignIdle = r.offerEach (Host.world r.host) r.app.schedulers.toList := by
  simp only [assignIdle, offerEach, List.foldl_map]

theorem schedulers_offerEach (world : World) (r : Running σ ρ) (scheds : List Scheduler) :
    (r.offerEach world scheds).app.schedulers = r.app.schedulers :=
  offerEach_keeps (P := fun r' => r'.app.schedulers = r.app.schedulers) (fun _ _ _ _ _ _ _ _ h => h) scheds rfl

theorem scheduler?_offerEach (world : World) (r : Running σ ρ) (scheds : List Scheduler) (s : SchedulerId) :
    (r.offerEach world scheds).app.scheduler? s = r.app.scheduler? s := by
  rw [scheduler?, schedulers_offerEach]
  rfl

theorem claims_claiming_of_some {u v : UnitId} {t t' : TaskId} (hu : r.app.claims[u]? = none)
    (hv : r.app.claims[v]? = some t') : (r.claiming (u, t)).app.claims[v]? = some t' := by
  have hne : u ≠ v := by
    rintro rfl
    rw [hu] at hv
    cases hv
  rw [claims_claiming, if_neg hne, hv]

theorem claims_offer_of_some {s : SchedulerId} {us : List UnitId} {v : UnitId} {t : TaskId}
    (hv : r.app.claims[v]? = some t) : (r.offer world s us).app.claims[v]? = some t := by
  apply offer_keeps (P := fun r' => r'.app.claims[v]? = some t)
  · intro r' u t' _ _ hu _ _ hv'
    exact claims_claiming_of_some hu hv'
  · exact hv

/-! ## Schedulers that are served -/

/-- nothing is pending, or every living member of the faction holds something -/
def Served (world : World) (r : Running σ ρ) (sched : Scheduler) : Prop :=
  sched.pending r.app.tasks = [] ∨
    ∀ u ∈ world.members sched.faction, world.isAlive u = true → ∃ t, r.app.claims[u]? = some t

/-- **Claims for other pools do no harm** -/
theorem Served.claiming {sched : Scheduler} (h : r.Served world sched) {u : UnitId} (hu : r.app.claims[u]? = none)
    (t : TaskId) : (r.claiming (u, t)).Served world sched := by
  rcases h with hp | hall
  · left
    rw [Running.claiming, Scheduler.pending_claim, hp]
    rfl
  · right
    intro v hv ha
    obtain ⟨t', ht'⟩ := hall v hv ha
    exact ⟨t', claims_claiming_of_some hu ht'⟩

/-- once it has been offered what is pending, either nothing is left or every living unit holds something -/
theorem served_offer {sched : Scheduler} {s : SchedulerId} (hs : r.app.scheduler? s = some sched) (us : List UnitId) :
    sched.pending (r.offer world s us).app.tasks = [] ∨
      ∀ u ∈ us, world.isAlive u = true → ∃ t, (r.offer world s us).app.claims[u]? = some t := by
  induction us generalizing r with
  | nil => exact .inr fun u hu => absurd hu List.not_mem_nil
  | cons u rest ih =>
    by_cases hu : world.isAlive u = true ∧ r.app.claims[u]? = none
    · rw [offer_cons_idle hs hu.1 hu.2]
      cases hp : sched.pending r.app.tasks with
      | nil => exact .inl hp
      | cons t ts =>
        refine (ih (r := r.claiming (u, t)) hs).imp_right fun hrest v hv ha => ?_
        rcases List.mem_cons.1 hv with rfl | hv
        · exact ⟨t, claims_offer_of_some (by rw [claims_claiming, if_pos rfl])⟩
        · exact hrest v hv ha
    · rw [offer_cons_busy hu]
      refine (ih hs).imp_right fun hrest v hv ha => ?_
      rcases List.mem_cons.1 hv with rfl | hv
      · obtain ⟨t, ht⟩ := Option.ne_none_iff_exists'.1 fun hnone => hu ⟨ha, hnone⟩
        exact ⟨t, claims_offer_of_some ht⟩
      · exact hrest v hv ha

/-- **Whoever has had its turn is served**, also when the phase has gone on to others -/
theorem served_offerEach {scheds : List Scheduler} (hs : ∀ sched ∈ scheds, r.app.scheduler? sched.id = some sched) :
    ∀ sched ∈ scheds, (r.offerEach world scheds).Served world sched := by
  induction scheds generalizing r with
  | nil => exact fun sched hm => absurd hm List.not_mem_nil
  | cons first scheds ih =>
    have hfirst : (r.offer world first.id (world.members first.faction)).Served world first :=
      served_offer (hs first List.mem_cons_self) _
    have hs' : ∀ sched ∈ scheds,
        (r.offer world first.id (world.members first.faction)).app.scheduler? sched.id = some sched := by
      intro sched hm
      have hsame : (r.offerEach world [first]).app.scheduler? sched.id = r.app.scheduler? sched.id :=
        r.scheduler?_offerEach world [first] sched.id
      exact hsame.trans (hs sched (List.mem_cons_of_mem _ hm))
    intro sched hm
    rcases List.mem_cons.1 hm with rfl | hm
    · refine offerEach_keeps (P := fun r => r.Served world sched) ?_ scheds hfirst
      intro r u t _ _ hu _ _ h
      exact h.claiming hu t
    · exact ih hs' sched hm

/-- the claims of dead units are taken by interruptions -/
theorem releaseDead_run [Host σ] [Picker ρ] (r : Running σ ρ) :
    ∃ earlier : List (Op σ), r.releaseDead.app = r.app.run earlier := by
  have hone : ∀ (r : Running σ ρ) t, (r.freeDead t).app = r.app.perform (.interrupt t r.host) := by
    intro r t
    unfold freeDead
    split <;> (rename_i he; rw [perform, he])
  unfold releaseDead
  simp only []
  generalize List.filter _ _ = dead
  induction dead generalizing r with
  | nil => exact ⟨[], rfl⟩
  | cons c dead ih =>
    obtain ⟨earlier, he⟩ := ih (r.freeDead c.2)
    refine ⟨.interrupt c.2 r.host :: earlier, ?_⟩
    calc (dead.foldl (fun r c => r.freeDead c.2) (r.freeDead c.2)).app = (r.freeDead c.2).app.run earlier := he
      _ = (r.app.perform (.interrupt c.2 r.host)).run earlier := by rw [hone]

end Running

namespace Application

open Running

variable {σ ρ : Type} [Host σ] [Picker ρ]

/-! ## The phase after any run -/

omit [Host σ] [Picker ρ] in
theorem Pools.scheduler?_id {app : Application ρ} (h : app.Pools) {sched : Scheduler} (hm : sched ∈ app.schedulers) :
    app.scheduler? sched.id = some sched := by
  obtain ⟨i, hi, he⟩ := Array.mem_iff_getElem.1 hm
  have hs : app.scheduler? ⟨i⟩ = some sched := he ▸ Array.getElem?_eq_getElem hi
  rw [h.number ⟨i⟩ sched hs, hs]

/-- **No unit is idle while something is pending for it.** After any operations, with any arguments and hosts, let idle
units be assigned in a world that lists every member of a faction once. When the phase comes to a scheduler, it pairs
the members of its faction that live and hold nothing, in the order of the world, with what is pending at that moment,
in order of rank, as far as both lists reach: these claims are made and no others, and no call on behalf of a unit that
holds nothing is refused. When the phase ends, every scheduler has nothing pending or a claim for every living member of
its faction, whatever tasks it shares. A tick comes to this phase after interruptions only. -/
theorem assignIdle_serves (settings : Settings) (picker : ρ) (ops : List (Op σ)) (host : σ) (output : List Printed)
    (report : Report) (hmembers : ∀ f, ((Host.world host).members f).Nodup) :
    let world := Host.world host
    let r : Running σ ρ := { app := (initial settings picker).run ops, host, output, report }
    (∀ pre sched post, r.app.schedulers.toList = pre ++ sched :: post →
      let before := r.offerEach world pre
      let members := world.members sched.faction
      let idle := members.filter fun u => world.isAlive u && (before.app.claims[u]?).isNone
      let pairs := idle.zip (sched.pending before.app.tasks)
      let after := before.offer world sched.id members
      r.assignIdle = after.offerEach world post ∧ before.app.scheduler? sched.id = some sched ∧
      (sched.pending before.app.tasks).Pairwise (sched.Outranks before.app.tasks) ∧
      after = before.claimEach pairs ∧ after.report.assigned = before.report.assigned ++ pairs ∧
      (∀ u t, after.app.claims[u]? = some t ↔ (u, t) ∈ pairs ∨ before.app.claims[u]? = some t) ∧
      ∀ us u vs, members = us ++ u :: vs →
        let turn := before.offer world sched.id us
        after = turn.offer world sched.id (u :: vs) ∧
        (turn.app.claims[u]? = none → errorOf? (turn.app.assignNext sched.id u).1 = none)) ∧
    r.assignIdle.app.schedulers = r.app.schedulers ∧
    (∀ sched ∈ r.assignIdle.app.schedulers, sched.pending r.assignIdle.app.tasks = [] ∨
      ∀ u ∈ world.members sched.faction, world.isAlive u = true → ∃ t, r.assignIdle.app.claims[u]? = some t) ∧
    ∃ earlier : List (Op σ), r.releaseDead.app = (initial settings picker).run (ops ++ earlier) := by
  intro world r
  have hpools : r.app.Pools := run_pools settings picker ops
  have hphase : r.assignIdle = r.offerEach world r.app.schedulers.toList := r.assignIdle_eq
  have hsame : r.assignIdle.app.schedulers = r.app.schedulers := by
    rw [hphase]
    exact r.schedulers_offerEach world _
  refine ⟨?_, hsame, ?_, ?_⟩
  · intro pre sched post hsplit before members idle pairs after
    have hmem : sched ∈ r.app.schedulers := by
      rw [← Array.mem_toList_iff, hsplit]
      exact List.mem_append_right _ List.mem_cons_self
    have hs : before.app.scheduler? sched.id = some sched := by
      rw [r.scheduler?_offerEach world, hpools.scheduler?_id hmem]
    have ho : sched.Orderly := hpools.orderly sched.id sched (hpools.scheduler?_id hmem)
    have hafter : after = before.claimEach pairs := offer_eq hs ho (hmembers sched.faction)
    refine ⟨?_, hs, Scheduler.pairwise_pending ho _, hafter, ?_, ?_, ?_⟩
    · rw [hphase, hsplit]
      simp [offerEach, after, before, members]
    · rw [hafter, assigned_claimEach]
    · rw [hafter]
      have hidle : ∀ c ∈ pairs, c.1 ∈ idle := fun c hc => (List.of_mem_zip hc).1
      apply claims_claimEach
      · exact nodup_fst_zip ((hmembers sched.faction).filter _) _
      · intro c hc
        exact (mem_idle.1 (hidle c hc)).2.2
    · intro us u vs hus turn
      refine ⟨?_, fun hu => ?_⟩
      · rw [← offer_append hs, ← hus]
      · have hturn : turn.app.scheduler? sched.id = some sched :=
          (offer_keeps (P := fun r => r.app.scheduler? sched.id = some sched) (fun _ _ _ _ _ _ _ _ h => h) _ us hs)
        exact (errorOf_assignNext u).2 ⟨⟨sched, hturn⟩, hu⟩
  · intro sched hm
    rw [hsame] at hm
    rw [hphase]
    exact served_offerEach (fun sched hm => hpools.scheduler?_id (Array.mem_toList_iff.1 hm)) sched
      (Array.mem_toList_iff.2 hm)
  · obtain ⟨earlier, he⟩ := r.releaseDead_run
    exact ⟨earlier, he.trans List.foldl_append.symm⟩

/-- two units of one faction, and a dead one and two others of another -/
def twoTeams : Setting where
  size := ⟨4, 4, 1⟩
  figures := [{ id := ⟨7⟩, faction? := some ⟨1⟩ }, { id := ⟨8⟩, faction? := some ⟨1⟩ },
    { id := ⟨9⟩, faction? := some ⟨2⟩, alive := false }, { id := ⟨10⟩, faction? := some ⟨2⟩ },
    { id := ⟨11⟩, faction? := some ⟨2⟩ }]

/-- two pools that share their most urgent task -/
def sharedWork : List (Op Rehearsal) :=
  [.addTask (Task.make "dig" 1 (.print {} (.boolean {} true))),
    .addTask (Task.make "haul" 2 (.print {} (.boolean {} false))),
    .addTask (Task.make "rest" 0 (.print {} (.boolean {} true))),
    .addScheduler ⟨1⟩, .addScheduler ⟨2⟩, .schedule ⟨0⟩ ⟨0⟩, .schedule ⟨0⟩ ⟨1⟩, .schedule ⟨1⟩ ⟨1⟩, .schedule ⟨1⟩ ⟨2⟩]

/-- the pool of the first team; what was registered later is more urgent -/
def diggers : Scheduler := { id := ⟨0⟩, faction := ⟨1⟩, entries := [⟨⟨0⟩, 0⟩, ⟨⟨1⟩, 1⟩], nextSeq := 2 }

/-- the pool of the second team -/
def haulers : Scheduler := { id := ⟨1⟩, faction := ⟨2⟩, entries := [⟨⟨1⟩, 0⟩, ⟨⟨2⟩, 1⟩], nextSeq := 2 }

/-- the first pool gives the shared task away before the second has its turn, where then one unit remains idle -/
theorem assignIdle_serves_sharedWork :
    let world := twoTeams.world
    let r : Running Rehearsal Replay := { app := (initial {} (Replay.mk [])).run sharedWork, host := { world } }
    r.app.schedulers.toList = [diggers, haulers] ∧ (∀ f, (world.members f).Nodup) ∧
      r.assignIdle.report.assigned = [(⟨7⟩, ⟨1⟩), (⟨8⟩, ⟨0⟩), (⟨10⟩, ⟨2⟩)] ∧
      ∀ sched ∈ [diggers, haulers], sched.pending r.assignIdle.app.tasks = [] ∨
        ∀ u ∈ world.members sched.faction, world.isAlive u = true → ∃ t, r.assignIdle.app.claims[u]? = some t := by
  intro world r
  have hpools : r.app.schedulers.toList = [diggers, haulers] := by decide +kernel
  have hmembers : ∀ f, (world.members f).Nodup := by
    intro f
    have hids : (twoTeams.figures.map (·.id)).Nodup := by decide
    exact hids.sublist (List.filter_sublist.map _)
  obtain ⟨hturns, hsame, hserved, -⟩ := assignIdle_serves {} (Replay.mk []) sharedWork r.host [] {} hmembers
  -- the first turn
  have hidle : r.idle world (world.members ⟨1⟩) = [⟨7⟩, ⟨8⟩] := by decide +kernel
  have hpending : diggers.pending r.app.tasks = [⟨1⟩, ⟨0⟩] := by
    have hranked : diggers.ranked r.app.tasks = [⟨1, ⟨⟨0⟩, 0⟩⟩, ⟨2, ⟨⟨1⟩, 1⟩⟩] := by decide +kernel
    have hsorted : diggers.ordered r.app.tasks = [⟨1⟩, ⟨0⟩] := by
      rw [Scheduler.ordered_eq, hranked]
      cbv
    rw [Scheduler.pending, hsorted]
    decide +kernel
  have hfirst : r.offer world ⟨0⟩ (world.members ⟨1⟩) =
      r.claimEach ((r.idle world (world.members ⟨1⟩)).zip (diggers.pending r.app.tasks)) :=
    (hturns [] diggers [haulers] hpools).2.2.2.1
  rw [hidle, hpending] at hfirst
  -- the second turn, where the shared task is taken
  let begun := r.claimEach [(⟨7⟩, ⟨1⟩), (⟨8⟩, ⟨0⟩)]
  have hidle' : begun.idle world (world.members ⟨2⟩) = [⟨10⟩, ⟨11⟩] := by decide +kernel
  have hpending' : haulers.pending begun.app.tasks = [⟨2⟩] := by
    have hranked : haulers.ranked begun.app.tasks = [⟨2, ⟨⟨1⟩, 0⟩⟩, ⟨0, ⟨⟨2⟩, 1⟩⟩] := by decide +kernel
    have hsorted : haulers.ordered begun.app.tasks = [⟨1⟩, ⟨2⟩] := by
      rw [Scheduler.ordered_eq, hranked]
      cbv
    rw [Scheduler.pending, hsorted]
    decide +kernel
  have hbegun : r.offer world ⟨0⟩ (world.members ⟨1⟩) = begun := hfirst
  obtain ⟨hphase, -, -, -, hsecond, -⟩ := hturns [diggers] haulers [] hpools
  have hassigned : r.assignIdle.report.assigned = (r.offer world ⟨0⟩ (world.members ⟨1⟩)).report.assigned ++
      ((r.offer world ⟨0⟩ (world.members ⟨1⟩)).idle world (world.members ⟨2⟩)).zip
        (haulers.pending (r.offer world ⟨0⟩ (world.members ⟨1⟩)).app.tasks) :=
    (congrArg (·.report.assigned) hphase).trans hsecond
  rw [hbegun, hidle', hpending'] at hassigned
  refine ⟨hpools, hmembers, hassigned, fun sched hm => hserved sched ?_⟩
  rw [hsame, ← Array.mem_toList_iff]
  exact hpools ▸ hm

end Application

end Errand
