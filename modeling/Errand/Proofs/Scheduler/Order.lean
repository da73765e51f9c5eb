/-
Order of assignment: in which order a pool gives its members away.

`Outranks` is the order itself: greater priority first, and between equal priorities the earlier registration. The
members are listed in this order, each once (`pairwise_ordered`, `nodup_ordered`), which is their order of registration
sorted by priority and left alone between equals (`ordered_eq_mergeSort`). So are the pending ones, of which an idle
unit takes the first (`assignNext_eq`). A claim changes no rank, so it strikes its task from what is pending and
leaves the rest in order (`pending_claim`).
-/
import Errand.Proofs.Application.Pending

namespace Errand

namespace Scheduler

variable {s : Scheduler} {tasks tasks' : Arena}

/-! ## Ranks -/

/-- two members, of which the first goes before the second: it is more urgent, or as urgent and registered earlier -/
def Outranks (s : Scheduler) (tasks : Arena) (t u : TaskId) : Prop :=
  ∃ d ∈ s.entries, ∃ e ∈ s.entries, ∃ first second, d.task = t ∧ e.task = u ∧ tasks.get? t = some first ∧
    tasks.get? u = some second ∧
    (second.priority < first.priority ∨ first.priority = second.priority ∧ d.seq < e.seq)

/-- the members that exist, in order of registration -/
def ranked (s : Scheduler) (tasks : Arena) : List Ranked :=
  s.entries.filterMap fun e => (tasks.get? e.task).map fun t => ⟨t.priority, e⟩

theorem ordered_eq (s : Scheduler) (tasks : Arena) :
    s.ordered tasks = ((s.ranked tasks).mergeSort Ranked.before).map (·.entry.task) := rfl

theorem mem_ranked {r : Ranked} :
    r ∈ s.ranked tasks ↔
      r.entry ∈ s.entries ∧ ∃ task, tasks.get? r.entry.task = some task ∧ task.priority = r.priority := by
  obtain ⟨priority, entry⟩ := r
  simp only [ranked, List.mem_filterMap, Option.map_eq_some_iff, Ranked.mk.injEq]
  constructor
  · rintro ⟨e, he, task, ht, rfl, rfl⟩
    exact ⟨he, task, ht, rfl⟩
  · rintro ⟨he, task, ht, hp⟩
    exact ⟨entry, he, task, ht, hp, rfl⟩

theorem Ranked.before_iff {a b : Ranked} :
    a.before b = true ↔
      b.priority.toInt < a.priority.toInt ∨ a.priority.toInt = b.priority.toInt ∧ a.entry.seq ≤ b.entry.seq := by
  simp [before, Int64.lt_iff_toInt_lt, Int64.toInt_inj]

theorem Ranked.before_trans (a b c : Ranked) (hab : a.before b = true) (hbc : b.before c = true) :
    a.before c = true := by
  rw [before_iff] at *
  omega

theorem Ranked.before_total (a b : Ranked) : (a.before b || b.before a) = true := by
  rw [Bool.or_eq_true, before_iff, before_iff]
  omega

/-- only priorities matter -/
theorem ordered_congr (h : ∀ t, (tasks'.get? t).map (·.priority) = (tasks.get? t).map (·.priority)) :
    s.ordered tasks' = s.ordered tasks := by
  have hranked : s.ranked tasks' = s.ranked tasks := by
    apply List.filterMap_congr
    intro e _
    have he := congrArg (Option.map fun p : Int64 => (⟨p, e⟩ : Ranked)) (h e.task)
    simpa only [Option.map_map, Function.comp_def] using he
  rw [ordered_eq, ordered_eq, hranked]

/-! ## The order of members -/

/-- two memberships that share neither the task nor the number -/
def Ranked.Apart (a b : Ranked) : Prop := a.entry.task ≠ b.entry.task ∧ a.entry.seq ≠ b.entry.seq

/-- no two members share a task or a number, in whatever order they are listed -/
theorem pairwise_apart (h : s.Orderly) (tasks : Arena) :
    ((s.ranked tasks).mergeSort Ranked.before).Pairwise Ranked.Apart := by
  have hentries : s.entries.Pairwise fun d e => d.task ≠ e.task ∧ d.seq ≠ e.seq :=
    (List.pairwise_map.1 h.distinct).and (h.ascending.imp Nat.ne_of_lt)
  have hranked : (s.ranked tasks).Pairwise Ranked.Apart := by
    refine List.Pairwise.filterMap _ (fun d e hde a ha b hb => ?_) hentries
    obtain ⟨_, -, rfl⟩ := Option.map_eq_some_iff.1 ha
    obtain ⟨_, -, rfl⟩ := Option.map_eq_some_iff.1 hb
    exact hde
  exact hranked.perm (List.mergeSort_perm _ _).symm fun hab => ⟨hab.1.symm, hab.2.symm⟩

theorem nodup_ordered (h : s.Orderly) (tasks : Arena) : (s.ordered tasks).Nodup := by
  rw [ordered_eq, List.Nodup, List.pairwise_map]
  exact (pairwise_apart h tasks).imp fun hab => hab.1

/-- **Members are listed in order of rank** -/
theorem pairwise_ordered (h : s.Orderly) (tasks : Arena) : (s.ordered tasks).Pairwise (s.Outranks tasks) := by
  rw [ordered_eq, List.pairwise_map]
  have hsorted : ((s.ranked tasks).mergeSort Ranked.before).Pairwise fun a b => a.before b = true :=
    List.pairwise_mergeSort Ranked.before_trans Ranked.before_total _
  refine (hsorted.and (pairwise_apart h tasks)).imp_of_mem fun {a b} ha hb hab => ?_
  obtain ⟨hd, first, hfirst, hp⟩ := mem_ranked.1 (List.mem_mergeSort.1 ha)
  obtain ⟨he, second, hsecond, hq⟩ := mem_ranked.1 (List.mem_mergeSort.1 hb)
  refine ⟨a.entry, hd, b.entry, he, first, second, rfl, rfl, hfirst, hsecond, ?_⟩
  rw [hp, hq, Int64.lt_iff_toInt_lt, ← Int64.toInt_inj]
  -- the sort lets equal numbers stand either way, but no two members share one
  exact (Ranked.before_iff.1 hab.1).imp_right fun hle => ⟨hle.1, Nat.lt_of_le_of_ne hle.2 hab.2.2⟩

/-! ## The order as a sort -/

/-- both tasks are there, and the second is no more urgent than the first -/
def asUrgent (tasks : Arena) (t u : TaskId) : Bool :=
  (tasks.get? t).any fun first => (tasks.get? u).any fun second => second.priority ≤ first.priority

/-- numbers that ascend add to the priorities what a stable sort adds -/
theorem mergeSort_before {l : List Ranked} (h : l.Pairwise fun a b => a.entry.seq < b.entry.seq) :
    l.mergeSort Ranked.before = l.mergeSort fun a b => b.priority ≤ a.priority := by
  have hplaces : ∀ a ∈ l.zipIdx, ∀ b ∈ l.zipIdx,
      List.zipIdxLE (fun a b : Ranked => decide (b.priority ≤ a.priority)) a b = a.1.before b.1 := by
    rintro ⟨a, i⟩ ha ⟨b, j⟩ hb
    obtain ⟨hi, ha⟩ := List.getElem?_eq_some_iff.1 (List.mk_mem_zipIdx_iff_getElem?.1 ha)
    obtain ⟨hj, hb⟩ := List.getElem?_eq_some_iff.1 (List.mk_mem_zipIdx_iff_getElem?.1 hb)
    have hseq : i ≤ j ↔ a.entry.seq ≤ b.entry.seq := by
      obtain hij | rfl | hji := Nat.lt_trichotomy i j
      · have hlt := List.pairwise_iff_getElem.1 h i j hi hj hij
        rw [ha, hb] at hlt
        omega
      · rw [← ha, ← hb]
        simp
      · have hlt := List.pairwise_iff_getElem.1 h j i hj hi hji
        rw [ha, hb] at hlt
        omega
    rw [Bool.eq_iff_iff, Ranked.before_iff, List.zipIdxLE]
    simp only [decide_eq_true_eq, Int64.le_iff_toInt_le]
    split
    · split
      · rw [decide_eq_true_eq, hseq]
        omega
      · simp only [true_iff]
        omega
    · simp only [Bool.false_eq_true, false_iff]
      omega
  have hsorted := List.map_mergeSort hplaces
  rw [List.mergeSort_zipIdx, List.zipIdx_map_fst] at hsorted
  exact hsorted.symm

/-- **Members are sorted by priority, stably**: of equal priorities the one registered first comes first -/
theorem ordered_eq_mergeSort (h : s.Orderly) (tasks : Arena) :
    s.ordered tasks =
      ((s.entries.map (·.task)).filter fun t => (tasks.get? t).isSome).mergeSort (asUrgent tasks) := by
  have hascending : (s.ranked tasks).Pairwise fun a b => a.entry.seq < b.entry.seq := by
    refine List.Pairwise.filterMap _ (fun d e hde a ha b hb => ?_) h.ascending
    obtain ⟨_, -, rfl⟩ := Option.map_eq_some_iff.1 ha
    obtain ⟨_, -, rfl⟩ := Option.map_eq_some_iff.1 hb
    exact hde
  have htasks : (s.ranked tasks).map (·.entry.task) =
      (s.entries.map (·.task)).filter fun t => (tasks.get? t).isSome := by
    rw [ranked, List.map_filterMap, ← List.filterMap_eq_filter, List.filterMap_map]
    refine List.filterMap_congr fun e _ => ?_
    cases ht : tasks.get? e.task <;> simp [Option.guard, ht]
  rw [ordered_eq, mergeSort_before hascending, ← htasks]
  refine List.map_mergeSort fun a ha b hb => ?_
  obtain ⟨-, first, hfirst, hp⟩ := mem_ranked.1 ha
  obtain ⟨-, second, hsecond, hq⟩ := mem_ranked.1 hb
  simp [asUrgent, hfirst, hsecond, hp, hq]

/-! ## Pending members -/

theorem nodup_pending (h : s.Orderly) (tasks : Arena) : (s.pending tasks).Nodup := (nodup_ordered h tasks).filter _

theorem pairwise_pending (h : s.Orderly) (tasks : Arena) : (s.pending tasks).Pairwise (s.Outranks tasks) :=
  (pairwise_ordered h tasks).filter _

/-- an idle unit takes the first pending member -/
theorem assignNext_eq (s : Scheduler) (v : UnitId) (tasks : Arena) :
    s.assignNext v tasks =
      match s.pending tasks with
      | [] => (none, tasks)
      | t :: _ => (some t, tasks.modify t (·.claim v)) := by
  have hhead : (s.ordered tasks).find? (isFree tasks) = (s.pending tasks).head? := List.head?_filter.symm
  unfold assignNext
  rw [hhead]
  cases s.pending tasks <;> rfl

theorem isFree_modify_claim (tasks : Arena) (t : TaskId) (v : UnitId) (t' : TaskId) :
    isFree (tasks.modify t (·.claim v)) t' = (decide (t' ≠ t) && isFree tasks t') := by
  unfold isFree
  rw [Arena.get?_modify]
  by_cases h : t = t'
  · subst t'
    cases tasks.get? t <;> simp [Task.claim]
  · simp [h, Ne.symm h]

theorem ordered_claim (s : Scheduler) (tasks : Arena) (t : TaskId) (v : UnitId) :
    s.ordered (tasks.modify t (·.claim v)) = s.ordered tasks := by
  refine ordered_congr fun t' => ?_
  rw [Arena.get?_modify]
  split
  · rw [Option.map_map]
    rfl
  · rfl

/-- **A claim strikes its task from what is pending**, in whatever pool, and leaves the rest in order -/
theorem pending_claim (s : Scheduler) (tasks : Arena) (t : TaskId) (v : UnitId) :
    s.pending (tasks.modify t (·.claim v)) = (s.pending tasks).filter (· ≠ t) := by
  rw [pending, ordered_claim, pending, List.filter_filter]
  exact List.filter_congr fun t' _ => isFree_modify_claim tasks t v t'

/-- a claim on the first pending member leaves the others -/
theorem pending_claim_first (h : s.Orderly) {t : TaskId} {rest : List TaskId} (hp : s.pending tasks = t :: rest)
    (v : UnitId) : s.pending (tasks.modify t (·.claim v)) = rest := by
  have hnodup := nodup_pending h tasks
  rw [hp, List.nodup_cons] at hnodup
  rw [pending_claim, hp, List.filter_cons_of_neg (by simp), List.filter_eq_self]
  intro t' ht'
  have hne : t' ≠ t := fun he => hnodup.1 (he ▸ ht')
  simpa using hne

end Scheduler

end Errand
