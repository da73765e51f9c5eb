/-
Programs: what stays of a tree when its execution is forgotten.

`reset` takes a half-executed tree to its program. A pristine tree is its own program (`reset_of_isPristine`), and a
program is pristine (`isPristine_reset`). Everything the checks look at belongs to the program: scopes, early reads,
expressions and stray `leave`s are those of the tree after a reset, so two trees with one program have the same problems
(`problems_of_reset_eq`).
-/
import Errand.Script.Check
import Errand.Script.Step
import Mathlib.Tactic

namespace Errand

namespace Stmt

/-! ## Resetting and pristine trees -/

theorem reset_of_isPristine {s : Stmt} (h : s.isPristine = true) : s.reset = s := by
  induction s using induct with
  | sequence m b i ih =>
    simp only [isPristine, Bool.and_eq_true, beq_iff_eq, allPristine_eq, List.all_eq_true] at h
    obtain ⟨⟨hm, rfl⟩, hb⟩ := h
    have hmap : b.map reset = b := (List.map_congr_left fun s hs => ih s hs (hb s hs)).trans (List.map_id' b)
    rw [reset, resetAll_eq, hmap, ← hm]
  | conditional m t a e c iha ihe =>
    simp only [isPristine, Bool.and_eq_true, beq_iff_eq] at h
    obtain ⟨⟨⟨hm, rfl⟩, ha⟩, he⟩ := h
    cases e with
    | none => rw [reset, iha ha, resetElse, ← hm]
    | some s => rw [reset, iha ha, resetElse, ihe s rfl he, ← hm]
  | loop m t b ih =>
    simp only [isPristine, Bool.and_eq_true, beq_iff_eq] at h
    rw [reset, ih h.2, ← h.1]
  | _ =>
    simp only [isPristine, beq_iff_eq] at h
    rw [reset, ← h]

theorem isPristine_reset (s : Stmt) : s.reset.isPristine = true := by
  induction s using induct with
  | sequence m b i ih => simpa [reset, isPristine, resetAll_eq, allPristine_eq] using ih
  | conditional m t a e c iha ihe =>
    cases e with
    | none => simp [reset, isPristine, resetElse, elsePristine, iha]
    | some s => simp [reset, isPristine, resetElse, elsePristine, iha, ihe s rfl]
  | loop m t b ih => simp [reset, isPristine, ih]
  | _ => simp [reset, isPristine]

@[simp] theorem reset_reset (s : Stmt) : s.reset.reset = s.reset := reset_of_isPristine s.isPristine_reset

theorem state_of_isPristine {s : Stmt} (h : s.isPristine = true) : s.state = .notStarted := by
  cases s <;> simp_all [isPristine, state, mark]

theorem isTerminal_of_isPristine {s : Stmt} (h : s.isPristine = true) : s.state.isTerminal = false := by
  rw [state_of_isPristine h]
  rfl

@[simp] theorem state_reset (s : Stmt) : s.reset.state = .notStarted := state_of_isPristine s.isPristine_reset

theorem drop_eq_cons {body rest : List Stmt} {idx : Nat} {child : Stmt} (h : body.drop idx = child :: rest) :
    body[idx]? = some child ∧ body.drop (idx + 1) = rest := by
  rw [← List.head?_drop, ← List.tail_drop, h]
  exact ⟨rfl, rfl⟩

theorem map_reset_set {body : List Stmt} {idx : Nat} {child new : Stmt} (hc : body[idx]? = some child)
    (hn : new.reset = child.reset) : (body.set idx new).map reset = body.map reset := by
  obtain ⟨hi, rfl⟩ := List.getElem?_eq_some_iff.1 hc
  rw [List.map_set, hn, ← List.getElem_map reset (h := by simpa using hi), List.set_getElem_self]

theorem reset_resumed (body : Stmt) : body.resumed.reset = body.reset := by
  unfold resumed
  split
  · rfl
  · exact body.reset_reset

/-! ## The checks see the program only -/

theorem scopeAfter_reset (s : Stmt) (scope : List String) : s.reset.scopeAfter scope = s.scopeAfter scope := by
  induction s using induct generalizing scope with
  | sequence m b i ih =>
    simp only [reset, scopeAfter]
    induction b generalizing scope with
    | nil => rfl
    | cons s rest ihr =>
      rw [resetAll, scopeAfterAll, scopeAfterAll, ih s (by simp), ihr fun t ht => ih t (by simp [ht])]
  | conditional m t a e c iha ihe =>
    cases e with
    | none => simp only [reset, scopeAfter, resetElse, scopeAfterElse, iha]
    | some s => simp only [reset, scopeAfter, resetElse, scopeAfterElse, iha, ihe s rfl]
  | _ => rfl

theorem unassigned_reset (s : Stmt) (scope : List String) : s.reset.unassigned scope = s.unassigned scope := by
  induction s using induct generalizing scope with
  | sequence m b i ih =>
    simp only [reset, unassigned]
    induction b generalizing scope with
    | nil => rfl
    | cons s rest ihr =>
      rw [resetAll, unassignedAll, unassignedAll, ih s (by simp), scopeAfter_reset,
        ihr fun t ht => ih t (by simp [ht])]
  | conditional m t a e c iha ihe =>
    cases e with
    | none => simp only [reset, unassigned, resetElse, unassignedElse, iha]
    | some s => simp only [reset, unassigned, resetElse, unassignedElse, iha, ihe s rfl]
  | loop m t b ih => simp only [reset, unassigned, ih]
  | _ => rfl

theorem nodes_reset (s : Stmt) : s.reset.nodes = s.nodes := by
  induction s using induct with
  | sequence m b i ih =>
    simp only [reset, nodes, resetAll_eq, nodesAll_eq, List.flatMap_map]
    exact List.flatMap_congr ih
  | conditional m t a e c iha ihe =>
    cases e with
    | none => simp only [reset, nodes, resetElse, nodesElse, iha]
    | some s => simp only [reset, nodes, resetElse, nodesElse, iha, ihe s rfl]
  | loop m t b ih => simp only [reset, nodes, ih]
  | _ => rfl

theorem strayLeaves_reset (s : Stmt) : s.reset.strayLeaves = s.strayLeaves := by
  induction s using induct with
  | sequence m b i ih =>
    simp only [reset, strayLeaves]
    induction b with
    | nil => rfl
    | cons s rest ihr =>
      rw [resetAll, strayLeavesAll, strayLeavesAll, ih s (by simp), ihr fun t ht => ih t (by simp [ht])]
  | conditional m t a e c iha ihe =>
    cases e with
    | none => simp only [reset, strayLeaves, resetElse, strayLeavesElse, iha]
    | some s => simp only [reset, strayLeaves, resetElse, strayLeavesElse, iha, ihe s rfl]
  | _ => rfl

theorem strayLeavesAll_eq (b : List Stmt) : strayLeavesAll b = b.flatMap strayLeaves := by
  induction b with
  | nil => rfl
  | cons s rest ih => simp [strayLeavesAll, ih]

theorem problemsBy_reset (s : Stmt) (store : Store) (sel : Selection) (r : Rule) :
    s.reset.problemsBy store sel r = s.problemsBy store sel r := by
  cases r with
  | undefinedVariable => exact s.unassigned_reset _
  | selectionRequired => simp only [problemsBy, unselected, nodes_reset]
  | breakOutsideLoop => exact s.strayLeaves_reset

/-- **A half-executed tree has the problems of a fresh one**: trees with one program have the same problems -/
theorem problems_of_reset_eq {s t : Stmt} (h : s.reset = t.reset) (store : Store) (sel : Selection) :
    s.problems store sel = t.problems store sel := by
  have key : ∀ u : Stmt, u.problems store sel = u.reset.problems store sel := fun u =>
    List.flatMap_congr fun r _ => (u.problemsBy_reset store sel r).symm
  rw [key s, key t, h]

theorem problems_eq_nil {s : Stmt} {store : Store} {sel : Selection} :
    s.problems store sel = [] ↔ s.unassigned store.names = [] ∧ s.unselected sel = [] ∧ s.strayLeaves = [] := by
  simp [problems, Rule.all, problemsBy]

end Stmt

end Errand
