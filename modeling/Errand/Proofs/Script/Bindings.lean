/-
Bindings: the more is bound and selected at the start, the fewer problems the checks find.

The scope of the checks is copied for the arms of a conditional, cut down to what both arms assign, and dropped behind a
loop. None of that turns an inclusion of scopes round (`scopeAfter_mono`), so a read that is out of the larger scope is
out of the smaller one too, at every place of the tree (`unassigned_sublist`). With the selections, which are checked
node by node, and the stray `leave`s, which depend on nothing, this gives `problems_sublist` for all rules at once.
-/
import Errand.Proofs.Script.Program

namespace Errand

/-- what keeps less keeps it in the same order -/
theorem filterMap_sublist {α β : Type} {f g : α → Option β} (h : ∀ x y, g x = some y → f x = some y) (xs : List α) :
    (xs.filterMap g).Sublist (xs.filterMap f) := by
  induction xs with
  | nil => exact .slnil
  | cons x xs ih =>
    cases hg : g x with
    | none =>
      rw [List.filterMap_cons_none hg, List.filterMap_cons]
      split
      · exact ih
      · exact ih.cons _
    | some y =>
      rw [List.filterMap_cons_some hg, List.filterMap_cons_some (h x y hg)]
      exact ih.cons_cons y

namespace Expr

variable {scope scope' : List String} {sel sel' : Selection}

theorem unassigned_sublist (h : scope ⊆ scope') (e : Expr) : (e.unassigned scope').Sublist (e.unassigned scope) := by
  refine filterMap_sublist (fun x p hx => ?_) e.nodes
  cases x with
  | var s n =>
    -- what is out of the larger scope is out of the smaller one
    by_cases hn : n ∈ scope'
    · simp [hn] at hx
    · have hscope : n ∉ scope := fun hscope => hn (h hscope)
      simpa [hn, hscope] using hx
  | _ => cases hx

theorem unselected?_of_less (hu : sel.unit?.isSome = true → sel'.unit?.isSome = true)
    (hp : sel.position?.isSome = true → sel'.position?.isSome = true) {e : Expr} {p : Problem}
    (h : e.unselected? sel' = some p) : e.unselected? sel = some p := by
  cases e with
  | unit s source =>
    cases source with
    | selected => cases hsel : sel.unit? <;> simp_all [unselected?]
    | _ => cases h
  | place s source =>
    cases source with
    | selected => cases hsel : sel.position? <;> simp_all [unselected?]
    | _ => cases h
  | _ => cases h

end Expr

namespace Stmt

variable {scope scope' : List String}

/-- **A larger scope stays larger** behind every statement -/
theorem scopeAfter_mono (s : Stmt) (h : scope ⊆ scope') : s.scopeAfter scope ⊆ s.scopeAfter scope' := by
  induction s using induct generalizing scope scope' with
  | sequence m body idx ih =>
    simp only [scopeAfter]
    induction body generalizing scope scope' with
    | nil => exact h
    | cons s rest ihr => exact ihr (fun t ht => ih t (List.mem_cons_of_mem _ ht)) (ih s List.mem_cons_self h)
  | conditional m test thenS elseS chosen iha ihe =>
    have helse : scopeAfterElse elseS scope ⊆ scopeAfterElse elseS scope' := by
      cases elseS with
      | none => exact h
      | some s => exact ihe s rfl h
    intro n hn
    simp only [scopeAfter, List.mem_filter, List.contains_iff_mem] at hn ⊢
    exact ⟨iha h hn.1, helse hn.2⟩
  | assign m name value =>
    intro n hn
    rw [scopeAfter, List.mem_insert_iff] at hn ⊢
    exact hn.imp id fun hn => h hn
  | loop | print | action | leave => exact h

/-- a larger scope leaves no more early reads -/
theorem unassigned_sublist (s : Stmt) (h : scope ⊆ scope') : (s.unassigned scope').Sublist (s.unassigned scope) := by
  induction s using induct generalizing scope scope' with
  | sequence m body idx ih =>
    simp only [unassigned]
    induction body generalizing scope scope' with
    | nil => exact .slnil
    | cons s rest ihr =>
      have hrest := ihr (fun t ht => ih t (List.mem_cons_of_mem _ ht)) (s.scopeAfter_mono h)
      exact (ih s List.mem_cons_self h).append hrest
  | conditional m test thenS elseS chosen iha ihe =>
    have helse : (unassignedElse elseS scope').Sublist (unassignedElse elseS scope) := by
      cases elseS with
      | none => exact .slnil
      | some s => exact ihe s rfl h
    exact ((test.unassigned_sublist h).append (iha h)).append helse
  | loop m test body ih => exact (test.unassigned_sublist h).append (ih h)
  | assign m name value | print m value => exact value.unassigned_sublist h
  | action m kind target => exact target.unassigned_sublist h
  | leave => exact .slnil

/-- **The checks are monotone in what is bound.** If a second start binds every name that a first one binds, and selects
something wherever the first does, then the problems it leaves are some of those of the first, unchanged and in the same
order; so what is well formed stays well formed. -/
theorem problems_sublist (s : Stmt) {store store' : Store} {sel sel' : Selection}
    (hb : ∀ n, store.isBound n = true → store'.isBound n = true)
    (hu : sel.unit?.isSome = true → sel'.unit?.isSome = true)
    (hp : sel.position?.isSome = true → sel'.position?.isSome = true) :
    (s.problems store' sel').Sublist (s.problems store sel) ∧
      (s.isWellFormed store sel = true → s.isWellFormed store' sel' = true) := by
  have hnames : store.names ⊆ store'.names := fun n hn => Store.mem_names.2 (hb n (Store.mem_names.1 hn))
  have hrule (r : Rule) : (s.problemsBy store' sel' r).Sublist (s.problemsBy store sel r) := by
    cases r with
    | undefinedVariable => exact s.unassigned_sublist hnames
    | selectionRequired => exact filterMap_sublist (fun _ _ => Expr.unselected?_of_less hu hp) s.nodes
    | breakOutsideLoop => exact .refl _
  have hall : (s.problems store' sel').Sublist (s.problems store sel) :=
    (hrule .undefinedVariable).append ((hrule .selectionRequired).append ((hrule .breakOutsideLoop).append .slnil))
  refine ⟨hall, fun hwell => ?_⟩
  rw [isWellFormed, List.isEmpty_iff] at hwell ⊢
  exact List.sublist_nil.1 (hwell ▸ hall)

/-- assigns the camp on one arm only and the home in a loop only, reads both, and leaves a loop that is not there -/
def fetch : Stmt :=
  .sequence {} [
    .conditional {} (.unitTest {} .isAlive (.unit ⟨1, 10⟩ .selected)) (.assign {} "camp" (.place ⟨2, 12⟩ .selected))
      (some (.print {} (.var ⟨3, 9⟩ "home"))) none,
    .loop {} (.cubeTest {} .isSolid (.var ⟨4, 17⟩ "camp")) (.assign {} "home" (.var ⟨5, 11⟩ "camp")),
    .action {} .follow (.var ⟨6, 8⟩ "guide"),
    .action {} .moveTo (.var ⟨7, 8⟩ "home"),
    .leave { span := ⟨8, 3⟩ }] 0

/-- with the home bound as well and a place selected, the camp is still read early and no unit is selected -/
theorem problems_sublist_fetch :
    let store := Store.ofList [("guide", .unit ⟨3⟩)]
    let store' := store.set "home" (.position ⟨1, 1, 0⟩)
    (∀ n, store.isBound n = true → store'.isBound n = true) ∧
      fetch.problems store {} =
        [.unassigned ⟨3, 9⟩ "home", .unassigned ⟨4, 17⟩ "camp", .unassigned ⟨5, 11⟩ "camp", .unassigned ⟨7, 8⟩ "home",
          .unselected ⟨1, 10⟩ .unit, .unselected ⟨2, 12⟩ .position, .strayLeave ⟨8, 3⟩] ∧
      fetch.problems store' (.ofCube ⟨2, 0, 0⟩) =
        [.unassigned ⟨4, 17⟩ "camp", .unassigned ⟨5, 11⟩ "camp", .unselected ⟨1, 10⟩ .unit, .strayLeave ⟨8, 3⟩] ∧
      (fetch.problems store' (.ofCube ⟨2, 0, 0⟩)).Sublist (fetch.problems store {}) := by
  intro store store'
  have hb : ∀ n, store.isBound n = true → store'.isBound n = true := fun n hn => by simp [store', Store.isBound_set, hn]
  exact ⟨hb, by decide +kernel, by decide +kernel, (problems_sublist fetch hb (by simp) (by simp)).1⟩

end Stmt

end Errand
