/-
Soundness of the checks: a well-formed script never reads what is not there, and no `leave` escapes it.

The checks follow the names that are assigned on every path; a run stops in the middle of a tree, in the middle of an
iteration, or behind a `leave` that cut a sequence short. `Covered` carries the scope of the checks into half-executed
trees: what is left of the tree reads bound names and existing selections only, and binds the names of `goal` if it ends
without a `leave`. It holds of a fresh tree that passes the checks (`covered_of_clean`), and one step keeps it
(`Steps.covered`), whatever the world and the actions do. From it, for a task and any run of it:
- `advances_sound`: every expression that a step evaluates finds each variable bound and each selection made, so no
  look-up in it comes out empty, and after the step no `leave` is under way.
-/
import Errand.Proofs.Task.Advance
import Errand.Rehearsal

namespace Errand

namespace Expr

/-! ## Look-ups -/

/-- the node looks up a variable or a selection -/
def isLookup : Expr → Bool
  | .var .. | .unit _ .selected | .place _ .selected => true
  | _ => false

/-- what the node itself looks up is there -/
def Available (store : Store) (sel : Selection) : Expr → Prop
  | .var _ n => store.isBound n = true
  | .unit _ .selected => sel.unit?.isSome = true
  | .place _ .selected => sel.position?.isSome = true
  | _ => True

/-- everything that the expression looks up is there -/
def Ready (store : Store) (sel : Selection) (e : Expr) : Prop := ∀ x ∈ e.nodes, x.Available store sel

theorem eval_of_available {ρ : Type} [Picker ρ] {cx : Context} {e : Expr} (hl : e.isLookup = true)
    (ha : e.Available cx.store cx.selection) :
    ∃ v, ∀ p : ρ, (e.eval cx : Eval ρ (Option Value)).run p = (.ok (some v), p) := by
  cases e with
  | var s n =>
    obtain ⟨v, hv⟩ := Option.isSome_iff_exists.1 ((cx.store.isBound_eq_isSome n).symm.trans ha)
    exact ⟨v, fun p => by rw [eval, hv]; rfl⟩
  | unit s u =>
    cases u with
    | selected =>
      obtain ⟨v, hv⟩ := Option.isSome_iff_exists.1 ha
      exact ⟨.unit v, fun p => by rw [eval, Context.unitFrom, hv]; rfl⟩
    | _ => cases hl
  | place s u =>
    cases u with
    | selected =>
      obtain ⟨v, hv⟩ := Option.isSome_iff_exists.1 ha
      exact ⟨.position v, fun p => by rw [eval, Context.placeFrom, hv]; rfl⟩
    | _ => cases hl
  | _ => cases hl

/-- an expression without problems looks up what is there, once the scope is bound -/
theorem ready_of_clean {store : Store} {sel : Selection} {scope : List String} {e : Expr}
    (hu : e.unassigned scope = []) (hs : e.nodes.filterMap (unselected? sel) = [])
    (hb : ∀ n ∈ scope, store.isBound n = true) : e.Ready store sel := by
  intro x hx
  have hu := List.filterMap_eq_nil_iff.1 hu x hx
  have hs := List.filterMap_eq_nil_iff.1 hs x hx
  cases x with
  | var s n =>
    refine hb n ?_
    by_contra hn
    simp [hn] at hu
  | unit s u => cases u <;> simp_all [Available, unselected?, Option.isSome_iff_ne_none]
  | place s u => cases u <;> simp_all [Available, unselected?, Option.isSome_iff_ne_none]
  | _ => trivial

end Expr

namespace Stmt

/-! ## Half-executed trees -/

/-- statements not yet begun that pass the checks in a scope and bind the goal -/
structure Clean (sel : Selection) (scope goal : List String) (rest : List Stmt) : Prop where
  pristine : ∀ s ∈ rest, s.isPristine = true
  assigned : unassignedAll rest scope = []
  selected : (nodesAll rest).filterMap (Expr.unselected? sel) = []
  binds : ∀ n ∈ goal, n ∈ scopeAfterAll rest scope

/-- what is left of the tree looks up what is there, and has bound the goal if it ends without a `leave` -/
inductive Covered (sel : Selection) (store : Store) : Stmt → List String → Prop
  | sequenceEnd {m : Mark} {body : List Stmt} {idx : Nat} {goal : List String} (hm : m.state.isTerminal = false)
      (hc : body[idx]? = none) (hg : ∀ n ∈ goal, store.isBound n = true) : Covered sel store (.sequence m body idx) goal
  /-- the active child binds the scope in which the rest was checked -/
  | sequence {m : Mark} {body : List Stmt} {idx : Nat} {child : Stmt} {scope goal : List String}
      (hm : m.state.isTerminal = false) (hc : body[idx]? = some child) (h : Covered sel store child scope)
      (hr : Clean sel scope goal (body.drop (idx + 1))) : Covered sel store (.sequence m body idx) goal
  | undecided {m : Mark} {test : Expr} {thenS : Stmt} {elseS : Option Stmt} {goal : List String}
      (hm : m.state.isTerminal = false) (ht : test.Ready store sel) (ha : Covered sel store thenS goal)
      (he : ∀ s, elseS = some s → Covered sel store s goal)
      (hg : elseS = none → ∀ n ∈ goal, store.isBound n = true) :
      Covered sel store (.conditional m test thenS elseS none) goal
  | onTrue {m : Mark} {test : Expr} {thenS : Stmt} {elseS : Option Stmt} {goal : List String}
      (hm : m.state.isTerminal = false) (ha : Covered sel store thenS goal) :
      Covered sel store (.conditional m test thenS elseS (some .onTrue)) goal
  | onFalse {m : Mark} {test : Expr} {thenS elseS : Stmt} {goal : List String} (hm : m.state.isTerminal = false)
      (he : Covered sel store elseS goal) :
      Covered sel store (.conditional m test thenS (some elseS) (some .onFalse)) goal
  /-- the next iteration starts from the program of the body, so that must pass the checks again -/
  | loop {m : Mark} {test : Expr} {body : Stmt} {scope goal : List String} (hm : m.state.isTerminal = false)
      (hs : ∀ n ∈ scope, store.isBound n = true) (ht : test.unassigned scope = [])
      (hts : test.nodes.filterMap (Expr.unselected? sel) = []) (hb : body.unassigned scope = [])
      (hbs : body.unselected sel = []) (hg : ∀ n ∈ goal, n ∈ scope)
      (h : body.state = .inProgress → Covered sel store body []) : Covered sel store (.loop m test body) goal
  | assign {m : Mark} {name : String} {value : Expr} {goal : List String} (hm : m.state.isTerminal = false)
      (hv : value.Ready store sel) (hg : ∀ n ∈ goal, n = name ∨ store.isBound n = true) :
      Covered sel store (.assign m name value) goal
  | print {m : Mark} {value : Expr} {goal : List String} (hm : m.state.isTerminal = false)
      (hv : value.Ready store sel) (hg : ∀ n ∈ goal, store.isBound n = true) : Covered sel store (.print m value) goal
  | action {m : Mark} {kind : ActionKind} {target : Expr} {goal : List String} (hm : m.state.isTerminal = false)
      (hv : target.Ready store sel) (hg : ∀ n ∈ goal, store.isBound n = true) :
      Covered sel store (.action m kind target) goal
  /-- no statement behind a `leave` relies on what it binds -/
  | leave {m : Mark} {goal : List String} (hm : m.state.isTerminal = false) : Covered sel store (.leave m) goal

variable {sel : Selection} {store : Store} {scope goal : List String}

theorem Covered.state {s : Stmt} (h : Covered sel store s goal) : s.state.isTerminal = false := by
  cases h <;> assumption

/-- what starts at a child that covers its own scope -/
theorem Clean.covered {m : Mark} {body : List Stmt} {idx : Nat} (hm : m.state.isTerminal = false)
    (hb : ∀ n ∈ scope, store.isBound n = true) (hc : Clean sel scope goal (body.drop idx))
    (ih : ∀ s ∈ body, ∀ scope goal, s.isPristine = true → s.unassigned scope = [] → s.unselected sel = [] →
      (∀ n ∈ scope, store.isBound n = true) → (∀ n ∈ goal, n ∈ s.scopeAfter scope) → Covered sel store s goal) :
    Covered sel store (.sequence m body idx) goal := by
  cases hd : body.drop idx with
  | nil =>
    rw [hd] at hc
    refine .sequenceEnd hm (List.getElem?_eq_none (List.drop_eq_nil_iff.1 hd)) fun n hn => hb n (hc.binds n hn)
  | cons child rest =>
    obtain ⟨hi, hrest⟩ := drop_eq_cons hd
    rw [hd] at hc
    have hu := List.append_eq_nil_iff.1 hc.assigned
    have hs := hc.selected
    rw [nodesAll, List.filterMap_append, List.append_eq_nil_iff] at hs
    have hp := hc.pristine
    refine .sequence hm hi (ih child (List.mem_of_getElem? hi) scope (child.scopeAfter scope) (hp child (by simp)) hu.1
      hs.1 hb fun n hn => hn) ?_
    rw [hrest]
    exact ⟨fun s h => hp s (by simp [h]), hu.2, hs.2, hc.binds⟩

/-- **A fresh tree that passes the checks is covered** -/
theorem covered_of_clean {s : Stmt} (hp : s.isPristine = true) (hu : s.unassigned scope = [])
    (hs : s.unselected sel = []) (hb : ∀ n ∈ scope, store.isBound n = true)
    (hg : ∀ n ∈ goal, n ∈ s.scopeAfter scope) : Covered sel store s goal := by
  have hm := isTerminal_of_isPristine hp
  induction s using induct generalizing scope goal with
  | sequence m b i ih =>
    simp only [isPristine, Bool.and_eq_true, beq_iff_eq, allPristine_eq, List.all_eq_true] at hp
    obtain ⟨⟨-, rfl⟩, hp⟩ := hp
    refine Clean.covered hm hb ⟨hp, hu, hs, hg⟩ fun s hmem scope goal hp hu hs hb hg => ?_
    exact ih s hmem hp hu hs hb hg (isTerminal_of_isPristine hp)
  | conditional m t a e c iha ihe =>
    simp only [isPristine, Bool.and_eq_true, beq_iff_eq] at hp
    obtain ⟨⟨⟨-, rfl⟩, hpa⟩, hpe⟩ := hp
    simp only [unassigned, List.append_eq_nil_iff] at hu
    simp only [unselected, nodes, List.filterMap_append, List.append_eq_nil_iff] at hs
    simp only [scopeAfter, List.mem_filter, List.contains_iff_mem] at hg
    refine .undecided hm (Expr.ready_of_clean hu.1.1 hs.1.1 hb) ?_ ?_ ?_
    · exact iha hpa hu.1.2 hs.1.2 hb (fun n hn => (hg n hn).1) (isTerminal_of_isPristine hpa)
    · rintro s rfl
      exact ihe s rfl hpe hu.2 hs.2 hb (fun n hn => (hg n hn).2)
        (isTerminal_of_isPristine hpe)
    · rintro rfl n hn
      exact hb n (hg n hn).2
  | loop m t b ih =>
    simp only [isPristine, Bool.and_eq_true, beq_iff_eq] at hp
    obtain ⟨-, hpb⟩ := hp
    simp only [unassigned, List.append_eq_nil_iff] at hu
    simp only [unselected, nodes, List.filterMap_append, List.append_eq_nil_iff] at hs
    refine .loop hm hb hu.1 hs.1 hu.2 hs.2 hg fun hin => ?_
    rw [state_of_isPristine hpb] at hin
    cases hin
  | assign m n v =>
    refine .assign hm (Expr.ready_of_clean hu hs hb) fun x hx => ?_
    obtain rfl | hx := List.mem_insert_iff.1 (hg x hx)
    · exact .inl rfl
    · exact .inr (hb x hx)
  | print m v => exact .print hm (Expr.ready_of_clean hu hs hb) fun n hn => hb n (hg n hn)
  | action m k t => exact .action hm (Expr.ready_of_clean hu hs hb) fun n hn => hb n (hg n hn)
  | leave m => exact .leave hm

theorem Covered.conditional_test {σ ρ : Type} [Host σ] {fr : Frame} {lv : Live σ ρ} {m : Mark} {test : Expr}
    {thenS : Stmt} {elseS : Option Stmt} {chosen : Option Branch} {x : Reading}
    (h : Covered sel store (.conditional m test thenS elseS chosen) goal) (hx : x ∈ armReads fr test chosen lv) :
    x.expr.Ready store sel := by
  obtain ⟨rfl, rfl⟩ := mem_armReads.1 hx
  cases h with
  | undecided hm ht => exact ht

theorem Covered.conditional_reads {σ ρ : Type} [Host σ] {fr : Frame} {lv : Live σ ρ} {m : Mark} {test : Expr}
    {thenS : Stmt} {elseS : Option Stmt} {chosen : Option Branch} {rs : List Reading}
    (h : Covered sel store (.conditional m test thenS elseS chosen) goal)
    (hrs : ∀ x ∈ rs, x.expr.Ready store sel) :
    ∀ x ∈ armReads fr test chosen lv ++ rs, x.expr.Ready store sel := by
  intro x hx
  rcases List.mem_append.1 hx with hx | hx
  · exact h.conditional_test hx
  · exact hrs x hx

theorem Covered.arm_true {σ ρ : Type} [Host σ] [Picker ρ] {fr : Frame} {lv lv' : Live σ ρ} {m : Mark} {test : Expr}
    {thenS : Stmt} {elseS : Option Stmt} {chosen : Option Branch}
    (h : Covered sel store (.conditional m test thenS elseS chosen) goal)
    (ht : chooseArm fr test chosen lv = (.ok .onTrue, lv')) : Covered sel store thenS goal := by
  cases h with
  | undecided _ _ ha => exact ha
  | onTrue _ ha => exact ha
  | onFalse => cases ht

theorem Covered.arm_false {σ ρ : Type} [Host σ] [Picker ρ] {fr : Frame} {lv lv' : Live σ ρ} {m : Mark} {test : Expr}
    {thenS elseS : Stmt} {chosen : Option Branch}
    (h : Covered sel store (.conditional m test thenS (some elseS) chosen) goal)
    (ht : chooseArm fr test chosen lv = (.ok .onFalse, lv')) : Covered sel store elseS goal := by
  cases h with
  | undecided _ _ _ he => exact he _ rfl
  | onTrue => cases ht
  | onFalse _ he => exact he

/-- the test of a loop can be evaluated at any time -/
theorem Covered.loop_test {σ ρ : Type} [Host σ] {fr : Frame} {lv : Live σ ρ} {m : Mark} {test : Expr} {body : Stmt}
    {x : Reading} (h : Covered sel store (.loop m test body) goal) (hx : x ∈ loopReads fr test body lv) :
    x.expr.Ready store sel := by
  obtain ⟨-, rfl⟩ := mem_loopReads.1 hx
  cases h with
  | loop hm hs ht hts hb hbs hg h => exact Expr.ready_of_clean ht hts hs

theorem Covered.loop_reads {σ ρ : Type} [Host σ] {fr : Frame} {lv : Live σ ρ} {m : Mark} {test : Expr} {body : Stmt}
    {rs : List Reading} (h : Covered sel store (.loop m test body) goal) (hrs : ∀ x ∈ rs, x.expr.Ready store sel) :
    ∀ x ∈ loopReads fr test body lv ++ rs, x.expr.Ready store sel := by
  intro x hx
  rcases List.mem_append.1 hx with hx | hx
  · exact h.loop_test hx
  · exact hrs x hx

theorem Covered.loop_goal {m : Mark} {test : Expr} {body : Stmt} (h : Covered sel store (.loop m test body) goal) :
    ∀ n ∈ goal, store.isBound n = true := by
  cases h with
  | loop hm hs ht hts hb hbs hg h => exact fun n hn => hs n (hg n hn)

/-- the body is covered where it stands, or from the top -/
theorem Covered.iteration {m : Mark} {test : Expr} {body : Stmt} (h : Covered sel store (.loop m test body) goal) :
    Covered sel store body.resumed [] := by
  cases h with
  | loop hm hs ht hts hb hbs hg h =>
    unfold resumed
    split
    · rename_i hin
      exact h hin
    · rw [← unassigned_reset] at hb
      rw [unselected, ← nodes_reset] at hbs
      exact covered_of_clean body.isPristine_reset hb hbs hs (by simp)

/-- a loop stays covered while its body moves on -/
theorem Covered.again {m m' : Mark} {test : Expr} {body body' : Stmt} {store' : Store}
    (h : Covered sel store (.loop m test body) goal) (hm : m'.state.isTerminal = false)
    (hgrow : ∀ n, store.isBound n = true → store'.isBound n = true) (hp : body'.reset = body.reset)
    (hb : body'.state = .inProgress → Covered sel store' body' []) :
    Covered sel store' (.loop m' test body') goal := by
  cases h with
  | loop _ hs ht hts hu hus hg _ =>
    rw [← unassigned_reset, ← hp, unassigned_reset] at hu
    rw [unselected, ← nodes_reset, ← hp, nodes_reset] at hus
    exact .loop hm (fun n hn => hgrow n (hs n hn)) ht hts hu hus hg hb

/-! ## One step -/

variable {σ ρ : Type} [Host σ] [Picker ρ] {fr : Frame} {s : Stmt} {lv : Live σ ρ} {rs : List Reading} {r : Stepped σ ρ}

/-- **One step of a covered tree** looks up what is there; it leaves a covered tree, or it ends with the goal bound -/
theorem Steps.covered (h : Steps fr s lv rs r) (hl : lv.leaving = false)
    (hc : Covered fr.selection lv.store s goal) :
    (∀ x ∈ rs, x.expr.Ready lv.store fr.selection) ∧
      (r.result = .ok .inProgress → Covered fr.selection r.live.store r.stmt goal) ∧
      (r.result = .ok .done → r.live.leaving = false → ∀ n ∈ goal, r.live.store.isBound n = true) := by
  induction h generalizing goal with
  | idle hs => exact absurd hs (by simp [hc.state])
  | sequenceEnd hm hi =>
    cases hc with
    | sequenceEnd _ _ hg => exact ⟨by simp, by simp [settle], fun _ _ => hg⟩
    | sequence _ hi' => cases hi.symm.trans hi'
  | @sequenceNext m body idx child lv rs r hm hi h hr ih =>
    cases hc with
    | sequenceEnd _ hi' => cases hi.symm.trans hi'
    | sequence _ hi' hcov hclean =>
      cases hi.symm.trans hi'
      obtain ⟨hreads, -, hends⟩ := ih hl hcov
      refine ⟨hreads, fun hres => ?_, fun hres hleave n hn => ?_⟩
      · simp only [settle, Except.ok.injEq, ite_eq_right_iff, reduceCtorEq, imp_false, Bool.or_eq_true,
          decide_eq_true_eq, not_or, Bool.not_eq_true] at hres
        have hb := hends hr hres.1
        rw [settle, if_neg (by simp [hres])]
        rw [← List.drop_set_of_lt (Nat.lt_succ_self idx)] at hclean
        exact Clean.covered rfl hb hclean fun s _ _ _ => covered_of_clean
      · have hlast : body.length ≤ idx + 1 := by
          by_contra hlt
          simp_all [settle]
        rw [List.drop_eq_nil_of_le hlast] at hclean
        exact hends hr hleave n (hclean.binds n hn)
  | @sequenceStay m body idx child lv rs r hm hi h hr ih =>
    cases hc with
    | sequenceEnd _ hi' => cases hi.symm.trans hi'
    | sequence _ hi' hcov hclean =>
      cases hi.symm.trans hi'
      obtain ⟨hreads, hgoes, -⟩ := ih hl hcov
      refine ⟨hreads, fun hres => ?_, fun hres => absurd hres (carry_ne_done _)⟩
      rw [← List.drop_set_of_lt (Nat.lt_succ_self idx)] at hclean
      have hlt := (List.getElem?_eq_some_iff.1 hi).1
      refine .sequence ?_ (List.getElem?_set_self hlt) (hgoes (h.result_of_carry hr hres)) hclean
      simp only [settle] at hres ⊢
      rw [hres]
      rfl
  | conditionalError hm ht => exact ⟨fun x hx => hc.conditional_test hx, by simp [settle], by simp [settle]⟩
  | conditionalTrue hm ht h ih =>
    obtain ⟨p, rfl⟩ := chooseArm_live ht
    obtain ⟨hreads, hgoes, hends⟩ := ih hl (hc.arm_true ht)
    refine ⟨hc.conditional_reads hreads, fun hres => .onTrue ?_ (hgoes hres), hends⟩
    simp only [settle] at hres ⊢
    rw [hres]
    rfl
  | conditionalFalse hm ht h ih =>
    obtain ⟨p, rfl⟩ := chooseArm_live ht
    obtain ⟨hreads, hgoes, hends⟩ := ih hl (hc.arm_false ht)
    refine ⟨hc.conditional_reads hreads, fun hres => .onFalse ?_ (hgoes hres), hends⟩
    simp only [settle] at hres ⊢
    rw [hres]
    rfl
  | conditionalNone hm ht =>
    obtain ⟨p, rfl⟩ := chooseArm_live ht
    refine ⟨fun x hx => hc.conditional_test hx, by simp [settle], fun _ _ => ?_⟩
    cases hc with
    | undecided _ _ _ _ hg => exact hg rfl
    | onTrue => cases ht
  | loopError hm ht =>
    exact ⟨fun x hx => hc.loop_test hx, by simp [settle], by simp [settle]⟩
  | loopEnd hm ht =>
    obtain ⟨p, rfl⟩ := entersLoop_live ht
    exact ⟨fun x hx => hc.loop_test hx, by simp [settle], fun _ _ => hc.loop_goal⟩
  | loopLeft hm ht h hr hlv ih =>
    obtain ⟨p, rfl⟩ := entersLoop_live ht
    obtain ⟨hreads, -, -⟩ := ih hl hc.iteration
    exact ⟨hc.loop_reads hreads, by simp [settle], fun _ _ n hn => h.isBound (hc.loop_goal n hn)⟩
  | loopAgain hm ht h hr hlv ih =>
    obtain ⟨p, rfl⟩ := entersLoop_live ht
    obtain ⟨hreads, -, -⟩ := ih hl hc.iteration
    refine ⟨hc.loop_reads hreads, fun _ => ?_, by simp [settle]⟩
    refine hc.again rfl (fun n => h.isBound) (h.program.trans (reset_resumed _)) fun hin => ?_
    rw [h.state, hr] at hin
    cases hin
  | loopStay hm ht h hr ih =>
    obtain ⟨p, rfl⟩ := entersLoop_live ht
    obtain ⟨hreads, hgoes, -⟩ := ih hl hc.iteration
    refine ⟨hc.loop_reads hreads, fun hres => ?_, fun hres => absurd hres (carry_ne_done _)⟩
    have hbody : Covered fr.selection _ _ [] := hgoes (h.result_of_carry hr hres)
    refine hc.again ?_ (fun n => h.isBound) (h.program.trans (reset_resumed _)) fun _ => hbody
    simp only [settle] at hres
    rw [hres]
    rfl
  | assignError hm hv =>
    cases hc with
    | assign _ hready => exact ⟨by simpa using hready, by simp [settle], by simp [settle]⟩
  | assign hm hv =>
    obtain ⟨p, rfl⟩ := Live.evaluate_live hv
    cases hc with
    | assign _ hready hg =>
      refine ⟨by simpa using hready, by simp [settle], fun _ _ n hn => ?_⟩
      rw [settle, Store.isBound_set, Bool.or_eq_true, beq_iff_eq]
      exact (hg n hn).imp Eq.symm id
  | printError hm hv =>
    cases hc with
    | print _ hready => exact ⟨by simpa using hready, by simp [settle], by simp [settle]⟩
  | print hm hv =>
    obtain ⟨p, rfl⟩ := Live.evaluate_live hv
    cases hc with
    | print _ hready hg => exact ⟨by simpa using hready, by simp [settle], fun _ _ => hg⟩
  | actionError hm ha =>
    cases hc with
    | action _ hready =>
      refine ⟨fun x hx => ?_, by simp [settle], by simp [settle]⟩
      rw [(mem_startReads.1 hx).2]
      exact hready
  | action hm ha =>
    cases hc with
    | action _ hready hg =>
      have hstore := startAction_store ha
      refine ⟨fun x hx => ?_, fun hres => ?_, fun _ _ => ?_⟩
      · rw [(mem_startReads.1 hx).2]
        exact hready
      · simp only [settle] at hres ⊢
        rw [hres, pollAction_live, hstore]
        exact .action rfl hready hg
      · rw [settle, pollAction_live, hstore]
        exact hg
  | leave hm => exact ⟨by simp, by simp [settle], by simp [settle]⟩

end Stmt

namespace Task

/-! ## Runs of a task -/

variable {σ ρ : Type} [Host σ] [Picker ρ]

/-- the task passes the checks, and what is left of its tree is covered unless the tree has ended -/
structure Sound (t : Task) : Prop where
  checked : t.problems = []
  covered : t.body.state.isTerminal = false → ∃ goal, Stmt.Covered t.selection t.store t.body goal

theorem sound_claim {t : Task} (h : t.problems = []) (u : UnitId) : (t.claim u).Sound := by
  have hp := (t.same_claim u).problems.trans h
  obtain ⟨hu, hs, -⟩ := Stmt.problems_eq_nil.1 hp
  refine ⟨hp, fun _ => ⟨[], ?_⟩⟩
  exact Stmt.covered_of_clean t.body.isPristine_reset hu hs (fun n hn => Store.mem_names.1 hn) (by simp)

theorem Sound.heldBy {t : Task} (h : t.Sound) (u : UnitId) (host : σ) : (t.heldBy u host).Sound := by
  rw [heldBy_eq]
  split
  · exact h
  · exact sound_claim h.checked u

/-- a tree that has ended makes an idle step -/
theorem stepFor_of_isTerminal {t : Task} {u : UnitId} {o : Outside σ ρ}
    (h : (t.heldBy u o.host).body.state.isTerminal = true) :
    t.readingsFor u o = [] ∧
      t.stepFor u o = ⟨.ok (t.heldBy u o.host).state, (t.heldBy u o.host).body,
        (t.heldBy u o.host).live (t.claimFor u o.host).2 o⟩ := by
  rw [readingsFor, stepFor, Stmt.readings.eq_def, Stmt.step.eq_def, if_pos h, if_pos h]
  exact ⟨rfl, rfl⟩

/-- one advance of a sound task: its step looks up what is there, and the task stays sound -/
theorem Sound.advanced {t : Task} (h : t.Sound) (u : UnitId) (o : Outside σ ρ) :
    (∀ x ∈ t.readingsFor u o, x.expr.Ready (t.heldBy u o.host).store t.selection) ∧ (t.advanced u o).Sound := by
  have hsel : (t.heldBy u o.host).selection = t.selection := (t.same_heldBy u o.host).selection
  have hchecked := (t.same_advanced u o).problems.trans h.checked
  cases hs : (t.heldBy u o.host).body.state.isTerminal with
  | true =>
    obtain ⟨hreads, hstep⟩ := stepFor_of_isTerminal hs
    refine ⟨by simp [hreads], hchecked, fun hn => ?_⟩
    rw [advanced_eq, hstep] at hn
    exact absurd hs (by simp [hn])
  | false =>
    obtain ⟨goal, hcov⟩ := (h.heldBy u o.host).covered hs
    obtain ⟨hreads, hgoes, -⟩ := (t.steps_stepFor u o).covered rfl hcov
    exact ⟨fun x hx => hsel ▸ hreads x hx, hchecked, fun hn =>
      ⟨goal, hgoes ((t.steps_stepFor u o).result_of_open hn)⟩⟩

theorem sound_advances {t : Task} (h : t.Sound) (calls : List (UnitId × Outside σ ρ)) : (t.advances calls).Sound := by
  induction calls generalizing t with
  | nil => exact h
  | cons c calls ih => exact ih (h.advanced c.1 c.2).2

/-- **Soundness of the checks.** Take a task that passes the checks, claim it, and advance it any number of times, on
behalf of any units and with any surroundings. Whatever the next advance evaluates is evaluated against the task's own
variables and selection, every variable below it is bound and every selection below it is made, so no look-up in it is
without a value; and the step leaves no `leave` under way. -/
theorem advances_sound (t : Task) (h : t.problems = []) (u : UnitId) (calls : List (UnitId × Outside σ ρ))
    (v : UnitId) (o : Outside σ ρ) :
    let now := (t.claim u).advances calls
    let held := now.heldBy v o.host
    (∀ x ∈ now.readingsFor v o,
      x.context.store = held.store ∧ x.context.selection = t.selection ∧
      ∀ e ∈ x.expr.nodes, e.Available held.store t.selection ∧
        (e.isLookup = true → ∃ w, ∀ p : ρ, (e.eval x.context : Eval ρ (Option Value)).run p = (.ok (some w), p))) ∧
      (now.stepFor v o).live.leaving = false := by
  intro now held
  have hsound : now.Sound := sound_advances (sound_claim h u) calls
  have hsel : now.selection = t.selection :=
    (((t.same_claim u).trans ((t.claim u).same_advances calls))).selection
  have hheld : held.selection = t.selection := (now.same_heldBy v o.host).selection.trans hsel
  have hsteps := now.steps_stepFor v o
  refine ⟨fun x hx => ?_, ?_⟩
  · have hcx := hsteps.context x hx
    have hready := (hsound.advanced v o).1 x hx
    have hstore : x.context.store = held.store := by rw [hcx]; rfl
    have hselx : x.context.selection = t.selection := by rw [hcx]; exact hheld
    refine ⟨hstore, hselx, fun e he => ?_⟩
    have hav : e.Available held.store t.selection := hsel ▸ hready e he
    refine ⟨hav, fun hl => Expr.eval_of_available hl ?_⟩
    rw [hstore, hselx]
    exact hav
  · by_contra hleave
    have hstray := (hsteps.leaving rfl (Bool.not_eq_false _ ▸ hleave)).2
    exact hstray (Stmt.problems_eq_nil.1 (hsound.heldBy v o.host).checked).2.2

/-- walks to the selected place until it turns out to be passable -/
def patrol : Task :=
  (Task.make "patrol" 1 (.sequence {} [.assign {} "post" (.place {} .selected),
    .loop {} (.boolean {} true) (.sequence {} [.action {} .moveTo (.var {} "post"),
      .conditional {} (.cubeTest {} .isPassable (.var {} "post")) (.leave {}) none none] 0)] 0)).withSelection
    (.ofCube ⟨1, 2, 0⟩)

/-- a small open field where every action is completed at once -/
def onField : Outside Rehearsal Replay where
  host := { world := { size := ⟨4, 4, 1⟩, figures := [{ id := ⟨7⟩, position? := some ⟨0, 0, 0⟩ }] : Setting }.world }
  picker := ⟨[]⟩

/-- the third advance of the patrol reads its variable and leaves the loop -/
theorem patrol_sound :
    let now := (patrol.claim ⟨7⟩).advances [(⟨7⟩, onField), (⟨7⟩, onField)]
    patrol.problems = [] ∧
      (now.readingsFor ⟨7⟩ onField).map (·.expr) = [.cubeTest {} .isPassable (.var {} "post")] ∧
      (∀ x ∈ now.readingsFor ⟨7⟩ onField, ∀ e ∈ x.expr.nodes,
        e.Available (now.heldBy ⟨7⟩ onField.host).store patrol.selection) ∧
      (now.stepFor ⟨7⟩ onField).result = .ok .done ∧ (now.stepFor ⟨7⟩ onField).live.leaving = false := by
  intro now
  have hp : patrol.problems = [] := by decide
  obtain ⟨hreads, hleave⟩ := advances_sound patrol hp ⟨7⟩ [(⟨7⟩, onField), (⟨7⟩, onField)] ⟨7⟩ onField
  exact ⟨hp, by decide +kernel, fun x hx e he => ((hreads x hx).2.2 e he).1, by decide +kernel, hleave⟩

end Task

end Errand
