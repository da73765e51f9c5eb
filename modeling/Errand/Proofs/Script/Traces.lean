/-
Traces of execution: what of a tree is its state, and what its program.

Two trees are `Alike` when they differ in how far they have come and in nothing else: node by node they are of one kind
and at one place in the text, with the same names and expressions and as many children, whatever their states, active
children and chosen arms are. Nothing is asked of the states, so a tree that no execution leads to is alike to others
just as well. `alike_iff_reset_eq` says that this is what a reset forgets: not less, or a trace would stay, and not
more, or trees of different programs would fall together. Hence `reset_forgets_traces`, for trees in any state.
-/
import Errand.Proofs.Script.Program

namespace Errand

namespace Stmt

/-- two trees that differ in the traces of their execution at most -/
inductive Alike : Stmt → Stmt → Prop
  | sequence {m m' : Mark} {body body' : List Stmt} {idx idx' : Nat} (hm : m.span = m'.span)
      (hb : List.Forall₂ Alike body body') : Alike (.sequence m body idx) (.sequence m' body' idx')
  | conditional {m m' : Mark} {test : Expr} {thenS thenS' : Stmt} {elseS elseS' : Option Stmt}
      {chosen chosen' : Option Branch} (hm : m.span = m'.span) (ht : Alike thenS thenS')
      (he : Option.Rel Alike elseS elseS') :
      Alike (.conditional m test thenS elseS chosen) (.conditional m' test thenS' elseS' chosen')
  | loop {m m' : Mark} {test : Expr} {body body' : Stmt} (hm : m.span = m'.span) (hb : Alike body body') :
      Alike (.loop m test body) (.loop m' test body')
  | assign {m m' : Mark} {name : String} {value : Expr} (hm : m.span = m'.span) :
      Alike (.assign m name value) (.assign m' name value)
  | print {m m' : Mark} {value : Expr} (hm : m.span = m'.span) : Alike (.print m value) (.print m' value)
  | action {m m' : Mark} {kind : ActionKind} {target : Expr} (hm : m.span = m'.span) :
      Alike (.action m kind target) (.action m' kind target)
  | leave {m m' : Mark} (hm : m.span = m'.span) : Alike (.leave m) (.leave m')

/-! ## What a reset forgets -/

variable {s t : Stmt}

theorem map_reset_eq {body body' : List Stmt} (h : List.Forall₂ Alike body body')
    (ih : ∀ s ∈ body, ∀ t, s.Alike t → s.reset = t.reset) : body.map reset = body'.map reset := by
  induction h with
  | nil => rfl
  | cons h _ ihr =>
    rw [List.map_cons, List.map_cons, ih _ List.mem_cons_self _ h, ihr fun s hs => ih s (List.mem_cons_of_mem _ hs)]

theorem Alike.reset_eq (h : s.Alike t) : s.reset = t.reset := by
  induction s using induct generalizing t with
  | sequence m b i ih =>
    cases h with
    | sequence hm hb => simp only [reset, hm, resetAll_eq, map_reset_eq hb ih]
  | conditional m test a e c iha ihe =>
    cases h with
    | conditional hm ha he =>
      cases he with
      | none => simp only [reset, hm, iha ha]
      | some he => simp only [reset, resetElse, hm, iha ha, ihe _ rfl he]
  | loop m test b ih =>
    cases h with
    | loop hm hb => simp only [reset, hm, ih hb]
  | assign | print | action | leave =>
    cases h
    simp only [reset, *]

theorem forall₂_alike {body body' : List Stmt} (h : body.map reset = body'.map reset)
    (ih : ∀ s ∈ body, ∀ t, s.reset = t.reset → s.Alike t) : List.Forall₂ Alike body body' := by
  induction body generalizing body' with
  | nil =>
    obtain rfl : body' = [] := by simpa using h.symm
    exact .nil
  | cons s rest ihr =>
    obtain ⟨t, rest', rfl, hst, hrest⟩ := List.map_eq_cons_iff.1 h.symm
    exact .cons (ih s List.mem_cons_self t hst.symm) (ihr hrest.symm fun u hu => ih u (List.mem_cons_of_mem _ hu))

theorem alike_of_reset_eq (h : s.reset = t.reset) : s.Alike t := by
  induction s using induct generalizing t with
  | sequence m b i ih =>
    cases t <;> simp only [reset, reduceCtorEq, sequence.injEq, Mark.mk.injEq, and_true, resetAll_eq] at h
    exact .sequence h.1 (forall₂_alike h.2 ih)
  | conditional m test a e c iha ihe =>
    cases t <;> simp only [reset, reduceCtorEq, conditional.injEq, Mark.mk.injEq, and_true, resetElse_eq] at h
    rename_i elseS _
    obtain ⟨hm, rfl, ha, he⟩ := h
    refine .conditional hm (iha ha) ?_
    cases e <;> cases elseS <;> simp only [Option.map_none, Option.map_some, reduceCtorEq, Option.some.injEq] at he
    · exact .none
    · exact .some (ihe _ rfl he)
  | loop m test b ih =>
    cases t <;> simp only [reset, reduceCtorEq, loop.injEq, Mark.mk.injEq, and_true] at h
    obtain ⟨hm, rfl, hb⟩ := h
    exact .loop hm (ih hb)
  | assign m n v =>
    cases t <;> simp only [reset, reduceCtorEq, assign.injEq, Mark.mk.injEq, and_true] at h
    obtain ⟨hm, rfl, rfl⟩ := h
    exact .assign hm
  | print m v =>
    cases t <;> simp only [reset, reduceCtorEq, print.injEq, Mark.mk.injEq, and_true] at h
    obtain ⟨hm, rfl⟩ := h
    exact .print hm
  | action m k target =>
    cases t <;> simp only [reset, reduceCtorEq, action.injEq, Mark.mk.injEq, and_true] at h
    obtain ⟨hm, rfl, rfl⟩ := h
    exact .action hm
  | leave m =>
    cases t <;> simp only [reset, reduceCtorEq, leave.injEq, Mark.mk.injEq, and_true] at h
    exact .leave h

/-- **Trees are alike exactly when a reset makes them one** -/
theorem alike_iff_reset_eq : s.Alike t ↔ s.reset = t.reset := ⟨Alike.reset_eq, alike_of_reset_eq⟩

/-- a tree is pristine exactly when a reset finds nothing to forget -/
theorem isPristine_iff_reset_eq : s.isPristine = true ↔ s.reset = s :=
  ⟨reset_of_isPristine, fun h => h ▸ s.isPristine_reset⟩

/-! ## Traces and checks -/

/-- **A reset forgets all traces of execution, and the checks never see them.** Take any tree, with any state, active
child and chosen arm on any node. Whatever is bound and selected, it has the problems of its reset, the same ones in the
same order. The reset is pristine, a second one changes nothing, and the tree is pristine exactly if it is its own
reset. Trees that differ in their traces at most are those with one reset, and have the same problems. -/
theorem reset_forgets_traces (s : Stmt) :
    (∀ store sel, s.reset.problems store sel = s.problems store sel) ∧
    s.reset.isPristine = true ∧ s.reset.reset = s.reset ∧ (s.isPristine = true ↔ s.reset = s) ∧
    ∀ t, (s.Alike t ↔ s.reset = t.reset) ∧
      (s.Alike t → ∀ store sel, s.problems store sel = t.problems store sel) := by
  refine ⟨fun store sel => ?_, s.isPristine_reset, s.reset_reset, isPristine_iff_reset_eq, fun t => ?_⟩
  · exact problems_of_reset_eq s.reset_reset store sel
  · exact ⟨alike_iff_reset_eq, fun h store sel => problems_of_reset_eq h.reset_eq store sel⟩

/-- a tree that no execution leads to: done around a failed conditional, whose chosen arm is not there -/
def jumbled : Stmt :=
  .sequence { state := .done }
    [.conditional { state := .failed } (.var ⟨1, 4⟩ "ready") (.print { state := .inProgress } (.unit ⟨1, 19⟩ .selected))
        none (some .onFalse),
      .loop { state := .inProgress } (.boolean {} true) (.sequence { state := .failed } [.leave { state := .done }] 4),
      .leave { span := ⟨3, 1⟩ }] 9

/-- each rule finds what it finds in the fresh tree -/
theorem reset_forgets_traces_jumbled :
    jumbled.isPristine = false ∧ jumbled.Alike jumbled.reset ∧
      jumbled.reset.problems .empty {} =
        [.unassigned ⟨1, 4⟩ "ready", .unselected ⟨1, 19⟩ .unit, .strayLeave ⟨3, 1⟩] := by
  obtain ⟨-, -, htwice, -, halike⟩ := reset_forgets_traces jumbled
  obtain ⟨hiff, hproblems⟩ := halike jumbled.reset
  have hsame : jumbled.Alike jumbled.reset := hiff.2 htwice.symm
  refine ⟨by decide, hsame, ?_⟩
  rw [← hproblems hsame]
  decide +kernel

end Stmt

end Errand
