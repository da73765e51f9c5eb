/-
Chance: a script without `nextTo` asks no picker.

`Expr.draws` and `Stmt.draws` say that a `nextTo` occurs. `Unasked` relates two evaluations, each with pickers of its
own kind: they come to the same, and each leaves any picker as it was. What draws nothing is unasked (`unasked_eval`,
by induction on the expression), so a step of a tree that draws nothing commutes with an exchange of the picker,
whatever the kind of the new one (`step_withPicker`), and a task advances the same way with any
(`Task.advance_withPicker`). With its own picker put in its own place this says that the picker is left alone.
-/
import Errand.Proofs.Script.Evaluation
import Errand.Proofs.Task.Advance

namespace Errand

variable {σ ρ ρ' : Type}

/-! ## Where chance comes in -/

def Expr.isNextTo : Expr → Bool
  | .nextTo .. => true
  | _ => false

/-- the expression is drawn by chance, or something in it is -/
def Expr.draws (e : Expr) : Bool := e.nodes.any isNextTo

/-- an expression of the tree draws -/
def Stmt.draws (s : Stmt) : Bool := s.nodes.any Expr.isNextTo

theorem Expr.draws_child {e c : Expr} (h : e.draws = false) (hc : c ∈ e.children) : c.draws = false := by
  rw [draws, nodes_eq, List.any_cons, List.any_flatMap, Bool.or_eq_false_iff, List.any_eq_false] at h
  exact Bool.eq_false_iff.2 (h.2 c hc)

namespace Stmt

theorem draws_sequence {m : Mark} {body : List Stmt} {idx : Nat} :
    (sequence m body idx).draws = false ↔ ∀ s ∈ body, s.draws = false := by
  rw [draws, nodes, nodesAll_eq, List.any_flatMap, List.any_eq_false]
  simp only [Bool.not_eq_true, draws]

theorem draws_conditional {m : Mark} {test : Expr} {thenS : Stmt} {elseS : Option Stmt} {chosen : Option Branch} :
    (conditional m test thenS elseS chosen).draws = false ↔
      test.draws = false ∧ thenS.draws = false ∧ ∀ s ∈ elseS, s.draws = false := by
  rw [draws, nodes, List.any_append, List.any_append, Bool.or_eq_false_iff, Bool.or_eq_false_iff, and_assoc]
  refine and_congr_right fun _ => and_congr_right fun _ => ?_
  cases elseS <;> simp [draws, nodesElse]

theorem draws_loop {m : Mark} {test : Expr} {body : Stmt} :
    (loop m test body).draws = false ↔ test.draws = false ∧ body.draws = false := by
  rw [draws, nodes, List.any_append, Bool.or_eq_false_iff]
  rfl

/-- how far a tree has come is no matter of chance -/
theorem draws_of_program {s s' : Stmt} (h : s'.reset = s.reset) : s'.draws = s.draws := by
  rw [draws, draws, ← nodes_reset s', h, nodes_reset]

theorem draws_resumed (s : Stmt) : s.resumed.draws = s.draws := draws_of_program s.reset_resumed

end Stmt

/-! ## Evaluations that ask no picker -/

/-- two evaluations that come to the same and leave every picker as it was -/
def Unasked {α : Type} (a : Eval ρ α) (b : Eval ρ' α) : Prop :=
  ∃ x, (∀ p, a.run p = (x, p)) ∧ ∀ q, b.run q = (x, q)

namespace Unasked

variable {α β : Type} {a : Eval ρ α} {b : Eval ρ' α} {f : α → Eval ρ β} {g : α → Eval ρ' β}

theorem pure (v : α) : Unasked (Pure.pure v : Eval ρ α) (Pure.pure v : Eval ρ' α) := ⟨.ok v, fun _ => rfl, fun _ => rfl⟩

theorem throw (e : EvalError) : Unasked (MonadExcept.throw e : Eval ρ α) (MonadExcept.throw e : Eval ρ' α) :=
  ⟨.error e, fun _ => rfl, fun _ => rfl⟩

theorem lift (x : Except EvalError α) : Unasked (liftExcept x : Eval ρ α) (liftExcept x : Eval ρ' α) := by
  cases x with
  | error e => exact .throw e
  | ok v => exact .pure v

theorem bind (h : Unasked a b) (hf : ∀ v, Unasked (f v) (g v)) : Unasked (a >>= f) (b >>= g) := by
  obtain ⟨x, ha, hb⟩ := h
  cases x with
  | error e => exact ⟨.error e, fun p => Eval.run_bind_error (ha p), fun q => Eval.run_bind_error (hb q)⟩
  | ok v =>
    obtain ⟨y, hfa, hgb⟩ := hf v
    exact ⟨y, fun p => (Eval.run_bind_ok (ha p)).trans (hfa p), fun q => (Eval.run_bind_ok (hb q)).trans (hgb q)⟩

end Unasked

namespace Expr

variable [Picker ρ] [Picker ρ'] {cx : Context} {e : Expr}

/-- what draws nothing is evaluated without a picker -/
theorem unasked_eval (h : e.draws = false) : Unasked (e.eval cx : Eval ρ _) (e.eval cx : Eval ρ' _) := by
  induction e with
  | boolean | cube | var => exact .pure _
  | unit | place => exact .lift _
  | junction sp op l r ihl ihr =>
    have hl := ihl (draws_child h List.mem_cons_self)
    have hr := ihr (draws_child h (List.mem_cons_of_mem _ List.mem_cons_self))
    refine hl.bind fun x => (Unasked.lift _).bind fun a => hr.bind fun y => (Unasked.lift _).bind fun b => ?_
    split <;> exact .pure _
  | not sp i ih =>
    have hi := ih (draws_child h List.mem_cons_self)
    refine hi.bind fun x => (Unasked.lift _).bind fun a => ?_
    split <;> exact .pure _
  | unitTest sp t i ih =>
    have hi := ih (draws_child h List.mem_cons_self)
    refine (Unasked.lift _).bind fun _ => hi.bind fun x => (Unasked.lift _).bind fun a => ?_
    split
    · exact (Unasked.lift _).bind fun b => .pure _
    · exact .pure _
  | cubeTest sp t i ih =>
    have hi := ih (draws_child h List.mem_cons_self)
    refine hi.bind fun x => (Unasked.lift _).bind fun a => ?_
    split <;> exact .pure _
  | positionOf sp i ih =>
    have hi := ih (draws_child h List.mem_cons_self)
    refine hi.bind fun x => (Unasked.lift _).bind fun a => ?_
    split
    · exact (Unasked.lift _).bind fun b => .pure _
    · exact .pure _
  | nextTo => cases h

theorem unasked_evalSome (h : e.draws = false) : Unasked (e.evalSome cx : Eval ρ _) (e.evalSome cx : Eval ρ' _) := by
  refine (unasked_eval h).bind fun x => ?_
  cases x with
  | some v => exact .pure v
  | none => exact .throw _

theorem unasked_evalRequired (h : e.draws = false) (k : Kind) :
    Unasked (e.evalRequired cx k : Eval ρ _) (e.evalRequired cx k : Eval ρ' _) := by
  have has : Unasked (e.evalAs cx k : Eval ρ _) (e.evalAs cx k : Eval ρ' _) :=
    (unasked_eval h).bind fun x => .lift _
  refine has.bind fun x => ?_
  cases x with
  | some v => exact .pure v
  | none => exact .throw _

end Expr

/-! ## Steps -/

/-- the same surroundings with another picker, of another kind perhaps -/
def Live.withPicker (lv : Live σ ρ) (q : ρ') : Live σ ρ' := { lv with picker := q }

/-- the same step with another picker -/
def Stepped.withPicker (r : Stepped σ ρ) (q : ρ') : Stepped σ ρ' := { r with live := r.live.withPicker q }

namespace Live

variable {lv : Live σ ρ} {fr : Frame} {test : Expr}

/-- what is unasked ends the same in all surroundings, and leaves them as they were -/
theorem evaluate_unasked {α : Type} {a : Eval ρ α} {b : Eval ρ' α} (h : Unasked a b) :
    ∃ x, (∀ lv : Live σ ρ, lv.evaluate a = (x, lv)) ∧ ∀ lv : Live σ ρ', lv.evaluate b = (x, lv) := by
  obtain ⟨x, ha, hb⟩ := h
  refine ⟨x, fun lv => ?_, fun lv => ?_⟩
  · rw [evaluate, ha]
  · rw [evaluate, hb]

variable [Host σ]

theorem context_withPicker (lv : Live σ ρ) (q : ρ') : (lv.withPicker q).context fr = lv.context fr := rfl

variable [Picker ρ] [Picker ρ']

theorem decideTest_withPicker (h : test.draws = false) (q : ρ') :
    (lv.withPicker q).decideTest fr test = ((lv.decideTest fr test).1, (lv.decideTest fr test).2.withPicker q) := by
  have htest : Unasked (test.evalRequired (lv.context fr) .boolean : Eval ρ _)
      (test.evalRequired (lv.context fr) .boolean : Eval ρ' _) := Expr.unasked_evalRequired h .boolean
  obtain ⟨x, ha, hb⟩ := evaluate_unasked (σ := σ) htest
  simp only [decideTest, context_withPicker, ha, hb]

end Live

namespace Stmt

variable [Host σ] {lv : Live σ ρ} {fr : Frame} {test : Expr}

theorem pollAction_withPicker (q : ρ') :
    pollAction fr (lv.withPicker q) = ((pollAction fr lv).1, (pollAction fr lv).2.withPicker q) := by
  rcases hp : Host.poll fr.unit lv.host with ⟨_ | _ | _, host⟩ <;> simp only [pollAction, Live.withPicker, hp]

variable [Picker ρ] [Picker ρ']

theorem chooseArm_withPicker (h : test.draws = false) (chosen : Option Branch) (q : ρ') :
    chooseArm fr test chosen (lv.withPicker q) =
      ((chooseArm fr test chosen lv).1, (chooseArm fr test chosen lv).2.withPicker q) := by
  cases chosen with
  | some b => rfl
  | none => simp only [chooseArm, Live.decideTest_withPicker h]

theorem entersLoop_withPicker (h : test.draws = false) (body : Stmt) (q : ρ') :
    entersLoop fr test body (lv.withPicker q) =
      ((entersLoop fr test body lv).1, (entersLoop fr test body lv).2.withPicker q) := by
  unfold entersLoop
  split
  · rfl
  · exact Live.decideTest_withPicker h q

theorem startAction_withPicker {target : Expr} (h : target.draws = false) (state : ExecState) (kind : ActionKind)
    (q : ρ') :
    startAction fr state kind target (lv.withPicker q) =
      ((startAction fr state kind target lv).1, (startAction fr state kind target lv).2.withPicker q) := by
  have htarget : Unasked (target.evalRequired (lv.context fr) kind.targetKind : Eval ρ _)
      (target.evalRequired (lv.context fr) kind.targetKind : Eval ρ' _) := Expr.unasked_evalRequired h _
  obtain ⟨x, ha, hb⟩ := Live.evaluate_unasked (σ := σ) htarget
  simp only [startAction, Live.context_withPicker, ha, hb]
  split
  · rfl
  · cases x with
    | error e => rfl
    | ok v =>
      dsimp only
      cases kind.command? v <;> rfl

/-- the value of an assignment or a print -/
theorem evaluateSome_withPicker {value : Expr} (h : value.draws = false) (q : ρ') :
    (lv.withPicker q).evaluate (value.evalSome ((lv.withPicker q).context fr)) =
      ((lv.evaluate (value.evalSome (lv.context fr))).1,
        (lv.evaluate (value.evalSome (lv.context fr))).2.withPicker q) := by
  have hvalue : Unasked (value.evalSome (lv.context fr) : Eval ρ _) (value.evalSome (lv.context fr) : Eval ρ' _) :=
    Expr.unasked_evalSome h
  obtain ⟨x, ha, hb⟩ := Live.evaluate_unasked (σ := σ) hvalue
  simp only [Live.context_withPicker, ha, hb]

/-- **A step of a tree that draws nothing is the same with any picker**, and leaves the picker alone -/
theorem step_withPicker (fr : Frame) {s : Stmt} (h : s.draws = false) (lv : Live σ ρ) (q : ρ') :
    s.step fr (lv.withPicker q) = (s.step fr lv).withPicker q := by
  -- the cases are those of `step`: with the new picker each is entered alike, since its own test is unasked,
  -- and the child is stepped alike by induction
  fun_induction step fr s lv with
  | case1 s lv hs =>
    rw [step.eq_def, if_pos hs]
    rfl
  | case2 lv m body idx hc hm =>
    rw [step, if_neg hm]
    split
    · rfl
    · simp_all
  | case3 lv m body idx child hc r body' hr state hm ih =>
    have hchild := ih (draws_sequence.1 h child (List.mem_of_getElem? hc))
    rw [step, if_neg hm]
    split
    · simp_all
    · rename_i child' hc'
      cases hc.symm.trans hc'
      simp only [hchild, Stepped.withPicker]
      rw [hr]
      rfl
  | case4 lv m body idx child hc r body' hm hr ih =>
    have hchild := ih (draws_sequence.1 h child (List.mem_of_getElem? hc))
    rw [step, if_neg hm]
    split
    · simp_all
    · rename_i child' hc'
      cases hc.symm.trans hc'
      simp only [hchild, Stepped.withPicker]
      split
      · rename_i hd
        exact absurd hd hr
      · rfl
  | case5 lv m test thenS elseS chosen e lv' ht hm =>
    obtain ⟨htest, -⟩ := draws_conditional.1 h
    rw [step, if_neg hm, chooseArm_withPicker htest, ht]
    rfl
  | case6 lv m test thenS elseS chosen lv' ht r hm ih =>
    obtain ⟨htest, hthen, -⟩ := draws_conditional.1 h
    rw [step, if_neg hm, chooseArm_withPicker htest, ht]
    simp only [ih hthen]
    rfl
  | case7 lv m test thenS chosen lv' ht hm =>
    obtain ⟨htest, -⟩ := draws_conditional.1 h
    rw [step, if_neg hm, chooseArm_withPicker htest, ht]
    rfl
  | case8 lv m test thenS chosen lv' ht s r hm ih =>
    obtain ⟨htest, -, helse⟩ := draws_conditional.1 h
    rw [step, if_neg hm, chooseArm_withPicker htest, ht]
    simp only [ih (helse s rfl)]
    rfl
  | case9 lv m test body e lv' ht hm =>
    obtain ⟨htest, -⟩ := draws_loop.1 h
    rw [step, if_neg hm, entersLoop_withPicker htest, ht]
    rfl
  | case10 lv m test body lv' ht hm =>
    obtain ⟨htest, -⟩ := draws_loop.1 h
    rw [step, if_neg hm, entersLoop_withPicker htest, ht]
    rfl
  | case11 lv m test body lv' ht r hr hl hm ih =>
    obtain ⟨htest, hbody⟩ := draws_loop.1 h
    rw [step, if_neg hm, entersLoop_withPicker htest, ht]
    simp only [ih (body.draws_resumed.trans hbody), Stepped.withPicker]
    rw [hr]
    exact if_pos hl
  | case12 lv m test body lv' ht r hr hl hm ih =>
    obtain ⟨htest, hbody⟩ := draws_loop.1 h
    rw [step, if_neg hm, entersLoop_withPicker htest, ht]
    simp only [ih (body.draws_resumed.trans hbody), Stepped.withPicker]
    rw [hr]
    exact if_neg hl
  | case13 lv m test body lv' ht r hm hr ih =>
    obtain ⟨htest, hbody⟩ := draws_loop.1 h
    rw [step, if_neg hm, entersLoop_withPicker htest, ht]
    simp only [ih (body.draws_resumed.trans hbody), Stepped.withPicker]
    split
    · rename_i hd
      exact absurd hd hr
    · rfl
  | case14 lv m name value e lv' hv hm =>
    rw [step, if_neg hm, evaluateSome_withPicker h, hv]
    rfl
  | case15 lv m name value v lv' hv hm =>
    rw [step, if_neg hm, evaluateSome_withPicker h, hv]
    rfl
  | case16 lv m value e lv' hv hm =>
    rw [step, if_neg hm, evaluateSome_withPicker h, hv]
    rfl
  | case17 lv m value v lv' hv hm =>
    rw [step, if_neg hm, evaluateSome_withPicker h, hv]
    rfl
  | case18 lv m kind target e lv' ha hm =>
    rw [step, if_neg hm, startAction_withPicker h, ha]
    rfl
  | case19 lv m kind target lv' ha state lv'' hp hm =>
    rw [step, if_neg hm, startAction_withPicker h, ha]
    simp only [pollAction_withPicker, hp]
    rfl
  | case20 lv m hm =>
    rw [step, if_neg hm]
    rfl

end Stmt

/-! ## Advances -/

/-- the same surroundings of a task with another picker -/
def Outside.withPicker (o : Outside σ ρ) (q : ρ') : Outside σ ρ' := { o with picker := q }

namespace Task

variable [Host σ] {t : Task}

/-- a program that is claimed or started anew draws what it drew before -/
theorem draws_heldBy (t : Task) (u : UnitId) (host : σ) : (t.heldBy u host).body.draws = t.body.draws :=
  Stmt.draws_of_program (t.same_heldBy u host).program

variable [Picker ρ] [Picker ρ']

theorem stepFor_withPicker (h : t.body.draws = false) (u : UnitId) (o : Outside σ ρ) (q : ρ') :
    t.stepFor u (o.withPicker q) = (t.stepFor u o).withPicker q :=
  Stmt.step_withPicker ((t.heldBy u o.host).frame u) ((t.draws_heldBy u o.host).trans h)
    ((t.heldBy u o.host).live (t.claimFor u o.host).2 o) q

/-- **A task that draws nothing advances the same way with any picker**, and leaves the picker alone -/
theorem advance_withPicker (h : t.body.draws = false) (u : UnitId) (o : Outside σ ρ) (q : ρ') :
    t.advance u (o.withPicker q) =
      ((t.advance u o).1, (t.advance u o).2.1, (t.advance u o).2.2.withPicker q) := by
  rw [advance_eq, advance_eq, advanced_eq, advanced_eq, stepFor_withPicker h]
  rfl

end Task

end Errand
