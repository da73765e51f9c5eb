/-
Rules of one step, with the expressions it evaluates.

`readings` lists what a step evaluates: each expression with all it may read at that moment. Only four statements
evaluate: an undecided conditional and a loop between iterations their tests, an assignment and a print their values, an
action that is not started its target. `Steps` gives the step rule by rule, each rule labelled with its readings.
`steps_step` says that the function that steps a tree follows the rules, and `step_of_steps` that they allow no other.
What a step preserves is proved by induction on the rules:
- `Steps.program`: the program of the tree;
- `Steps.state`: the node's state is the one its answer calls for;
- `Steps.isBound`: no variable is unbound;
- `Steps.leaving`: a `leave` on its way to its loop is a finished step of a tree with a stray `leave`.
-/
import Errand.Task
import Errand.Proofs.Script.Program

namespace Errand

/-- an expression at the moment it is evaluated, with all it may read -/
structure Reading where
  expr : Expr
  context : Context

namespace Live

variable {σ ρ : Type}

theorem evaluate_live {α : Type} {lv lv' : Live σ ρ} {e : Eval ρ α} {x : Except EvalError α}
    (h : lv.evaluate e = (x, lv')) : ∃ p, lv' = { lv with picker := p } := by
  cases h
  exact ⟨_, rfl⟩

theorem decideTest_live [Host σ] [Picker ρ] {lv lv' : Live σ ρ} {fr : Frame} {test : Expr} {x : Except EvalError Bool}
    (h : lv.decideTest fr test = (x, lv')) : ∃ p, lv' = { lv with picker := p } := by
  cases h
  exact ⟨_, rfl⟩

end Live

namespace Stmt

variable {σ ρ : Type} [Host σ] [Picker ρ]

/-! ## What the parts of a step leave alone -/

theorem chooseArm_live {fr : Frame} {test : Expr} {chosen : Option Branch} {lv lv' : Live σ ρ}
    {x : Except EvalError Branch} (h : chooseArm fr test chosen lv = (x, lv')) :
    ∃ p, lv' = { lv with picker := p } := by
  cases chosen with
  | some b => cases h; exact ⟨_, rfl⟩
  | none => cases h; exact ⟨_, rfl⟩

theorem entersLoop_live {fr : Frame} {test : Expr} {body : Stmt} {lv lv' : Live σ ρ} {x : Except EvalError Bool}
    (h : entersLoop fr test body lv = (x, lv')) : ∃ p, lv' = { lv with picker := p } := by
  unfold entersLoop at h
  split at h
  · cases h; exact ⟨_, rfl⟩
  · exact Live.decideTest_live h

theorem startAction_error {fr : Frame} {state : ExecState} {kind : ActionKind} {target : Expr} {lv lv' : Live σ ρ}
    {e : EvalError} (h : startAction fr state kind target lv = (.error e, lv')) :
    ∃ p, lv' = { lv with picker := p } := by
  unfold startAction at h
  split at h
  · cases h
  · split at h
    · rename_i hv
      cases h
      exact Live.evaluate_live hv
    · rename_i hv
      split at h
      · cases h
        exact Live.evaluate_live hv
      · cases h

theorem startAction_ok {fr : Frame} {state : ExecState} {kind : ActionKind} {target : Expr} {lv lv' : Live σ ρ}
    (h : startAction fr state kind target lv = (.ok (), lv')) :
    (state ≠ .notStarted ∧ lv' = lv) ∨
      (state = .notStarted ∧ ∃ p c,
        lv' = { lv with picker := p, host := Host.command fr.unit c lv.host, action := some kind }) := by
  unfold startAction at h
  split at h
  · rename_i hs
    cases h
    exact .inl ⟨hs, rfl⟩
  · rename_i hs
    split at h
    · cases h
    · rename_i hv
      obtain ⟨p, rfl⟩ := Live.evaluate_live hv
      split at h
      · cases h
      · rename_i c hc
        cases h
        exact .inr ⟨not_not.1 hs, p, c, rfl⟩

theorem startAction_store {fr : Frame} {state : ExecState} {kind : ActionKind} {target : Expr} {lv lv' : Live σ ρ}
    (h : startAction fr state kind target lv = (.ok (), lv')) : lv'.store = lv.store := by
  obtain ⟨-, rfl⟩ | ⟨-, p, c, rfl⟩ := startAction_ok h
  · rfl
  · rfl

omit [Picker ρ] in
theorem pollAction_live (fr : Frame) (lv : Live σ ρ) :
    (pollAction fr lv).2 = { lv with
      host := (Host.poll fr.unit lv.host).2
      action := if (Host.poll fr.unit lv.host).1 = .inProgress then lv.action else none } := by
  unfold pollAction
  split <;> rename_i h <;> simp [h]

/-! ## What a step evaluates -/

/-- a conditional evaluates its test until an arm is chosen -/
def armReads (fr : Frame) (test : Expr) (chosen : Option Branch) (lv : Live σ ρ) : List Reading :=
  match chosen with
  | some _ => []
  | none => [⟨test, lv.context fr⟩]

/-- a loop evaluates its test between iterations -/
def loopReads (fr : Frame) (test : Expr) (body : Stmt) (lv : Live σ ρ) : List Reading :=
  if body.state = .inProgress then [] else [⟨test, lv.context fr⟩]

/-- an action evaluates its target when it starts -/
def startReads (fr : Frame) (state : ExecState) (target : Expr) (lv : Live σ ρ) : List Reading :=
  if state ≠ .notStarted then [] else [⟨target, lv.context fr⟩]

omit [Picker ρ] in
theorem mem_armReads {fr : Frame} {test : Expr} {chosen : Option Branch} {lv : Live σ ρ} {x : Reading} :
    x ∈ armReads fr test chosen lv ↔ chosen = none ∧ x = ⟨test, lv.context fr⟩ := by
  cases chosen <;> simp [armReads]

omit [Picker ρ] in
theorem mem_loopReads {fr : Frame} {test : Expr} {body : Stmt} {lv : Live σ ρ} {x : Reading} :
    x ∈ loopReads fr test body lv ↔ body.state ≠ .inProgress ∧ x = ⟨test, lv.context fr⟩ := by
  by_cases h : body.state = .inProgress <;> simp [loopReads, h]

omit [Picker ρ] in
theorem mem_startReads {fr : Frame} {state : ExecState} {target : Expr} {lv : Live σ ρ} {x : Reading} :
    x ∈ startReads fr state target lv ↔ state = .notStarted ∧ x = ⟨target, lv.context fr⟩ := by
  by_cases h : state = .notStarted <;> simp [startReads, h]

/-- everything one step evaluates, in order -/
def readings (fr : Frame) (s : Stmt) (lv : Live σ ρ) : List Reading :=
  if s.state.isTerminal then [] else
  match s with
  | .sequence _ body idx =>
    match _h : body[idx]? with
    | none => []
    | some child => child.readings fr lv
  | .conditional _ test thenS elseS chosen =>
    armReads fr test chosen lv ++
      match chooseArm fr test chosen lv with
      | (.error _, _) => []
      | (.ok .onTrue, lv) => thenS.readings fr lv
      | (.ok .onFalse, lv) =>
        match elseS with
        | none => []
        | some s => s.readings fr lv
  | .loop _ test body =>
    loopReads fr test body lv ++
      match entersLoop fr test body lv with
      | (.ok true, lv) => body.resumed.readings fr lv
      | _ => []
  | .assign _ _ value => [⟨value, lv.context fr⟩]
  | .print _ value => [⟨value, lv.context fr⟩]
  | .action m _ target => startReads fr m.state target lv
  | .leave _ => []
termination_by s.size
decreasing_by
  · have := size_le_sizeAll (List.mem_of_getElem? ‹body[idx]? = some child›)
    simp only [size]; omega
  · simp only [size]; omega
  · simp only [size, sizeElse]; omega
  · simp only [size, size_resumed]; omega

/-! ## The rules -/

/-- one step by rules; the list holds what the step evaluates -/
inductive Steps (fr : Frame) : Stmt → Live σ ρ → List Reading → Stepped σ ρ → Prop
  | idle {s : Stmt} {lv : Live σ ρ} (hs : s.state.isTerminal = true) : Steps fr s lv [] ⟨.ok s.state, s, lv⟩
  | sequenceEnd {m : Mark} {body : List Stmt} {idx : Nat} {lv : Live σ ρ} (hm : m.state.isTerminal = false)
      (hc : body[idx]? = none) :
      Steps fr (.sequence m body idx) lv [] (settle m (.sequence · body idx) (.ok .done) lv)
  /-- a finished child hands over, unless it is the last or a `leave` is on its way -/
  | sequenceNext {m : Mark} {body : List Stmt} {idx : Nat} {child : Stmt} {lv : Live σ ρ} {rs : List Reading}
      {r : Stepped σ ρ} (hm : m.state.isTerminal = false) (hc : body[idx]? = some child)
      (h : Steps fr child lv rs r) (hr : r.result = .ok .done) :
      Steps fr (.sequence m body idx) lv rs
        (settle m (.sequence · (body.set idx r.stmt) (idx + 1))
          (.ok (if r.live.leaving || body.length ≤ idx + 1 then .done else .inProgress)) r.live)
  | sequenceStay {m : Mark} {body : List Stmt} {idx : Nat} {child : Stmt} {lv : Live σ ρ} {rs : List Reading}
      {r : Stepped σ ρ} (hm : m.state.isTerminal = false) (hc : body[idx]? = some child)
      (h : Steps fr child lv rs r) (hr : r.result ≠ .ok .done) :
      Steps fr (.sequence m body idx) lv rs
        (settle m (.sequence · (body.set idx r.stmt) idx) (carry r.result) r.live)
  | conditionalError {m : Mark} {test : Expr} {thenS : Stmt} {elseS : Option Stmt} {chosen : Option Branch}
      {lv lv' : Live σ ρ} {e : EvalError} (hm : m.state.isTerminal = false)
      (ht : chooseArm fr test chosen lv = (.error e, lv')) :
      Steps fr (.conditional m test thenS elseS chosen) lv (armReads fr test chosen lv)
        (settle m (.conditional · test thenS elseS chosen) (.error e) lv')
  | conditionalTrue {m : Mark} {test : Expr} {thenS : Stmt} {elseS : Option Stmt} {chosen : Option Branch}
      {lv lv' : Live σ ρ} {rs : List Reading} {r : Stepped σ ρ} (hm : m.state.isTerminal = false)
      (ht : chooseArm fr test chosen lv = (.ok .onTrue, lv')) (h : Steps fr thenS lv' rs r) :
      Steps fr (.conditional m test thenS elseS chosen) lv (armReads fr test chosen lv ++ rs)
        (settle m (.conditional · test r.stmt elseS (some .onTrue)) r.result r.live)
  | conditionalFalse {m : Mark} {test : Expr} {thenS elseS : Stmt} {chosen : Option Branch} {lv lv' : Live σ ρ}
      {rs : List Reading} {r : Stepped σ ρ} (hm : m.state.isTerminal = false)
      (ht : chooseArm fr test chosen lv = (.ok .onFalse, lv')) (h : Steps fr elseS lv' rs r) :
      Steps fr (.conditional m test thenS (some elseS) chosen) lv (armReads fr test chosen lv ++ rs)
        (settle m (.conditional · test thenS (some r.stmt) (some .onFalse)) r.result r.live)
  | conditionalNone {m : Mark} {test : Expr} {thenS : Stmt} {chosen : Option Branch} {lv lv' : Live σ ρ}
      (hm : m.state.isTerminal = false) (ht : chooseArm fr test chosen lv = (.ok .onFalse, lv')) :
      Steps fr (.conditional m test thenS none chosen) lv (armReads fr test chosen lv)
        (settle m (.conditional · test thenS none (some .onFalse)) (.ok .done) lv')
  | loopError {m : Mark} {test : Expr} {body : Stmt} {lv lv' : Live σ ρ} {e : EvalError}
      (hm : m.state.isTerminal = false) (ht : entersLoop fr test body lv = (.error e, lv')) :
      Steps fr (.loop m test body) lv (loopReads fr test body lv) (settle m (.loop · test body) (.error e) lv')
  | loopEnd {m : Mark} {test : Expr} {body : Stmt} {lv lv' : Live σ ρ} (hm : m.state.isTerminal = false)
      (ht : entersLoop fr test body lv = (.ok false, lv')) :
      Steps fr (.loop m test body) lv (loopReads fr test body lv) (settle m (.loop · test body) (.ok .done) lv')
  /-- the innermost loop takes the `leave` -/
  | loopLeft {m : Mark} {test : Expr} {body : Stmt} {lv lv' : Live σ ρ} {rs : List Reading} {r : Stepped σ ρ}
      (hm : m.state.isTerminal = false) (ht : entersLoop fr test body lv = (.ok true, lv'))
      (h : Steps fr body.resumed lv' rs r) (hr : r.result = .ok .done) (hl : r.live.leaving = true) :
      Steps fr (.loop m test body) lv (loopReads fr test body lv ++ rs)
        (settle m (.loop · test r.stmt) (.ok .done) { r.live with leaving := false })
  | loopAgain {m : Mark} {test : Expr} {body : Stmt} {lv lv' : Live σ ρ} {rs : List Reading} {r : Stepped σ ρ}
      (hm : m.state.isTerminal = false) (ht : entersLoop fr test body lv = (.ok true, lv'))
      (h : Steps fr body.resumed lv' rs r) (hr : r.result = .ok .done) (hl : r.live.leaving = false) :
      Steps fr (.loop m test body) lv (loopReads fr test body lv ++ rs)
        (settle m (.loop · test r.stmt) (.ok .inProgress) r.live)
  | loopStay {m : Mark} {test : Expr} {body : Stmt} {lv lv' : Live σ ρ} {rs : List Reading} {r : Stepped σ ρ}
      (hm : m.state.isTerminal = false) (ht : entersLoop fr test body lv = (.ok true, lv'))
      (h : Steps fr body.resumed lv' rs r) (hr : r.result ≠ .ok .done) :
      Steps fr (.loop m test body) lv (loopReads fr test body lv ++ rs)
        (settle m (.loop · test r.stmt) (carry r.result) r.live)
  | assignError {m : Mark} {name : String} {value : Expr} {lv lv' : Live σ ρ} {e : EvalError}
      (hm : m.state.isTerminal = false)
      (hv : lv.evaluate (value.evalSome (lv.context fr)) = (.error e, lv')) :
      Steps fr (.assign m name value) lv [⟨value, lv.context fr⟩] (settle m (.assign · name value) (.error e) lv')
  | assign {m : Mark} {name : String} {value : Expr} {lv lv' : Live σ ρ} {v : Value}
      (hm : m.state.isTerminal = false) (hv : lv.evaluate (value.evalSome (lv.context fr)) = (.ok v, lv')) :
      Steps fr (.assign m name value) lv [⟨value, lv.context fr⟩]
        (settle m (.assign · name value) (.ok .done) { lv' with store := lv'.store.set name v })
  | printError {m : Mark} {value : Expr} {lv lv' : Live σ ρ} {e : EvalError} (hm : m.state.isTerminal = false)
      (hv : lv.evaluate (value.evalSome (lv.context fr)) = (.error e, lv')) :
      Steps fr (.print m value) lv [⟨value, lv.context fr⟩] (settle m (.print · value) (.error e) lv')
  | print {m : Mark} {value : Expr} {lv lv' : Live σ ρ} {v : Value} (hm : m.state.isTerminal = false)
      (hv : lv.evaluate (value.evalSome (lv.context fr)) = (.ok v, lv')) :
      Steps fr (.print m value) lv [⟨value, lv.context fr⟩]
        (settle m (.print · value) (.ok .done)
          { lv' with output := lv'.output ++ [{ task := fr.task, value := v }] })
  | actionError {m : Mark} {kind : ActionKind} {target : Expr} {lv lv' : Live σ ρ} {e : EvalError}
      (hm : m.state.isTerminal = false) (ha : startAction fr m.state kind target lv = (.error e, lv')) :
      Steps fr (.action m kind target) lv (startReads fr m.state target lv)
        (settle m (.action · kind target) (.error e) lv')
  | action {m : Mark} {kind : ActionKind} {target : Expr} {lv lv' : Live σ ρ} (hm : m.state.isTerminal = false)
      (ha : startAction fr m.state kind target lv = (.ok (), lv')) :
      Steps fr (.action m kind target) lv (startReads fr m.state target lv)
        (settle m (.action · kind target) (.ok (pollAction fr lv').1) (pollAction fr lv').2)
  | leave {m : Mark} {lv : Live σ ρ} (hm : m.state.isTerminal = false) :
      Steps fr (.leave m) lv [] (settle m .leave (.ok .done) { lv with leaving := true })

/-- **The step follows the rules**, and evaluates what its readings say -/
theorem steps_step (fr : Frame) (s : Stmt) (lv : Live σ ρ) : Steps fr s lv (s.readings fr lv) (s.step fr lv) := by
  fun_induction step fr s lv with
  | case1 s lv hs =>
    rw [readings.eq_def, if_pos hs]
    exact .idle hs
  | case2 lv m body idx hc hm =>
    rw [readings, if_neg hm]
    split
    · exact .sequenceEnd (Bool.eq_false_iff.2 hm) hc
    · simp_all
  | case3 lv m body idx child hc r body' hr state hm ih =>
    rw [readings, if_neg hm]
    split
    · simp_all
    · rename_i child' hc'
      cases hc.symm.trans hc'
      exact .sequenceNext (Bool.eq_false_iff.2 hm) hc ih hr
  | case4 lv m body idx child hc r body' hm hr ih =>
    rw [readings, if_neg hm]
    split
    · simp_all
    · rename_i child' hc'
      cases hc.symm.trans hc'
      exact .sequenceStay (Bool.eq_false_iff.2 hm) hc ih hr
  | case5 lv m test thenS elseS chosen e lv' ht hm =>
    rw [readings, if_neg hm, ht, List.append_nil]
    exact .conditionalError (Bool.eq_false_iff.2 hm) ht
  | case6 lv m test thenS elseS chosen lv' ht r hm ih =>
    rw [readings, if_neg hm, ht]
    exact .conditionalTrue (Bool.eq_false_iff.2 hm) ht ih
  | case7 lv m test thenS chosen lv' ht hm =>
    rw [readings, if_neg hm, ht, List.append_nil]
    exact .conditionalNone (Bool.eq_false_iff.2 hm) ht
  | case8 lv m test thenS chosen lv' ht s r hm ih =>
    rw [readings, if_neg hm, ht]
    exact .conditionalFalse (Bool.eq_false_iff.2 hm) ht ih
  | case9 lv m test body e lv' ht hm =>
    rw [readings, if_neg hm, ht, List.append_nil]
    exact .loopError (Bool.eq_false_iff.2 hm) ht
  | case10 lv m test body lv' ht hm =>
    rw [readings, if_neg hm, ht, List.append_nil]
    exact .loopEnd (Bool.eq_false_iff.2 hm) ht
  | case11 lv m test body lv' ht r hr hl hm ih =>
    rw [readings, if_neg hm, ht]
    exact .loopLeft (Bool.eq_false_iff.2 hm) ht ih hr hl
  | case12 lv m test body lv' ht r hr hl hm ih =>
    rw [readings, if_neg hm, ht]
    exact .loopAgain (Bool.eq_false_iff.2 hm) ht ih hr (Bool.eq_false_iff.2 hl)
  | case13 lv m test body lv' ht r hm hr ih =>
    rw [readings, if_neg hm, ht]
    exact .loopStay (Bool.eq_false_iff.2 hm) ht ih hr
  | case14 lv m name value e lv' hv hm =>
    rw [readings, if_neg hm]
    exact .assignError (Bool.eq_false_iff.2 hm) hv
  | case15 lv m name value v lv' hv hm =>
    rw [readings, if_neg hm]
    exact .assign (Bool.eq_false_iff.2 hm) hv
  | case16 lv m value e lv' hv hm =>
    rw [readings, if_neg hm]
    exact .printError (Bool.eq_false_iff.2 hm) hv
  | case17 lv m value v lv' hv hm =>
    rw [readings, if_neg hm]
    exact .print (Bool.eq_false_iff.2 hm) hv
  | case18 lv m kind target e lv' ha hm =>
    rw [readings, if_neg hm]
    exact .actionError (Bool.eq_false_iff.2 hm) ha
  | case19 lv m kind target lv' ha state lv'' hp hm =>
    rw [readings, if_neg hm]
    have := Steps.action (Bool.eq_false_iff.2 hm) ha
    rw [hp] at this
    exact this
  | case20 lv m hm =>
    rw [readings, if_neg hm]
    exact .leave (Bool.eq_false_iff.2 hm)

/-- **The rules leave no choice**: what they allow is the step -/
theorem step_of_steps {fr : Frame} {s : Stmt} {lv : Live σ ρ} {rs : List Reading} {r : Stepped σ ρ}
    (h : Steps fr s lv rs r) : s.step fr lv = r := by
  induction h with
  | idle hs => rw [step.eq_def, if_pos hs]
  | sequenceEnd hm hc =>
    rw [step, if_neg (by simp [state, mark, hm])]
    split
    · rfl
    · simp_all
  | @sequenceNext m body idx child lv rs r hm hc h hr ih =>
    rw [step, if_neg (by simp [state, mark, hm])]
    split
    · simp_all
    · rename_i child' hc'
      cases hc.symm.trans hc'
      simp only [ih, hr]
  | @sequenceStay m body idx child lv rs r hm hc h hr ih =>
    rw [step, if_neg (by simp [state, mark, hm])]
    split
    · simp_all
    · rename_i child' hc'
      cases hc.symm.trans hc'
      simp only [ih]
  | conditionalError hm ht => rw [step, if_neg (by simp [state, mark, hm]), ht]
  | conditionalTrue hm ht h ih => rw [step, if_neg (by simp [state, mark, hm]), ht, ← ih]
  | conditionalFalse hm ht h ih => rw [step, if_neg (by simp [state, mark, hm]), ht, ← ih]
  | conditionalNone hm ht => rw [step, if_neg (by simp [state, mark, hm]), ht]
  | loopError hm ht => rw [step, if_neg (by simp [state, mark, hm]), ht]
  | loopEnd hm ht => rw [step, if_neg (by simp [state, mark, hm]), ht]
  | loopLeft hm ht h hr hl ih =>
    rw [step, if_neg (by simp [state, mark, hm]), ht]
    simp only [ih, hr, hl, if_true]
  | loopAgain hm ht h hr hl ih =>
    rw [step, if_neg (by simp [state, mark, hm]), ht]
    simp [ih, hr, hl]
  | loopStay hm ht h hr ih =>
    rw [step, if_neg (by simp [state, mark, hm]), ht]
    simp only [ih]
  | assignError hm hv | assign hm hv | printError hm hv | print hm hv =>
    rw [step, if_neg (by simp [state, mark, hm]), hv]
  | actionError hm ha | action hm ha =>
    rw [step, if_neg (by simp [state, mark, hm]), ha]
  | leave hm => rw [step, if_neg (by simp [state, mark, hm])]

/-- nor do they about what is evaluated -/
theorem readings_of_steps {fr : Frame} {s : Stmt} {lv : Live σ ρ} {rs : List Reading} {r : Stepped σ ρ}
    (h : Steps fr s lv rs r) : s.readings fr lv = rs := by
  induction h with
  | idle hs => rw [readings.eq_def, if_pos hs]
  | sequenceEnd hm hc =>
    rw [readings, if_neg (by simp [state, mark, hm])]
    split
    · rfl
    · simp_all
  | sequenceNext hm hc _ _ ih | sequenceStay hm hc _ _ ih =>
    rw [readings, if_neg (by simp [state, mark, hm])]
    split
    · simp_all
    · rename_i child' hc'
      cases hc.symm.trans hc'
      exact ih
  | conditionalError hm ht | conditionalNone hm ht | loopError hm ht | loopEnd hm ht =>
    rw [readings, if_neg (by simp [state, mark, hm]), ht, List.append_nil]
  | conditionalTrue hm ht _ ih | conditionalFalse hm ht _ ih | loopLeft hm ht _ _ _ ih | loopAgain hm ht _ _ _ ih
  | loopStay hm ht _ _ ih =>
    rw [readings, if_neg (by simp [state, mark, hm]), ht, ← ih]
  | assignError hm | assign hm | printError hm | print hm | actionError hm | action hm | leave hm =>
    rw [readings, if_neg (by simp [state, mark, hm])]

/-! ## What a step leaves alone -/

variable {fr : Frame} {s : Stmt} {lv : Live σ ρ} {rs : List Reading} {r : Stepped σ ρ}

/-- everything is evaluated against the variables, the selection and the world with which the step began -/
theorem Steps.context (h : Steps fr s lv rs r) : ∀ x ∈ rs, x.context = lv.context fr := by
  induction h with
  | idle | sequenceEnd | leave => simp
  | sequenceNext _ _ _ _ ih | sequenceStay _ _ _ _ ih => exact ih
  | conditionalTrue _ ht _ ih | conditionalFalse _ ht _ ih =>
    obtain ⟨p, rfl⟩ := chooseArm_live ht
    intro x hx
    rcases List.mem_append.1 hx with hx | hx
    · rw [(mem_armReads.1 hx).2]
    · exact ih x hx
  | conditionalError | conditionalNone =>
    intro x hx
    rw [(mem_armReads.1 hx).2]
  | loopLeft _ ht _ _ _ ih | loopAgain _ ht _ _ _ ih | loopStay _ ht _ _ ih =>
    obtain ⟨p, rfl⟩ := entersLoop_live ht
    intro x hx
    rcases List.mem_append.1 hx with hx | hx
    · rw [(mem_loopReads.1 hx).2]
    · exact ih x hx
  | loopError | loopEnd =>
    intro x hx
    rw [(mem_loopReads.1 hx).2]
  | assign | assignError | print | printError => simp
  | action | actionError =>
    intro x hx
    rw [(mem_startReads.1 hx).2]

theorem carry_ne_done (x : Except EvalError ExecState) : carry x ≠ .ok .done := by
  unfold carry
  split <;> simp

/-- no step answers that nothing was started -/
theorem Steps.started (h : Steps fr s lv rs r) : r.result ≠ .ok .notStarted := by
  induction h with
  | idle hs =>
    intro hn
    rw [Except.ok.inj hn] at hs
    cases hs
  | sequenceNext => simp only [settle]; split <;> simp
  | sequenceStay | loopStay => simp only [settle, carry]; split <;> simp
  | conditionalTrue _ _ _ ih | conditionalFalse _ _ _ ih => exact ih
  | action => simp only [settle, pollAction]; split <;> simp
  | _ => simp [settle]

/-- a child that is not done keeps the node around it under way only if it is under way itself -/
theorem Steps.result_of_carry (h : Steps fr s lv rs r) (hd : r.result ≠ .ok .done)
    (hc : carry r.result = .ok .inProgress) : r.result = .ok .inProgress := by
  have hn := h.started
  unfold carry at hc
  split at hc
  · cases hc
  · rename_i x _ hx
    rw [hx] at hd hn
    cases x <;> simp_all
  · cases hc

theorem Steps.state (h : Steps fr s lv rs r) : r.stmt.state = stateAfter r.result := by
  cases h <;> rfl

/-- a step that does not end its tree answers that the tree is under way -/
theorem Steps.result_of_open (h : Steps fr s lv rs r) (ho : r.stmt.state.isTerminal = false) :
    r.result = .ok .inProgress := by
  have hn := h.started
  rw [h.state] at ho
  cases hr : r.result with
  | error e => rw [hr] at ho; cases ho
  | ok x =>
    rw [hr] at hn ho
    cases x with
    | inProgress => rfl
    | notStarted => exact absurd rfl hn
    | done => cases ho
    | failed => cases ho

/-- **A step keeps the program**: it changes how far the nodes have come and nothing else of the tree -/
theorem Steps.program (h : Steps fr s lv rs r) : r.stmt.reset = s.reset := by
  induction h with
  | sequenceNext hm hc h hr ih => simp only [settle, reset, resetAll_eq, map_reset_set hc ih]
  | sequenceStay hm hc h hr ih => simp only [settle, reset, resetAll_eq, map_reset_set hc ih]
  | conditionalTrue hm ht h ih => simp only [settle, reset, ih]
  | conditionalFalse hm ht h ih => simp only [settle, reset, resetElse, ih]
  | loopLeft hm ht h hr hl ih => simp only [settle, reset, ih, reset_resumed]
  | loopAgain hm ht h hr hl ih => simp only [settle, reset, ih, reset_resumed]
  | loopStay hm ht h hr ih => simp only [settle, reset, ih, reset_resumed]
  | _ => rfl

theorem Steps.isBound (h : Steps fr s lv rs r) {n : String} (hn : lv.store.isBound n = true) :
    r.live.store.isBound n = true := by
  induction h with
  | idle | sequenceEnd | leave => exact hn
  | sequenceNext _ _ _ _ ih | sequenceStay _ _ _ _ ih => exact ih hn
  | conditionalTrue _ ht _ ih | conditionalFalse _ ht _ ih =>
    obtain ⟨p, rfl⟩ := chooseArm_live ht
    exact ih hn
  | conditionalError _ ht | conditionalNone _ ht =>
    obtain ⟨p, rfl⟩ := chooseArm_live ht
    exact hn
  | loopLeft _ ht _ _ _ ih | loopAgain _ ht _ _ _ ih | loopStay _ ht _ _ ih =>
    obtain ⟨p, rfl⟩ := entersLoop_live ht
    exact ih hn
  | loopError _ ht | loopEnd _ ht =>
    obtain ⟨p, rfl⟩ := entersLoop_live ht
    exact hn
  | assign _ hv =>
    obtain ⟨p, rfl⟩ := Live.evaluate_live hv
    simp [settle, Store.isBound_set, hn]
  | assignError _ hv | printError _ hv | print _ hv =>
    obtain ⟨p, rfl⟩ := Live.evaluate_live hv
    exact hn
  | actionError _ ha =>
    obtain ⟨p, rfl⟩ := startAction_error ha
    exact hn
  | action _ ha =>
    rw [settle, pollAction_live, startAction_store ha]
    exact hn

/-- **A `leave` on its way is a finished step**, and the tree has a `leave` that no loop of its own takes -/
theorem Steps.leaving (h : Steps fr s lv rs r) (hl : lv.leaving = false) (hr : r.live.leaving = true) :
    r.result = .ok .done ∧ s.strayLeaves ≠ [] := by
  induction h with
  | idle | sequenceEnd => exact absurd hl (by simp_all [settle])
  | sequenceNext hm hc h _ ih =>
    obtain ⟨-, hs⟩ := ih hl hr
    have hmem := List.mem_of_getElem? hc
    refine ⟨?_, fun hnil => hs ?_⟩
    · simp only [settle] at hr ⊢
      simp [hr]
    · rw [strayLeaves, strayLeavesAll_eq, List.flatMap_eq_nil_iff] at hnil
      exact hnil _ hmem
  | sequenceStay _ _ _ hne ih => exact absurd (ih hl hr).1 hne
  | conditionalTrue _ ht _ ih =>
    obtain ⟨p, rfl⟩ := chooseArm_live ht
    obtain ⟨hd, hs⟩ := ih hl hr
    exact ⟨hd, by simp [strayLeaves, hs]⟩
  | conditionalFalse _ ht _ ih =>
    obtain ⟨p, rfl⟩ := chooseArm_live ht
    obtain ⟨hd, hs⟩ := ih hl hr
    exact ⟨hd, by simp [strayLeaves, strayLeavesElse, hs]⟩
  | conditionalError _ ht | conditionalNone _ ht =>
    obtain ⟨p, rfl⟩ := chooseArm_live ht
    exact absurd hl (by simp_all [settle])
  | loopLeft => exact absurd hr (by simp [settle])
  | loopAgain _ _ _ _ hn => exact absurd hr (by simp [settle, hn])
  | loopStay _ ht _ hne ih =>
    obtain ⟨p, rfl⟩ := entersLoop_live ht
    exact absurd (ih hl hr).1 hne
  | loopError _ ht | loopEnd _ ht =>
    obtain ⟨p, rfl⟩ := entersLoop_live ht
    exact absurd hl (by simp_all [settle])
  | assign _ hv | assignError _ hv | printError _ hv | print _ hv =>
    obtain ⟨p, rfl⟩ := Live.evaluate_live hv
    exact absurd hl (by simp_all [settle])
  | actionError _ ha =>
    obtain ⟨p, rfl⟩ := startAction_error ha
    exact absurd hl (by simp_all [settle])
  | action _ ha =>
    rw [settle, pollAction_live] at hr
    obtain ⟨-, rfl⟩ | ⟨-, p, c, rfl⟩ := startAction_ok ha
    · exact absurd hl (by simp_all)
    · exact absurd hl (by simp_all)
  | leave => exact ⟨rfl, by simp [strayLeaves]⟩

end Stmt

end Errand
