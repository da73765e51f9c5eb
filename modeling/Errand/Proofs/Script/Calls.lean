/-
Calls: a tree stepped again and again, and what a step of a node is in terms of a step of its child.

A call is a step that begins with no `leave` on its way; `Reaches` makes calls for as long as the tree answers that it
is under way, `Ends` until it comes to its end. A step of a tree is a step of the child that is due, wrapped
(`aroundSequence`, `aroundThen`, `aroundElse`, `aroundLoop`), and as long as the child is under way so is the wrapping
(`Tracks`). Hence
- `Reaches.lift`: calls of the child are calls of the node around it;
- `Reaches.split`: calls of the node that come to an end are calls of the child that come to an end, then more calls.
-/
import Errand.Proofs.Script.BigStep
import Errand.Proofs.Script.Rules

namespace Errand

variable {σ ρ : Type}

/-! ## Calls -/

/-- what a run of the reference semantics would reach -/
def Live.env (lv : Live σ ρ) : Env σ ρ :=
  { store := lv.store, host := lv.host, picker := lv.picker, output := lv.output }

/-- no `leave` is on its way -/
def Live.calm (lv : Live σ ρ) : Live σ ρ := { lv with leaving := false }

/-- the end that an answer announces, if it is one -/
def Stepped.ending? (r : Stepped σ ρ) : Option Ending :=
  match r.result with
  | .ok .done => some (if r.live.leaving then .left else .done)
  | .ok .failed => some .failed
  | .ok .inProgress | .ok .notStarted => none
  | .error e => some (.error e)

variable [Host σ] [Picker ρ] {fr : Frame}

/-- one step that begins with no `leave` on its way -/
def Stmt.call (fr : Frame) (s : Stmt) (lv : Live σ ρ) : Stepped σ ρ := s.step fr lv.calm

namespace Stepped

def next (fr : Frame) (r : Stepped σ ρ) : Stepped σ ρ := r.stmt.call fr r.live

/-- `n` more calls lead from `r` to `r'`, each made because the answer before it is that the tree is under way -/
def Reaches (fr : Frame) : Nat → Stepped σ ρ → Stepped σ ρ → Prop
  | 0, r, r' => r = r'
  | n + 1, r, r' => r.result = .ok .inProgress ∧ Reaches fr n (r.next fr) r'

/-- calls lead from `r` to an end, and this is how it ends -/
def Ends (fr : Frame) (r : Stepped σ ρ) (o : Ending) (env : Env σ ρ) : Prop :=
  ∃ n r', Reaches fr n r r' ∧ r'.ending? = some o ∧ r'.live.env = env

variable {r r₀ r₁ r₂ : Stepped σ ρ} {o : Ending} {env : Env σ ρ}

omit [Host σ] [Picker ρ] in
theorem ne_inProgress (hr : r.ending? = some o) : r.result ≠ .ok .inProgress := by
  intro hp
  rw [ending?, hp] at hr
  cases hr

theorem Reaches.trans {m n : Nat} (h : Reaches fr m r r₁) (h' : Reaches fr n r₁ r₂) : Reaches fr (m + n) r r₂ := by
  induction m generalizing r with
  | zero =>
    rw [Nat.zero_add, show r = r₁ from h]
    exact h'
  | succ m ih =>
    rw [Nat.add_right_comm]
    exact ⟨h.1, ih h.2⟩

/-- from an end no call is made -/
theorem Reaches.of_end {n : Nat} (h : Reaches fr n r r₁) (hr : r.result ≠ .ok .inProgress) : n = 0 ∧ r₁ = r := by
  cases n with
  | zero => exact ⟨rfl, h.symm⟩
  | succ n => exact absurd h.1 hr

theorem Reaches.next {n : Nat} (h : Reaches fr n r r₁) (hr : r.result = .ok .inProgress)
    (ho : r₁.ending? = some o) : ∃ m, n = m + 1 ∧ Reaches fr m (r.next fr) r₁ := by
  cases n with
  | zero => exact absurd ((show r = r₁ from h) ▸ hr) (ne_inProgress ho)
  | succ n => exact ⟨n, rfl, h.2⟩

/-- calls lead to one end at most -/
theorem Ends.unique {o' : Ending} {env' : Env σ ρ} (h : Ends fr r o env) (h' : Ends fr r o' env') :
    o = o' ∧ env = env' := by
  obtain ⟨n, r₁, hn, ho, rfl⟩ := h
  obtain ⟨m, r₂, hm, ho', rfl⟩ := h'
  induction n generalizing r m with
  | zero =>
    obtain rfl : r = r₁ := hn
    obtain ⟨-, rfl⟩ := hm.of_end (ne_inProgress ho)
    exact ⟨Option.some.inj (ho.symm.trans ho'), rfl⟩
  | succ n ih =>
    obtain ⟨m', -, hm'⟩ := hm.next hn.1 ho'
    exact ih hn.2 m' hm'

theorem ends_here (hr : r.ending? = some o) : Ends fr r o r.live.env := ⟨0, r, rfl, hr, rfl⟩

theorem Ends.next (hr : r.result = .ok .inProgress) (h : Ends fr (r.next fr) o env) : Ends fr r o env := by
  obtain ⟨n, r', hn, h⟩ := h
  exact ⟨n + 1, r', ⟨hr, hn⟩, h⟩

theorem Ends.after {n : Nat} (h : Reaches fr n r r₁) (h' : Ends fr r₁ o env) : Ends fr r o env := by
  obtain ⟨m, r', hm, h'⟩ := h'
  exact ⟨n + m, r', h.trans hm, h'⟩

/-! ## Wrappings -/

/-- while the step inside leaves its tree under way, the next call around it wraps the next call inside -/
def Tracks (fr : Frame) (W : Stepped σ ρ → Stepped σ ρ) : Prop :=
  ∀ r, r.result = .ok .inProgress → r.stmt.state = .inProgress →
    (W r).result = .ok .inProgress ∧ (W r).next fr = W (r.next fr)

/-- the tree is in the state that the answer calls for -/
def Settled (r : Stepped σ ρ) : Prop := r.stmt.state = Stmt.stateAfter r.result

theorem settled_step (s : Stmt) (lv : Live σ ρ) : (s.step fr lv).Settled := (Stmt.steps_step fr s lv).state

omit [Host σ] [Picker ρ] in
theorem Settled.state (h : r.Settled) (hr : r.result = .ok .inProgress) : r.stmt.state = .inProgress := by
  rw [h, hr]
  rfl

theorem Reaches.settled {n : Nat} (h : Reaches fr n r r₁) (hr : r.Settled) : r₁.Settled := by
  induction n generalizing r with
  | zero => exact (show r = r₁ from h) ▸ hr
  | succ n ih => exact ih h.2 (settled_step _ _)

theorem Reaches.program {n : Nat} (h : Reaches fr n r r₁) : r₁.stmt.reset = r.stmt.reset := by
  induction n generalizing r with
  | zero => rw [show r = r₁ from h]
  | succ n ih => exact (ih h.2).trans (Stmt.steps_step fr r.stmt r.live.calm).program

/-- a tree that is not under way after calls has come to an end -/
theorem Reaches.ending? {n : Nat} {s : Stmt} {lv : Live σ ρ} (h : Reaches fr n (s.step fr lv) r)
    (hr : r.result ≠ .ok .inProgress) : ∃ o, r.ending? = some o := by
  induction n generalizing s lv with
  | zero =>
    obtain rfl : s.step fr lv = r := h
    have hn := (Stmt.steps_step fr s lv).started
    rw [Stepped.ending?]
    split <;> simp_all
  | succ n ih => exact ih h.2

/-- calls inside are calls around -/
theorem Reaches.lift {W : Stepped σ ρ → Stepped σ ρ} (hW : Tracks fr W) {n : Nat} (h : Reaches fr n r r₁)
    (hr : r.Settled) : Reaches fr n (W r) (W r₁) := by
  induction n generalizing r with
  | zero => exact congrArg W h
  | succ n ih =>
    obtain ⟨hp, hnext⟩ := hW r h.1 (hr.state h.1)
    refine ⟨hp, ?_⟩
    rw [hnext]
    exact ih h.2 (settled_step _ _)

/-- where the calls inside come to an end, the calls around go on -/
theorem Ends.inside {W : Stepped σ ρ → Stepped σ ρ} (hW : Tracks fr W) (h : Ends fr r o env) (hr : r.Settled) :
    ∃ r₁, r₁.ending? = some o ∧ r₁.live.env = env ∧ r₁.Settled ∧ r₁.stmt.reset = r.stmt.reset ∧
      ∀ o' env', Ends fr (W r₁) o' env' → Ends fr (W r) o' env' := by
  obtain ⟨n, r₁, hn, ho, he⟩ := h
  exact ⟨r₁, ho, he, hn.settled hr, hn.program, fun _ _ h => h.after (hn.lift hW hr)⟩

/-- calls around that come to an end are calls inside that come to an end, then more calls around -/
theorem Reaches.split {W : Stepped σ ρ → Stepped σ ρ} (hW : Tracks fr W) {n : Nat} (h : Reaches fr n (W r) r₂)
    (hend : r₂.result ≠ .ok .inProgress) (hr : r.Settled) :
    ∃ k m r₁, n = k + m ∧ Reaches fr k r r₁ ∧ r₁.result ≠ .ok .inProgress ∧ Reaches fr m (W r₁) r₂ := by
  induction n generalizing r with
  | zero =>
    refine ⟨0, 0, r, rfl, rfl, fun hp => hend ?_, h⟩
    rw [← show W r = r₂ from h]
    exact (hW r hp (hr.state hp)).1
  | succ n ih =>
    by_cases hp : r.result = .ok .inProgress
    · have hnext := (hW r hp (hr.state hp)).2
      obtain ⟨k, m, r₁, rfl, hk, hr₁, hm⟩ := ih (hnext ▸ h.2) (settled_step _ _)
      exact ⟨k + 1, m, r₁, Nat.add_right_comm k m 1, ⟨hp, hk⟩, hr₁, hm⟩
    · exact ⟨0, n + 1, r, (Nat.zero_add _).symm, rfl, hp, h⟩

end Stepped

namespace Stmt

/-! ## A step is a step inside, wrapped -/

/-- the step of a sequence by that of its active child -/
def aroundSequence (m : Mark) (body : List Stmt) (idx : Nat) (r : Stepped σ ρ) : Stepped σ ρ :=
  match r.result with
  | .ok .done =>
    settle m (.sequence · (body.set idx r.stmt) (idx + 1))
      (.ok (if r.live.leaving || body.length ≤ idx + 1 then .done else .inProgress)) r.live
  | other => settle m (.sequence · (body.set idx r.stmt) idx) (carry other) r.live

def aroundThen (m : Mark) (test : Expr) (elseS : Option Stmt) (r : Stepped σ ρ) : Stepped σ ρ :=
  settle m (.conditional · test r.stmt elseS (some .onTrue)) r.result r.live

def aroundElse (m : Mark) (test : Expr) (thenS : Stmt) (r : Stepped σ ρ) : Stepped σ ρ :=
  settle m (.conditional · test thenS (some r.stmt) (some .onFalse)) r.result r.live

def aroundLoop (m : Mark) (test : Expr) (r : Stepped σ ρ) : Stepped σ ρ :=
  match r.result with
  | .ok .done =>
    if r.live.leaving then settle m (.loop · test r.stmt) (.ok .done) { r.live with leaving := false }
    else settle m (.loop · test r.stmt) (.ok .inProgress) r.live
  | other => settle m (.loop · test r.stmt) (carry other) r.live

variable {m : Mark} {body : List Stmt} {idx : Nat} {child thenS elseS b : Stmt} {test : Expr} {lv lv' : Live σ ρ}

theorem call_sequence (hm : m.state.isTerminal = false) (hc : body[idx]? = some child) :
    call fr (.sequence m body idx) lv = aroundSequence m body idx (child.call fr lv) := by
  rw [call, step, if_neg (by simp [state, mark, hm])]
  split
  · simp_all
  · rename_i child' hc'
    cases hc.symm.trans hc'
    rfl

theorem call_sequence_end (hm : m.state.isTerminal = false) (hc : body[idx]? = none) :
    call fr (.sequence m body idx) lv = settle m (.sequence · body idx) (.ok .done) lv.calm := by
  rw [call, step, if_neg (by simp [state, mark, hm])]
  split
  · rfl
  · simp_all

theorem call_then {chosen : Option Branch} {elseS : Option Stmt} (hm : m.state.isTerminal = false)
    (ht : chooseArm fr test chosen lv.calm = (.ok .onTrue, lv')) :
    call fr (.conditional m test thenS elseS chosen) lv = aroundThen m test elseS (thenS.step fr lv') := by
  rw [call, step, if_neg (by simp [state, mark, hm]), ht]
  rfl

theorem call_else {chosen : Option Branch} (hm : m.state.isTerminal = false)
    (ht : chooseArm fr test chosen lv.calm = (.ok .onFalse, lv')) :
    call fr (.conditional m test thenS (some elseS) chosen) lv = aroundElse m test thenS (elseS.step fr lv') := by
  rw [call, step, if_neg (by simp [state, mark, hm]), ht]
  rfl

theorem call_conditional_error {elseS : Option Stmt} {chosen : Option Branch} {e : EvalError}
    (hm : m.state.isTerminal = false) (ht : chooseArm fr test chosen lv.calm = (.error e, lv')) :
    call fr (.conditional m test thenS elseS chosen) lv =
      settle m (.conditional · test thenS elseS chosen) (.error e) lv' := by
  rw [call, step, if_neg (by simp [state, mark, hm]), ht]

theorem call_conditional_none {chosen : Option Branch} (hm : m.state.isTerminal = false)
    (ht : chooseArm fr test chosen lv.calm = (.ok .onFalse, lv')) :
    call fr (.conditional m test thenS none chosen) lv =
      settle m (.conditional · test thenS none (some .onFalse)) (.ok .done) lv' := by
  rw [call, step, if_neg (by simp [state, mark, hm]), ht]

theorem call_loop_error {e : EvalError} (hm : m.state.isTerminal = false)
    (ht : entersLoop fr test b lv.calm = (.error e, lv')) :
    call fr (.loop m test b) lv = settle m (.loop · test b) (.error e) lv' := by
  rw [call, step, if_neg (by simp [state, mark, hm]), ht]

theorem call_loop_end (hm : m.state.isTerminal = false) (ht : entersLoop fr test b lv.calm = (.ok false, lv')) :
    call fr (.loop m test b) lv = settle m (.loop · test b) (.ok .done) lv' := by
  rw [call, step, if_neg (by simp [state, mark, hm]), ht]

theorem call_loop (hm : m.state.isTerminal = false) (ht : entersLoop fr test b lv.calm = (.ok true, lv')) :
    call fr (.loop m test b) lv = aroundLoop m test (b.resumed.step fr lv') := by
  rw [call, step, if_neg (by simp [state, mark, hm]), ht]
  rfl

/-! ### Statements without children -/

variable {name : String} {value target : Expr} {kind : ActionKind} {e : EvalError} {v : Value}

omit [Picker ρ] in
/-- expressions read the same on both sides -/
theorem context_calm : lv.calm.context fr = lv.env.context fr := rfl

theorem call_assign_error (hp : (Stmt.assign m name value).isPristine = true)
    (hv : lv.calm.evaluate (value.evalSome (lv.env.context fr)) = (.error e, lv')) :
    call fr (.assign m name value) lv = settle m (.assign · name value) (.error e) lv' := by
  rw [call, step, if_neg (by simp [isTerminal_of_isPristine hp]), context_calm, hv]

theorem call_assign (hp : (Stmt.assign m name value).isPristine = true)
    (hv : lv.calm.evaluate (value.evalSome (lv.env.context fr)) = (.ok v, lv')) :
    call fr (.assign m name value) lv =
      settle m (.assign · name value) (.ok .done) { lv' with store := lv'.store.set name v } := by
  rw [call, step, if_neg (by simp [isTerminal_of_isPristine hp]), context_calm, hv]

theorem call_print_error (hp : (Stmt.print m value).isPristine = true)
    (hv : lv.calm.evaluate (value.evalSome (lv.env.context fr)) = (.error e, lv')) :
    call fr (.print m value) lv = settle m (.print · value) (.error e) lv' := by
  rw [call, step, if_neg (by simp [isTerminal_of_isPristine hp]), context_calm, hv]

theorem call_print (hp : (Stmt.print m value).isPristine = true)
    (hv : lv.calm.evaluate (value.evalSome (lv.env.context fr)) = (.ok v, lv')) :
    call fr (.print m value) lv =
      settle m (.print · value) (.ok .done)
        { lv' with output := lv'.output ++ [{ task := fr.task, value := v }] } := by
  rw [call, step, if_neg (by simp [isTerminal_of_isPristine hp]), context_calm, hv]

theorem call_leave (hp : (Stmt.leave m).isPristine = true) :
    call fr (.leave m) lv = settle m .leave (.ok .done) { lv with leaving := true } := by
  rw [call, step, if_neg (by simp [isTerminal_of_isPristine hp])]
  rfl

/-- what asking for the status makes of an action -/
def aroundPoll (fr : Frame) (m : Mark) (kind : ActionKind) (target : Expr) (lv : Live σ ρ) : Stepped σ ρ :=
  settle m (.action · kind target) (.ok (pollAction fr lv).1) (pollAction fr lv).2

/-- an action that was started only asks -/
theorem next_aroundPoll {kind : ActionKind} {target : Expr} (hp : (pollAction fr lv).1 = .inProgress) :
    (aroundPoll fr m kind target lv).next fr = aroundPoll fr m kind target (pollAction fr lv).2.calm := by
  have hopen {m : Mark} (h : m.state = .inProgress) : (Stmt.action m kind target).state.isTerminal ≠ true := by
    simp [state, mark, h, ExecState.isTerminal]
  rw [aroundPoll, hp, Stepped.next, settle, call, step, if_neg (hopen rfl)]
  rfl

theorem call_action_error (hp : (Stmt.action m kind target).isPristine = true)
    (hv : lv.calm.evaluate (target.evalRequired (lv.env.context fr) kind.targetKind) = (.error e, lv')) :
    call fr (.action m kind target) lv = settle m (.action · kind target) (.error e) lv' := by
  have hs : m.state = .notStarted := state_of_isPristine hp
  have hstart : startAction fr m.state kind target lv.calm = (.error e, lv') := by
    rw [startAction, if_neg (by simp [hs]), context_calm, hv]
  rw [call, step, if_neg (by simp [isTerminal_of_isPristine hp]), hstart]

theorem call_action {c : Command} (hp : (Stmt.action m kind target).isPristine = true)
    (hv : lv.calm.evaluate (target.evalRequired (lv.env.context fr) kind.targetKind) = (.ok v, lv'))
    (hc : kind.command? v = some c) :
    call fr (.action m kind target) lv =
      aroundPoll fr m kind target { lv' with host := Host.command fr.unit c lv'.host, action := some kind } := by
  have hs : m.state = .notStarted := state_of_isPristine hp
  have hstart : startAction fr m.state kind target lv.calm =
      (.ok (), { lv' with host := Host.command fr.unit c lv'.host, action := some kind }) := by
    rw [startAction, if_neg (by simp [hs]), context_calm, hv]
    simp only [hc]
  rw [call, step, if_neg (by simp [isTerminal_of_isPristine hp]), hstart]
  rfl

theorem tracks_sequence (m : Mark) (hi : idx < body.length) :
    Stepped.Tracks fr (aroundSequence m body idx : Stepped σ ρ → Stepped σ ρ) := by
  intro r hr hs
  have hW : aroundSequence m body idx r =
      settle m (.sequence · (body.set idx r.stmt) idx) (.ok .inProgress) r.live := by
    rw [aroundSequence, hr]
    rfl
  refine ⟨by rw [hW]; rfl, ?_⟩
  have hc : (body.set idx r.stmt)[idx]? = some r.stmt := List.getElem?_set_self hi
  rw [hW, Stepped.next, settle, call_sequence rfl hc, Stepped.next]
  simp only [aroundSequence, List.set_set, List.length_set]
  rfl

theorem tracks_then (m : Mark) (test : Expr) (elseS : Option Stmt) :
    Stepped.Tracks fr (aroundThen m test elseS : Stepped σ ρ → Stepped σ ρ) := by
  intro r hr hs
  refine ⟨hr, ?_⟩
  rw [aroundThen, hr, Stepped.next, settle, call_then rfl rfl]
  rfl

theorem tracks_else (m : Mark) (test : Expr) (thenS : Stmt) :
    Stepped.Tracks fr (aroundElse m test thenS : Stepped σ ρ → Stepped σ ρ) := by
  intro r hr hs
  refine ⟨hr, ?_⟩
  rw [aroundElse, hr, Stepped.next, settle, call_else rfl rfl]
  rfl

theorem tracks_loop (m : Mark) (test : Expr) :
    Stepped.Tracks fr (aroundLoop m test : Stepped σ ρ → Stepped σ ρ) := by
  intro r hr hs
  have hW : aroundLoop m test r = settle m (.loop · test r.stmt) (.ok .inProgress) r.live := by
    rw [aroundLoop, hr]
    rfl
  refine ⟨by rw [hW]; rfl, ?_⟩
  rw [hW, Stepped.next, settle, call_loop rfl (if_pos hs), resumed, if_pos hs]
  rfl

/-! ### What a wrapping makes of an end -/

variable {r : Stepped σ ρ} {o : Ending}

omit [Host σ] [Picker ρ] in
theorem result_of_done (h : r.ending? = some .done) : r.result = .ok .done ∧ r.live.leaving = false := by
  unfold Stepped.ending? at h
  split at h <;> simp_all

omit [Host σ] [Picker ρ] in
theorem result_of_left (h : r.ending? = some .left) : r.result = .ok .done ∧ r.live.leaving = true := by
  unfold Stepped.ending? at h
  split at h <;> simp_all

omit [Host σ] [Picker ρ] in
theorem carry_of_stop (h : r.ending? = some o) (hd : o ≠ .done) (hl : o ≠ .left) :
    r.result ≠ .ok .done ∧ carry r.result = r.result := by
  unfold Stepped.ending? at h
  split at h <;> simp_all [carry]
  split at h <;> simp_all

omit [Host σ] [Picker ρ] in
theorem aroundSequence_of_done (h : r.ending? = some .done) :
    aroundSequence m body idx r = settle m (.sequence · (body.set idx r.stmt) (idx + 1))
      (.ok (if body.length ≤ idx + 1 then .done else .inProgress)) r.live := by
  obtain ⟨hr, hl⟩ := result_of_done h
  rw [aroundSequence, hr]
  simp [hl]

omit [Host σ] [Picker ρ] in
theorem aroundSequence_of_stop (m : Mark) (body : List Stmt) (idx : Nat) (h : r.ending? = some o) (hd : o ≠ .done) :
    (aroundSequence m body idx r).ending? = some o ∧ (aroundSequence m body idx r).live = r.live := by
  by_cases hleft : o = .left
  · subst o
    obtain ⟨hr, hl⟩ := result_of_left h
    rw [aroundSequence, hr]
    simp [hl, settle, Stepped.ending?]
  · obtain ⟨hne, hcarry⟩ := carry_of_stop h hd hleft
    unfold aroundSequence
    split
    · exact absurd ‹_› hne
    · rw [hcarry]
      exact ⟨h, rfl⟩

omit [Host σ] [Picker ρ] in
theorem aroundLoop_of_done (h : r.ending? = some .done) :
    aroundLoop m test r = settle m (.loop · test r.stmt) (.ok .inProgress) r.live := by
  obtain ⟨hr, hl⟩ := result_of_done h
  rw [aroundLoop, hr]
  simp [hl]

omit [Host σ] [Picker ρ] in
theorem aroundLoop_of_left (h : r.ending? = some .left) :
    aroundLoop m test r = settle m (.loop · test r.stmt) (.ok .done) r.live.calm := by
  obtain ⟨hr, hl⟩ := result_of_left h
  rw [aroundLoop, hr]
  simp only [hl, if_true]
  rfl

omit [Host σ] [Picker ρ] in
theorem aroundLoop_of_stop (m : Mark) (test : Expr) (h : r.ending? = some o) (hd : o ≠ .done) (hl : o ≠ .left) :
    (aroundLoop m test r).ending? = some o ∧ (aroundLoop m test r).live = r.live := by
  obtain ⟨hne, hcarry⟩ := carry_of_stop h hd hl
  unfold aroundLoop
  split
  · exact absurd ‹_› hne
  · rw [hcarry]
    exact ⟨h, rfl⟩

end Stmt

end Errand
