/-
The stepper refines the reference semantics: called again and again, a fresh tree comes to an end exactly when the
reference run does, with the same result and the same surroundings.

Every reference run is followed (`ends_of_runs`, by induction on its rules, with one lemma for each construct), and
every run of calls that ends is a reference run (`runs_of_reaches`, by induction on the tree, for the children of a
sequence on what is left of them and for a loop on the number of calls). `ends_iff_runs` puts the two together for trees
in which every `leave` stands in a loop.
-/
import Errand.Proofs.Script.Calls
import Errand.Rehearsal

namespace Errand

namespace Stmt

variable {σ ρ : Type} [Host σ] [Picker ρ] {fr : Frame} {m : Mark} {body : List Stmt} {idx : Nat}
  {child thenS elseS b : Stmt} {test target : Expr} {kind : ActionKind} {e : EvalError} {lv lv' : Live σ ρ}
  {r : Stepped σ ρ} {o : Ending}

/-! ## Evaluation on both sides -/

/-- a test is evaluated as the reference does it, and no `leave` is on its way afterwards -/
theorem decideTest_of_test {x : Except EvalError Value} {env : Env σ ρ} (ht : lv.env.test fr test = (x, env)) :
    ∃ lv', lv.calm.decideTest fr test = (x.map (· == .boolean true), lv') ∧ lv'.env = env ∧ lv'.calm = lv' := by
  cases ht
  exact ⟨_, rfl, rfl, rfl⟩

omit [Host σ] [Picker ρ] in
/-- so is a value -/
theorem evaluate_of_evaluate {α : Type} {e : Eval ρ α} {x : Except EvalError α} {env : Env σ ρ}
    (hv : lv.env.evaluate e = (x, env)) :
    ∃ lv', lv.calm.evaluate e = (x, lv') ∧ lv'.env = env ∧ lv'.calm = lv' := by
  cases hv
  exact ⟨_, rfl, rfl, rfl⟩

theorem chooseArm_of_test {x : Except EvalError Value} {env : Env σ ρ} (ht : lv.env.test fr test = (x, env)) :
    ∃ lv', chooseArm fr test none lv.calm =
        ((x.map (· == .boolean true)).map fun b => if b then .onTrue else .onFalse, lv') ∧
      lv'.env = env ∧ lv'.calm = lv' := by
  obtain ⟨lv', hd, he, hc⟩ := decideTest_of_test ht
  refine ⟨lv', ?_, he, hc⟩
  rw [chooseArm, hd]

theorem entersLoop_of_test {x : Except EvalError Value} {env : Env σ ρ} (hb : b.state ≠ .inProgress)
    (ht : lv.env.test fr test = (x, env)) :
    ∃ lv', entersLoop fr test b lv.calm = (x.map (· == .boolean true), lv') ∧ lv'.env = env ∧ lv'.calm = lv' := by
  obtain ⟨lv', hd, he, hc⟩ := decideTest_of_test ht
  refine ⟨lv', ?_, he, hc⟩
  rw [entersLoop, if_neg hb, hd]

/-! ## Reference runs are followed -/

/-- where a tree can stand when its reference run begins: fresh, or, for a sequence, before the children that are left,
or, for a loop, between iterations -/
def Begins (s₀ : Stmt) : Stmt → Prop
  | .sequence _ rest _ => ∃ m body idx, s₀ = .sequence m body idx ∧ m.state.isTerminal = false ∧ body.drop idx = rest ∧
      ∀ c ∈ rest, c.isPristine = true
  | .loop _ test b => ∃ m b₀, s₀ = .loop m test b₀ ∧ m.state.isTerminal = false ∧ b₀.state ≠ .inProgress ∧ b₀.reset = b
  | s => s₀ = s ∧ s.isPristine = true

theorem begins_of_isPristine {s : Stmt} (h : s.isPristine = true) : Begins s s := by
  have hs : s.state = .notStarted := state_of_isPristine h
  cases s with
  | sequence m body i =>
    simp only [isPristine, Bool.and_eq_true, beq_iff_eq, allPristine_eq, List.all_eq_true] at h
    obtain ⟨⟨-, rfl⟩, hall⟩ := h
    exact ⟨m, body, 0, rfl, by rw [show m.state = _ from hs]; rfl, rfl, hall⟩
  | loop m test b =>
    simp only [isPristine, Bool.and_eq_true] at h
    refine ⟨m, b, rfl, by rw [show m.state = _ from hs]; rfl, ?_, reset_of_isPristine h.2⟩
    rw [state_of_isPristine h.2]
    simp
  | _ => exact ⟨rfl, h⟩

open Stepped

theorem ends_done {f : Mark → Stmt} (hl : lv.leaving = false) :
    Ends fr (settle m f (.ok .done) lv) .done lv.env := by
  refine ends_here ?_
  simp [settle, Stepped.ending?, hl]

theorem ends_error {f : Mark → Stmt} {e : EvalError} : Ends fr (settle m f (.error e) lv) (.error e) lv.env :=
  ends_here rfl

/-- a sequence goes on with the children that are left -/
theorem ends_sequence_next {o' : Ending} {env env' : Env σ ρ} (hm : m.state.isTerminal = false)
    (hc : body[idx]? = some child) (h : Ends fr (child.call fr lv) .done env)
    (hlast : body.length ≤ idx + 1 → o' = .done ∧ env' = env)
    (hnext : ∀ (m' : Mark) (body' : List Stmt) (lv' : Live σ ρ), m'.state.isTerminal = false →
      body'.drop (idx + 1) = body.drop (idx + 1) → lv'.env = env →
      Ends fr (call fr (.sequence m' body' (idx + 1)) lv') o' env') :
    Ends fr (call fr (.sequence m body idx) lv) o' env' := by
  obtain ⟨hi, -⟩ := List.getElem?_eq_some_iff.1 hc
  obtain ⟨r, ho, he, -, -, hafter⟩ := h.inside (tracks_sequence m hi) (settled_step _ _)
  rw [call_sequence hm hc]
  refine hafter _ _ ?_
  rw [aroundSequence_of_done ho]
  by_cases hlen : body.length ≤ idx + 1
  · obtain ⟨rfl, rfl⟩ := hlast hlen
    rw [if_pos hlen, ← he]
    exact ends_done (result_of_done ho).2
  · rw [if_neg hlen]
    exact Ends.next rfl (hnext _ _ _ rfl (List.drop_set_of_lt (Nat.lt_succ_self idx)) he)

/-- a sequence stops with the child that does not end well -/
theorem ends_sequence_stop {env : Env σ ρ} (hm : m.state.isTerminal = false) (hc : body[idx]? = some child)
    (h : Ends fr (child.call fr lv) o env) (hd : o ≠ .done) : Ends fr (call fr (.sequence m body idx) lv) o env := by
  obtain ⟨hi, -⟩ := List.getElem?_eq_some_iff.1 hc
  obtain ⟨r, ho, he, -, -, hafter⟩ := h.inside (tracks_sequence m hi) (settled_step _ _)
  obtain ⟨hW, hlive⟩ := aroundSequence_of_stop m body idx ho hd
  rw [call_sequence hm hc]
  refine hafter _ _ ?_
  rw [← he, ← hlive]
  exact ends_here hW

theorem ends_then {elseS : Option Stmt} {chosen : Option Branch} {env : Env σ ρ} (hm : m.state.isTerminal = false)
    (ht : chooseArm fr test chosen lv.calm = (.ok .onTrue, lv')) (hl : lv'.calm = lv')
    (h : Ends fr (thenS.call fr lv') o env) : Ends fr (call fr (.conditional m test thenS elseS chosen) lv) o env := by
  obtain ⟨r, ho, he, -, -, hafter⟩ := h.inside (tracks_then m test elseS) (settled_step _ _)
  rw [call_then hm ht, ← hl]
  refine hafter _ _ ?_
  rw [← he]
  exact ends_here ho

theorem ends_else {chosen : Option Branch} {env : Env σ ρ} (hm : m.state.isTerminal = false)
    (ht : chooseArm fr test chosen lv.calm = (.ok .onFalse, lv')) (hl : lv'.calm = lv')
    (h : Ends fr (elseS.call fr lv') o env) :
    Ends fr (call fr (.conditional m test thenS (some elseS) chosen) lv) o env := by
  obtain ⟨r, ho, he, -, -, hafter⟩ := h.inside (tracks_else m test thenS) (settled_step _ _)
  rw [call_else hm ht, ← hl]
  refine hafter _ _ ?_
  rw [← he]
  exact ends_here ho

/-- an iteration that ends well leads to the next test -/
theorem ends_loop_again {o' : Ending} {env env' : Env σ ρ} (hm : m.state.isTerminal = false)
    (ht : entersLoop fr test b lv.calm = (.ok true, lv')) (hl : lv'.calm = lv')
    (h : Ends fr (b.resumed.call fr lv') .done env)
    (hnext : ∀ (m' : Mark) (b' : Stmt) (lv' : Live σ ρ), m'.state.isTerminal = false → b'.state = .done →
      b'.reset = b.reset → lv'.env = env → Ends fr (call fr (.loop m' test b') lv') o' env') :
    Ends fr (call fr (.loop m test b) lv) o' env' := by
  obtain ⟨r, ho, he, hset, hprog, hafter⟩ := h.inside (tracks_loop m test) (settled_step _ _)
  rw [call_loop hm ht, ← hl]
  refine hafter _ _ ?_
  rw [aroundLoop_of_done ho]
  refine Ends.next rfl (hnext _ _ _ rfl ?_ ?_ he)
  · rw [hset, (result_of_done ho).1]
    rfl
  · rw [hprog, call, (steps_step fr b.resumed lv'.calm).program, reset_resumed]

/-- a loop takes the `leave` of its body -/
theorem ends_loop_left {env : Env σ ρ} (hm : m.state.isTerminal = false)
    (ht : entersLoop fr test b lv.calm = (.ok true, lv')) (hl : lv'.calm = lv')
    (h : Ends fr (b.resumed.call fr lv') .left env) : Ends fr (call fr (.loop m test b) lv) .done env := by
  obtain ⟨r, ho, he, -, -, hafter⟩ := h.inside (tracks_loop m test) (settled_step _ _)
  rw [call_loop hm ht, ← hl]
  refine hafter _ _ ?_
  rw [aroundLoop_of_left ho, ← he]
  exact ends_done rfl

/-- a loop stops with the iteration that fails -/
theorem ends_loop_stop {env : Env σ ρ} (hm : m.state.isTerminal = false)
    (ht : entersLoop fr test b lv.calm = (.ok true, lv')) (hl : lv'.calm = lv')
    (h : Ends fr (b.resumed.call fr lv') o env) (hd : o ≠ .done) (hleft : o ≠ .left) :
    Ends fr (call fr (.loop m test b) lv) o env := by
  obtain ⟨r, ho, he, -, -, hafter⟩ := h.inside (tracks_loop m test) (settled_step _ _)
  obtain ⟨hW, hlive⟩ := aroundLoop_of_stop m test ho hd hleft
  rw [call_loop hm ht, ← hl]
  refine hafter _ _ ?_
  rw [← he, ← hlive]
  exact ends_here hW

theorem ends_poll {kind : ActionKind} {target : Expr} {host host' : σ} (h : Polls fr.unit host o host')
    (hh : lv.host = host) (hl : lv.leaving = false) :
    Ends fr (aroundPoll fr m kind target lv) o { lv.env with host := host' } := by
  induction h generalizing lv with
  | @completed _ host' h =>
    have hpoll : pollAction fr lv = (.done, { lv with host := host', action := none }) := by rw [pollAction, hh, h]
    rw [aroundPoll, hpoll]
    exact ends_done hl
  | @failed _ host' h =>
    have hpoll : pollAction fr lv = (.failed, { lv with host := host', action := none }) := by rw [pollAction, hh, h]
    rw [aroundPoll, hpoll]
    exact ends_here rfl
  | @again _ host₁ _ _ h hp ih =>
    have hpoll : pollAction fr lv = (.inProgress, { lv with host := host₁ }) := by rw [pollAction, hh, h]
    have hgo : (pollAction fr lv).1 = .inProgress := by rw [hpoll]
    refine Ends.next (by rw [aroundPoll, hgo]; rfl) ?_
    rw [next_aroundPoll hgo, hpoll]
    exact ih rfl rfl

omit [Host σ] [Picker ρ] in
theorem resumed_of_ne (hb : b.state ≠ .inProgress) : b.resumed = b.reset := if_neg hb

theorem isPristine_conditional {elseS : Option Stmt} {chosen : Option Branch}
    (h : (Stmt.conditional m test thenS elseS chosen).isPristine = true) :
    m.state.isTerminal = false ∧ chosen = none ∧ thenS.isPristine = true ∧ ∀ s ∈ elseS, s.isPristine = true := by
  simp only [isPristine, Bool.and_eq_true, beq_iff_eq] at h
  obtain ⟨⟨⟨hm, hc⟩, ht⟩, he⟩ := h
  refine ⟨by rw [hm]; rfl, hc, ht, fun s hs => ?_⟩
  obtain rfl : elseS = some s := hs
  exact he

/-- **Every reference run is followed**: called again and again, a tree that stands at its beginning comes to its end -/
theorem ends_of_runs {s s₀ : Stmt} {env env' : Env σ ρ} (h : Runs fr s env o env') (hb : Begins s₀ s)
    (he : lv.env = env) : Ends fr (s₀.call fr lv) o env' := by
  induction h generalizing s₀ lv with
  | sequenceNil =>
    obtain ⟨m, body, idx, rfl, hm, hdrop, -⟩ := hb
    have hc : body[idx]? = none := List.getElem?_eq_none (List.drop_eq_nil_iff.1 hdrop)
    rw [call_sequence_end hm hc, ← he]
    exact ends_done rfl
  | @sequenceNext m₀ i child rest env env₁ env' o hs hrest ihs ihrest =>
    obtain ⟨m, body, idx, rfl, hm, hdrop, hall⟩ := hb
    obtain ⟨hc, hdrop'⟩ := drop_eq_cons hdrop
    have hchild := ihs (begins_of_isPristine (hall child List.mem_cons_self)) he
    refine ends_sequence_next hm hc hchild (fun hlen => ?_) fun m' body' lv' hm' hbody' he' => ?_
    · rw [List.drop_eq_nil_of_le hlen] at hdrop'
      subst rest
      cases hrest
      exact ⟨rfl, rfl⟩
    · refine ihrest ⟨m', body', idx + 1, rfl, hm', hbody'.trans hdrop', fun c hc => ?_⟩ he'
      exact hall c (List.mem_cons_of_mem _ hc)
  | sequenceStop hs ho ih =>
    obtain ⟨m, body, idx, rfl, hm, hdrop, hall⟩ := hb
    exact ends_sequence_stop hm (drop_eq_cons hdrop).1 (ih (begins_of_isPristine (hall _ List.mem_cons_self)) he) ho
  | conditionalError ht =>
    obtain ⟨rfl, hp⟩ := hb
    obtain ⟨hm, rfl, -, -⟩ := isPristine_conditional hp
    obtain ⟨lv', harm, rfl, -⟩ := chooseArm_of_test (he ▸ ht)
    rw [call_conditional_error hm harm]
    exact ends_error
  | conditionalTrue ht hs ih =>
    obtain ⟨rfl, hp⟩ := hb
    obtain ⟨hm, rfl, hthen, -⟩ := isPristine_conditional hp
    obtain ⟨lv', harm, rfl, hl⟩ := chooseArm_of_test (he ▸ ht)
    exact ends_then hm harm hl (ih (begins_of_isPristine hthen) rfl)
  | conditionalFalse ht hs ih =>
    obtain ⟨rfl, hp⟩ := hb
    obtain ⟨hm, rfl, -, helse⟩ := isPristine_conditional hp
    obtain ⟨lv', harm, rfl, hl⟩ := chooseArm_of_test (he ▸ ht)
    exact ends_else hm harm hl (ih (begins_of_isPristine (helse _ rfl)) rfl)
  | conditionalNone ht =>
    obtain ⟨rfl, hp⟩ := hb
    obtain ⟨hm, rfl, -, -⟩ := isPristine_conditional hp
    obtain ⟨lv', harm, rfl, hl⟩ := chooseArm_of_test (he ▸ ht)
    rw [call_conditional_none hm harm]
    exact ends_done (hl ▸ rfl)
  | loopError ht =>
    obtain ⟨m, b₀, rfl, hm, hb₀, -⟩ := hb
    obtain ⟨lv', henter, rfl, -⟩ := entersLoop_of_test hb₀ (he ▸ ht)
    rw [call_loop_error hm henter]
    exact ends_error
  | loopEnd ht =>
    obtain ⟨m, b₀, rfl, hm, hb₀, -⟩ := hb
    obtain ⟨lv', henter, rfl, hl⟩ := entersLoop_of_test hb₀ (he ▸ ht)
    rw [call_loop_end hm henter]
    exact ends_done (hl ▸ rfl)
  | loopAgain ht hs hrest ihs ihrest =>
    obtain ⟨m, b₀, rfl, hm, hb₀, rfl⟩ := hb
    obtain ⟨lv', henter, rfl, hl⟩ := entersLoop_of_test hb₀ (he ▸ ht)
    have hbody := ihs (begins_of_isPristine b₀.isPristine_reset) rfl
    rw [← resumed_of_ne hb₀] at hbody
    refine ends_loop_again hm henter hl hbody fun m' b' lv'' hm' hdone hreset he' => ?_
    exact ihrest ⟨m', b', rfl, hm', by simp [hdone], hreset⟩ he'
  | loopLeft ht hs ih =>
    obtain ⟨m, b₀, rfl, hm, hb₀, rfl⟩ := hb
    obtain ⟨lv', henter, rfl, hl⟩ := entersLoop_of_test hb₀ (he ▸ ht)
    have hbody := ih (begins_of_isPristine b₀.isPristine_reset) rfl
    rw [← resumed_of_ne hb₀] at hbody
    exact ends_loop_left hm henter hl hbody
  | loopStop ht hs hd hleft ih =>
    obtain ⟨m, b₀, rfl, hm, hb₀, rfl⟩ := hb
    obtain ⟨lv', henter, rfl, hl⟩ := entersLoop_of_test hb₀ (he ▸ ht)
    have hbody := ih (begins_of_isPristine b₀.isPristine_reset) rfl
    rw [← resumed_of_ne hb₀] at hbody
    exact ends_loop_stop hm henter hl hbody hd hleft
  | assignError hv =>
    obtain ⟨rfl, hp⟩ := hb
    subst he
    obtain ⟨lv', hval, rfl, -⟩ := evaluate_of_evaluate hv
    rw [call_assign_error hp hval]
    exact ends_error
  | assign hv =>
    obtain ⟨rfl, hp⟩ := hb
    subst he
    obtain ⟨lv', hval, rfl, hl⟩ := evaluate_of_evaluate hv
    rw [call_assign hp hval]
    exact ends_done (hl ▸ rfl)
  | printError hv =>
    obtain ⟨rfl, hp⟩ := hb
    subst he
    obtain ⟨lv', hval, rfl, -⟩ := evaluate_of_evaluate hv
    rw [call_print_error hp hval]
    exact ends_error
  | print hv =>
    obtain ⟨rfl, hp⟩ := hb
    subst he
    obtain ⟨lv', hval, rfl, hl⟩ := evaluate_of_evaluate hv
    rw [call_print hp hval]
    exact ends_done (hl ▸ rfl)
  | actionError hv =>
    obtain ⟨rfl, hp⟩ := hb
    subst he
    obtain ⟨lv', hval, rfl, -⟩ := evaluate_of_evaluate hv
    rw [call_action_error hp hval]
    exact ends_error
  | action hv hc hpoll =>
    obtain ⟨rfl, hp⟩ := hb
    subst he
    obtain ⟨lv', hval, rfl, hl⟩ := evaluate_of_evaluate hv
    rw [call_action hp hval hc]
    exact ends_poll hpoll rfl (hl ▸ rfl)
  | leave =>
    obtain ⟨rfl, hp⟩ := hb
    rw [call_leave hp, ← he]
    exact ends_here rfl

/-! ## Runs that end are reference runs -/

theorem reaches_done {f : Mark → Stmt} {n : Nat} (hl : lv.leaving = false)
    (h : Reaches fr n (settle m f (.ok .done) lv) r) (ho : r.ending? = some o) : o = .done ∧ r.live.env = lv.env := by
  obtain ⟨-, rfl⟩ := h.of_end (by simp [settle])
  rw [Stepped.ending?, settle, hl] at ho
  exact ⟨(Option.some.inj ho).symm, rfl⟩

theorem reaches_error {f : Mark → Stmt} {n : Nat} (h : Reaches fr n (settle m f (.error e) lv) r)
    (ho : r.ending? = some o) : o = .error e ∧ r.live.env = lv.env := by
  obtain ⟨-, rfl⟩ := h.of_end (by simp [settle])
  exact ⟨(Option.some.inj ho).symm, rfl⟩

/-- from an end of the wrapping no call is made -/
theorem reaches_stop {n : Nat} {r₁ : Stepped σ ρ} {o₁ : Ending} (hr : r₁.ending? = some o₁)
    (h : Reaches fr n r₁ r) (ho : r.ending? = some o) : o = o₁ ∧ r.live = r₁.live := by
  obtain ⟨-, rfl⟩ := h.of_end (ne_inProgress hr)
  exact ⟨Option.some.inj (ho.symm.trans hr), rfl⟩

theorem runs_poll {n : Nat} (hl : lv.leaving = false) (h : Reaches fr n (aroundPoll fr m kind target lv) r)
    (ho : r.ending? = some o) : ∃ host, Polls fr.unit lv.host o host ∧ r.live.env = { lv.env with host } := by
  induction n using Nat.strongRecOn generalizing lv with
  | ind n ih =>
    rcases hp : Host.poll fr.unit lv.host with ⟨_ | _ | _, host⟩
    · have hpoll : pollAction fr lv = (.inProgress, { lv with host }) := by rw [pollAction, hp]
      have hgo : (pollAction fr lv).1 = .inProgress := by rw [hpoll]
      obtain ⟨n', rfl, hnext⟩ := h.next (by rw [aroundPoll, hgo]; rfl) ho
      rw [next_aroundPoll hgo, hpoll] at hnext
      obtain ⟨host', hpolls, he⟩ := ih n' (Nat.lt_succ_self n') rfl hnext
      exact ⟨host', .again hp hpolls, he⟩
    · have hpoll : pollAction fr lv = (.done, { lv with host, action := none }) := by rw [pollAction, hp]
      have hl' : ({ lv with host, action := none } : Live σ ρ).leaving = false := hl
      rw [aroundPoll, hpoll] at h
      obtain ⟨rfl, he⟩ := reaches_done hl' h ho
      exact ⟨host, .completed hp, he⟩
    · have hpoll : pollAction fr lv = (.failed, { lv with host, action := none }) := by rw [pollAction, hp]
      rw [aroundPoll, hpoll] at h
      obtain ⟨rfl, he⟩ := reaches_stop rfl h ho
      exact ⟨host, .failed hp, by rw [he]; rfl⟩

/-- the induction is on the children that are left -/
theorem runs_sequence {rest : List Stmt} {m₀ : Mark} {i n : Nat}
    (hrest : ∀ c ∈ rest, ∀ (n : Nat) (lv : Live σ ρ) (r : Stepped σ ρ) (o : Ending),
      Reaches fr n (c.call fr lv) r → r.ending? = some o → Runs fr c lv.env o r.live.env)
    (hm : m.state.isTerminal = false) (hdrop : body.drop idx = rest)
    (h : Reaches fr n (call fr (.sequence m body idx) lv) r) (ho : r.ending? = some o) :
    Runs fr (.sequence m₀ rest i) lv.env o r.live.env := by
  induction rest generalizing m body idx n lv with
  | nil =>
    have hc : body[idx]? = none := List.getElem?_eq_none (List.drop_eq_nil_iff.1 hdrop)
    rw [call_sequence_end hm hc] at h
    obtain ⟨rfl, he⟩ := reaches_done rfl h ho
    rw [he]
    exact .sequenceNil
  | cons child rest ih =>
    obtain ⟨hc, hdrop'⟩ := drop_eq_cons hdrop
    obtain ⟨hi, -⟩ := List.getElem?_eq_some_iff.1 hc
    rw [call_sequence hm hc] at h
    obtain ⟨k, l, r₁, -, hk, hend, hl⟩ := h.split (tracks_sequence m hi) (ne_inProgress ho) (settled_step _ _)
    obtain ⟨o₁, ho₁⟩ := hk.ending? hend
    have hchild := hrest child List.mem_cons_self k lv r₁ o₁ hk ho₁
    by_cases hd : o₁ = .done
    · subst o₁
      rw [aroundSequence_of_done ho₁] at hl
      by_cases hlen : body.length ≤ idx + 1
      · rw [if_pos hlen] at hl
        obtain ⟨rfl, he⟩ := reaches_done (result_of_done ho₁).2 hl ho
        rw [List.drop_eq_nil_of_le hlen] at hdrop'
        subst rest
        rw [he]
        exact .sequenceNext hchild .sequenceNil
      · rw [if_neg hlen] at hl
        obtain ⟨l', -, hl⟩ := hl.next rfl ho
        refine .sequenceNext hchild (ih (fun c hc => hrest c (List.mem_cons_of_mem _ hc)) rfl ?_ hl)
        exact (List.drop_set_of_lt (Nat.lt_succ_self idx)).trans hdrop'
    · obtain ⟨hW, hlive⟩ := aroundSequence_of_stop m body idx ho₁ hd
      obtain ⟨rfl, he⟩ := reaches_stop hW hl ho
      rw [he, hlive]
      exact .sequenceStop hchild hd

/-- the induction is on the number of calls, of which every iteration takes some -/
theorem runs_loop (m₀ : Mark) {n : Nat}
    (hbody : ∀ (n : Nat) (lv : Live σ ρ) (r : Stepped σ ρ) (o : Ending),
      Reaches fr n (b.reset.call fr lv) r → r.ending? = some o → Runs fr b.reset lv.env o r.live.env)
    (hm : m.state.isTerminal = false) (hb : b.state ≠ .inProgress)
    (h : Reaches fr n (call fr (.loop m test b) lv) r) (ho : r.ending? = some o) :
    Runs fr (.loop m₀ test b.reset) lv.env o r.live.env := by
  induction n using Nat.strongRecOn generalizing m b lv with
  | ind n ih =>
    obtain ⟨env, ⟨e, ht⟩ | ⟨t, ht⟩⟩ := lv.env.test_cases fr test
    · obtain ⟨lv', henter, rfl, -⟩ := entersLoop_of_test hb ht
      rw [call_loop_error hm henter] at h
      obtain ⟨rfl, he⟩ := reaches_error h ho
      rw [he]
      exact .loopError ht
    obtain ⟨lv', henter, rfl, hl⟩ := entersLoop_of_test hb ht
    cases t with
    | false =>
      rw [call_loop_end hm henter] at h
      obtain ⟨rfl, he⟩ := reaches_done (hl ▸ rfl) h ho
      rw [he]
      exact .loopEnd ht
    | true =>
      rw [call_loop hm henter, resumed_of_ne hb] at h
      obtain ⟨k, l, r₁, rfl, hk, hend, hrest⟩ := h.split (tracks_loop m test) (ne_inProgress ho) (settled_step _ _)
      obtain ⟨o₁, ho₁⟩ := hk.ending? hend
      have hiter : Runs fr b.reset lv'.env o₁ r₁.live.env := hbody k lv' r₁ o₁ (by rwa [call, hl]) ho₁
      by_cases hd : o₁ = .done
      · subst o₁
        rw [aroundLoop_of_done ho₁] at hrest
        obtain ⟨l', rfl, hnext⟩ := hrest.next rfl ho
        have hreset : r₁.stmt.reset = b.reset := by
          rw [hk.program, (steps_step fr b.reset lv').program, reset_reset]
        have hstate : r₁.stmt.state ≠ .inProgress := by
          rw [hk.settled (settled_step _ _), (result_of_done ho₁).1]
          simp [stateAfter]
        refine .loopAgain ht hiter ?_
        rw [← hreset] at hbody ⊢
        exact ih l' (by omega) hbody rfl hstate hnext
      by_cases hleft : o₁ = .left
      · subst o₁
        rw [aroundLoop_of_left ho₁] at hrest
        obtain ⟨rfl, he⟩ := reaches_done rfl hrest ho
        rw [he]
        exact .loopLeft ht hiter
      · obtain ⟨hW, hlive⟩ := aroundLoop_of_stop m test ho₁ hd hleft
        obtain ⟨rfl, he⟩ := reaches_stop hW hrest ho
        rw [he, hlive]
        exact .loopStop ht hiter hd hleft

/-- **Every run that ends is a reference run** -/
theorem runs_of_reaches {s : Stmt} (hp : s.isPristine = true) {n : Nat} (h : Reaches fr n (s.call fr lv) r)
    (ho : r.ending? = some o) : Runs fr s lv.env o r.live.env := by
  induction s using induct generalizing n lv r o with
  | sequence m body i ih =>
    obtain ⟨m', body', idx, heq, hm, hdrop, hall⟩ := begins_of_isPristine hp
    cases heq
    exact runs_sequence (fun c hc n lv r o h ho => ih c hc (hall c hc) h ho) hm hdrop h ho
  | conditional m test thenS elseS chosen ihthen ihelse =>
    obtain ⟨hm, rfl, hthen, helse⟩ := isPristine_conditional hp
    obtain ⟨env, ⟨e, ht⟩ | ⟨t, ht⟩⟩ := lv.env.test_cases fr test
    · obtain ⟨lv', harm, rfl, -⟩ := chooseArm_of_test ht
      rw [call_conditional_error hm harm] at h
      obtain ⟨rfl, he⟩ := reaches_error h ho
      rw [he]
      exact .conditionalError ht
    obtain ⟨lv', harm, rfl, hl⟩ := chooseArm_of_test ht
    cases t with
    | true =>
      rw [call_then hm harm] at h
      obtain ⟨k, l, r₁, -, hk, hend, hrest⟩ := h.split (tracks_then m test elseS) (ne_inProgress ho) (settled_step _ _)
      obtain ⟨o₁, ho₁⟩ := hk.ending? hend
      have harmrun : Runs fr thenS lv'.env o₁ r₁.live.env := ihthen hthen (by rwa [call, hl]) ho₁
      obtain ⟨rfl, he⟩ := reaches_stop (show (aroundThen m test elseS r₁).ending? = some o₁ from ho₁) hrest ho
      rw [he]
      exact .conditionalTrue ht harmrun
    | false =>
      cases elseS with
      | none =>
        rw [call_conditional_none hm harm] at h
        obtain ⟨rfl, he⟩ := reaches_done (hl ▸ rfl) h ho
        rw [he]
        exact .conditionalNone ht
      | some elseS =>
        rw [call_else hm harm] at h
        obtain ⟨k, l, r₁, -, hk, hend, hrest⟩ :=
          h.split (tracks_else m test thenS) (ne_inProgress ho) (settled_step _ _)
        obtain ⟨o₁, ho₁⟩ := hk.ending? hend
        have harmrun : Runs fr elseS lv'.env o₁ r₁.live.env := ihelse elseS rfl (helse _ rfl) (by rwa [call, hl]) ho₁
        obtain ⟨rfl, he⟩ := reaches_stop (show (aroundElse m test thenS r₁).ending? = some o₁ from ho₁) hrest ho
        rw [he]
        exact .conditionalFalse ht harmrun
  | loop m test b ih =>
    obtain ⟨m', b', heq, hm, hb, hreset⟩ := begins_of_isPristine hp
    cases heq
    have hfresh : b.isPristine = true := hreset ▸ b.isPristine_reset
    have hrun := runs_loop m (fun n lv r o h ho => ?_) hm hb h ho
    · rwa [hreset] at hrun
    · rw [hreset] at h ⊢
      exact ih hfresh h ho
  | assign m name value =>
    rcases hv : lv.env.evaluate (value.evalSome (lv.env.context fr)) with ⟨e | v, env⟩ <;>
      obtain ⟨lv', hval, rfl, hl⟩ := evaluate_of_evaluate hv
    · rw [call_assign_error hp hval] at h
      obtain ⟨rfl, he⟩ := reaches_error h ho
      rw [he]
      exact .assignError hv
    · rw [call_assign hp hval] at h
      obtain ⟨rfl, he⟩ := reaches_done (hl ▸ rfl) h ho
      rw [he]
      exact .assign hv
  | print m value =>
    rcases hv : lv.env.evaluate (value.evalSome (lv.env.context fr)) with ⟨e | v, env⟩ <;>
      obtain ⟨lv', hval, rfl, hl⟩ := evaluate_of_evaluate hv
    · rw [call_print_error hp hval] at h
      obtain ⟨rfl, he⟩ := reaches_error h ho
      rw [he]
      exact .printError hv
    · rw [call_print hp hval] at h
      obtain ⟨rfl, he⟩ := reaches_done (hl ▸ rfl) h ho
      rw [he]
      exact .print hv
  | action m kind target =>
    rcases hv : lv.env.evaluate (target.evalRequired (lv.env.context fr) kind.targetKind) with ⟨e | v, env⟩ <;>
      obtain ⟨lv', hval, rfl, hl⟩ := evaluate_of_evaluate hv
    · rw [call_action_error hp hval] at h
      obtain ⟨rfl, he⟩ := reaches_error h ho
      rw [he]
      exact .actionError hv
    · have hk : v.kind = kind.targetKind :=
        Expr.kind_of_evalRequired (lv.env.context fr) target lv.picker (congrArg Prod.fst hv)
      obtain ⟨c, hc⟩ := ActionKind.command?_of_kind hk
      rw [call_action hp hval hc] at h
      obtain ⟨host, hpolls, he⟩ := runs_poll (hl ▸ rfl) h ho
      have hrun : Runs fr (.action m kind target) lv.env o { lv'.env with host } := .action hv hc hpolls
      rw [he]
      exact hrun
  | leave m =>
    rw [call_leave hp] at h
    obtain ⟨rfl, he⟩ := reaches_stop rfl h ho
    rw [he]
    exact .leave

/-! ## Both directions -/

omit [Host σ] [Picker ρ] in
theorem result_of_ending? (h : r.ending? = some o) : r.result = o.result := by
  unfold Stepped.ending? at h
  split at h <;> cases h
  · rename_i hr
    rw [hr]
    split <;> rfl
  · assumption
  · assumption

/-- calls leave a `leave` on its way only if the tree has one outside all its loops -/
theorem strayLeaves_of_left {s : Stmt} {n : Nat} (h : Reaches fr n (s.call fr lv) r) (ho : r.ending? = some .left) :
    s.strayLeaves ≠ [] := by
  induction n generalizing s lv with
  | zero =>
    obtain rfl : s.call fr lv = r := h
    exact ((steps_step fr s lv.calm).leaving rfl (result_of_left ho).2).2
  | succ n ih =>
    have hprog : (s.call fr lv).stmt.reset = s.reset := (steps_step fr s lv.calm).program
    rw [← strayLeaves_reset, ← hprog, strayLeaves_reset]
    exact ih h.2

/-- **The stepper refines the reference semantics.** Let a tree be fresh and let every `leave` of it stand in a loop.
Called again and again, for as long as it answers that it is under way, the tree comes to a last answer exactly when the
reference run comes to an end, with the same result, variables, output, host and picker; and the reference run has one
end at most. -/
theorem ends_iff_runs (s : Stmt) (hp : s.isPristine = true) (hs : s.strayLeaves = []) (fr : Frame) (lv : Live σ ρ) :
    (∀ (result : Except EvalError ExecState) (env : Env σ ρ),
      (∃ n r, Reaches fr n (s.call fr lv) r ∧ r.result = result ∧ result ≠ .ok .inProgress ∧ r.live.env = env) ↔
        ∃ o, Runs fr s lv.env o env ∧ o ≠ .left ∧ o.result = result) ∧
      ∀ o o' env env', Runs fr s lv.env o env → Runs fr s lv.env o' env' → o = o' ∧ env = env' := by
  have hfollow : ∀ o env, Runs fr s lv.env o env → Ends fr (s.call fr lv) o env := fun o env hrun =>
    ends_of_runs hrun (begins_of_isPristine hp) rfl
  refine ⟨fun result env => ⟨?_, ?_⟩, fun o o' env env' h h' => (hfollow o env h).unique (hfollow o' env' h')⟩
  · rintro ⟨n, r, hn, rfl, hend, rfl⟩
    obtain ⟨o, ho⟩ := hn.ending? hend
    refine ⟨o, runs_of_reaches hp hn ho, ?_, (result_of_ending? ho).symm⟩
    rintro rfl
    exact strayLeaves_of_left hn ho hs
  · rintro ⟨o, hrun, -, rfl⟩
    obtain ⟨n, r, hn, ho, he⟩ := hfollow o env hrun
    refine ⟨n, r, hn, result_of_ending? ho, ?_, he⟩
    rw [← result_of_ending? ho]
    exact ne_inProgress ho

/-- goes to a place, leaves the loop around that once there, and tells where it is -/
def commute : Stmt :=
  .sequence {} [.assign {} "goal" (.cube {} ⟨1, 2, 0⟩),
    .loop {} (.boolean {} true) (.sequence {} [.action {} .moveTo (.var {} "goal"),
      .conditional {} (.cubeTest {} .isPassable (.var {} "goal")) (.leave {}) none none,
      .print {} (.boolean {} false)] 0),
    .print {} (.var {} "goal")] 0

/-- the unit arrives when it is asked for the second time -/
def setOut : Live Rehearsal Replay where
  store := .empty
  host := { world := { size := ⟨4, 4, 1⟩ : Setting }.world, prompts := [.inProgress, .completed], final := .failed }
  picker := ⟨[]⟩

/-- five calls, and the reference run: one command, no prompt left, and only what stands after the loop is printed -/
theorem commute_runs :
    let fr : Frame := { task := "commute", unit := ⟨7⟩, selection := {} }
    commute.isPristine = true ∧ commute.strayLeaves = [] ∧
      ∃ o env, Runs fr commute setOut.env o env ∧ o.result = .ok .done ∧
        env.host.calls = [.command ⟨7⟩ (.moveTo ⟨1, 2, 0⟩ false)] ∧ env.host.prompts = [] ∧
        env.output = [⟨"commute", .position ⟨1, 2, 0⟩⟩] := by
  intro fr
  have hp : commute.isPristine = true := by decide
  have hs : commute.strayLeaves = [] := by decide
  have hrun := ((ends_iff_runs commute hp hs fr setOut).1 (.ok .done) _).1
    ⟨4, _, ⟨by decide +kernel, by decide +kernel, by decide +kernel, by decide +kernel, rfl⟩, by decide +kernel,
      by decide, rfl⟩
  obtain ⟨o, hrun, -, hresult⟩ := hrun
  exact ⟨hp, hs, o, _, hrun, hresult, by decide +kernel, by decide +kernel, by decide +kernel⟩

end Stmt

end Errand
