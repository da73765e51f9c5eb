/-
Effects: the one thing that a step does.

A `Deed` is what a statement can do to its surroundings in one step: give a variable its value, print a value, give the
unit a command and ask how it is going, ask without a command, or nothing. `Stmt.Can` says which statements can do what.
`Did` tells a step by its deed: the place of the statement that was due, in the tree that the step leaves, and the
variables, the output and the host as the deed leaves them. If the step ends in an error, the deed is nothing, the
evaluation of that very statement ended in the error (`Raises`), and it is failed with all nodes above it.

Every step is told by some deed (`Steps.did`): a node around the due statement evaluates its own test at most, and
passes on what its child did (`Did.around`). Hence `step_does_one_thing`, for the calls of a logged host.
-/
import Errand.Proofs.Host.Logged
import Errand.Proofs.Script.BigStep
import Errand.Proofs.Script.Shape

namespace Errand

/-! ## Deeds -/

def HostCall.isCommand : HostCall → Bool
  | .command .. => true
  | .abort _ | .poll _ => false

/-- what a statement can do to its surroundings in one step -/
inductive Deed where
  | nothing
  | assigns (name : String) (value : Value)
  | prints (value : Value)
  /-- the unit is given its command and asked at once how it is going -/
  | starts (c : Command)
  /-- the unit is asked how it is going -/
  | asks

namespace Deed

def bound : Deed → List (String × Value)
  | .assigns n v => [(n, v)]
  | .nothing | .prints _ | .starts _ | .asks => []

def printed : Deed → List Value
  | .prints v => [v]
  | .nothing | .assigns .. | .starts _ | .asks => []

def calls (u : UnitId) : Deed → List HostCall
  | .starts c => [.command u c, .poll u]
  | .asks => [.poll u]
  | .nothing | .assigns .. | .prints _ => []

/-- of setting a variable, printing and giving a command it does one at most -/
theorem effects_le (d : Deed) (u : UnitId) :
    d.bound.length + d.printed.length + (d.calls u).countP HostCall.isCommand ≤ 1 := by
  cases d <;> simp [bound, printed, calls, HostCall.isCommand, List.countP_cons]

/-- it asks once at most -/
theorem polls_le (d : Deed) (u : UnitId) : (d.calls u).count (.poll u) ≤ 1 := by
  cases d <;> simp [calls]

/-- it cancels nothing, and calls for no other unit -/
theorem mem_calls {d : Deed} {u : UnitId} {call : HostCall} (h : call ∈ d.calls u) :
    call = .poll u ∨ ∃ c, call = .command u c := by
  cases d with
  | starts c =>
    rcases List.mem_cons.1 h with rfl | h
    · exact .inr ⟨c, rfl⟩
    · exact .inl (List.mem_singleton.1 h)
  | asks => exact .inl (List.mem_singleton.1 h)
  | nothing | assigns | prints => cases h

end Deed

namespace Stmt

/-- the statements that do the deed -/
inductive Can : Stmt → Deed → Prop
  | nothing {n : Stmt} : Can n .nothing
  | assigns {m : Mark} {name : String} {e : Expr} {v : Value} : Can (.assign m name e) (.assigns name v)
  | prints {m : Mark} {e : Expr} {v : Value} : Can (.print m e) (.prints v)
  | starts {m : Mark} {kind : ActionKind} {target : Expr} {c : Command} : Can (.action m kind target) (.starts c)
  | asks {m : Mark} {kind : ActionKind} {target : Expr} : Can (.action m kind target) .asks

/-- only an action calls on the host -/
theorem Can.action {n : Stmt} {d : Deed} {u : UnitId} (h : n.Can d) (hc : d.calls u ≠ []) :
    ∃ m kind target, n = .action m kind target := by
  cases h with
  | starts | asks => exact ⟨_, _, _, rfl⟩
  | nothing | assigns | prints => exact absurd rfl hc

variable {σ ρ : Type} [Host σ] [Picker ρ]

/-- the evaluation that the statement itself asks for -/
def demand? (cx : Context) : Stmt → Option (Eval ρ Value)
  | .conditional _ test _ _ _ | .loop _ test _ => some (test.evalRequired cx .boolean)
  | .assign _ _ value | .print _ value => some (value.evalSome cx)
  | .action _ kind target => some (target.evalRequired cx kind.targetKind)
  | .sequence .. | .leave _ => none

/-- what the statement itself evaluates ends in this error -/
def Raises (ρ : Type) [Picker ρ] (cx : Context) (e : EvalError) (n : Stmt) : Prop :=
  ∃ demand, n.demand? (ρ := ρ) cx = some demand ∧ ∃ p, (demand.run p).1 = .error e

variable {fr : Frame} {s n : Stmt} {lv lv' : Live σ ρ} {rs : List Reading} {r r' : Stepped σ ρ} {path : List Nat}
  {d : Deed}

/-- a step told by its deed, with the statement that did it and its place -/
structure Did (fr : Frame) (lv : Live σ ρ) (r : Stepped σ ρ) (path : List Nat) (n : Stmt) (d : Deed) : Prop where
  place : r.stmt.at? path = some n
  can : n.Can d
  store : r.live.store = d.bound.foldl (fun store b => store.set b.1 b.2) lv.store
  output : r.live.output = lv.output ++ d.printed.map fun value => { task := fr.task, value }
  host : r.live.host = (d.calls fr.unit).foldl (fun host call => call.on host) lv.host
  error : ∀ e, r.result = .error e → d = .nothing ∧ n.Raises ρ (lv.context fr) e ∧
    ∀ above, above <+: path → ∃ a, r.stmt.at? above = some a ∧ a.state = .failed

/-! ## Where the deed is done -/

/-- a node around the due statement does nothing by itself, and fails with its child -/
theorem Did.around {i : Nat} (h : Did fr lv' r path n d) (hl : ∃ p, lv' = { lv with picker := p })
    (hc : r'.stmt.children[i]? = some r.stmt) (hstore : r'.live.store = r.live.store)
    (hout : r'.live.output = r.live.output) (hhost : r'.live.host = r.live.host)
    (he : ∀ e, r'.result = .error e → r.result = .error e ∧ r'.stmt.state = .failed) :
    Did fr lv r' (i :: path) n d := by
  obtain ⟨p, rfl⟩ := hl
  refine ⟨at?_cons.2 ⟨_, hc, h.place⟩, h.can, hstore.trans h.store, hout.trans h.output, hhost.trans h.host, ?_⟩
  intro e hr
  obtain ⟨hchild, hstate⟩ := he e hr
  obtain ⟨hd, hraises, habove⟩ := h.error e hchild
  refine ⟨hd, hraises, fun above hp => ?_⟩
  rcases List.prefix_cons_iff.1 hp with rfl | ⟨rest, rfl, hrest⟩
  · exact ⟨r'.stmt, rfl, hstate⟩
  · obtain ⟨a, ha, hx⟩ := habove rest hrest
    exact ⟨a, at?_cons.2 ⟨_, hc, ha⟩, hx⟩

/-- the root answers, and the surroundings stay as they were but for the picker -/
theorem Did.quiet (hl : ∃ p, r.live = { lv with picker := p })
    (he : ∀ e, r.result = .error e → r.stmt.Raises ρ (lv.context fr) e ∧ r.stmt.state = .failed) :
    Did fr lv r [] r.stmt .nothing := by
  obtain ⟨p, hl⟩ := hl
  refine ⟨rfl, .nothing, by rw [hl]; rfl, ?_, by rw [hl]; rfl, fun e hr => ?_⟩
  · rw [hl]
    exact (List.append_nil _).symm
  · obtain ⟨hraises, hstate⟩ := he e hr
    refine ⟨rfl, hraises, fun above hp => ?_⟩
    obtain rfl := List.prefix_nil.1 hp
    exact ⟨r.stmt, rfl, hstate⟩

/-! ## Evaluations that fail -/

/-- only an error is mapped to an error -/
theorem error_of_map {α β : Type} {x : Except EvalError α} {f : α → β} {e : EvalError} (h : x.map f = .error e) :
    x = .error e := by
  cases x with
  | error x => exact congrArg Except.error (Except.error.inj h)
  | ok v => cases h

theorem decideTest_error {test : Expr} {e : EvalError} (h : lv.decideTest fr test = (.error e, lv')) :
    ∃ p, ((test.evalRequired (lv.context fr) .boolean : Eval ρ Value).run p).1 = .error e :=
  ⟨lv.picker, error_of_map (congrArg Prod.fst h)⟩

theorem chooseArm_raises {test : Expr} {chosen : Option Branch} {e : EvalError}
    (h : chooseArm fr test chosen lv = (.error e, lv')) (m : Mark) (thenS : Stmt) (elseS : Option Stmt) :
    (conditional m test thenS elseS chosen).Raises ρ (lv.context fr) e := by
  obtain rfl := chooseArm_error h
  have hd : (lv.decideTest fr test).1 = .error e := error_of_map (congrArg Prod.fst h)
  exact ⟨_, rfl, decideTest_error (Prod.ext hd rfl)⟩

theorem entersLoop_raises {test : Expr} {body : Stmt} {e : EvalError}
    (h : entersLoop fr test body lv = (.error e, lv')) (m : Mark) :
    (loop m test body).Raises ρ (lv.context fr) e := by
  rw [entersLoop, if_neg (entersLoop_rests h (by simp))] at h
  exact ⟨_, rfl, decideTest_error h⟩

/-- an action is refused its start by its target only: every target of the right kind has a command -/
theorem startAction_raises {state : ExecState} {kind : ActionKind} {target : Expr} {e : EvalError}
    (h : startAction fr state kind target lv = (.error e, lv')) (m : Mark) :
    (action m kind target).Raises ρ (lv.context fr) e := by
  refine ⟨_, rfl, lv.picker, ?_⟩
  unfold startAction at h
  split at h
  · cases h
  · split at h
    · rename_i hv
      cases h
      exact congrArg Prod.fst hv
    · rename_i v lv₁ hv
      obtain ⟨c, hc⟩ := ActionKind.command?_of_kind
        (Expr.kind_of_evalRequired (lv.context fr) target lv.picker (congrArg Prod.fst hv))
      rw [hc] at h
      cases h

/-! ## One deed a step -/

theorem carry_error {x : Except EvalError ExecState} {e : EvalError} (h : carry x = .error e) : x = .error e := by
  unfold carry at h
  split at h
  · cases h
  · cases h
  · exact h

theorem did_pollAction (fr : Frame) (m : Mark) (kind : ActionKind) (target : Expr) {lv lv' : Live σ ρ}
    (ha : startAction fr m.state kind target lv = (.ok (), lv')) :
    let r := settle m (.action · kind target) (.ok (pollAction fr lv').1) (pollAction fr lv').2
    ∃ d, Did fr lv r [] r.stmt d := by
  intro r
  have hlive : r.live = (pollAction fr lv').2 := rfl
  rw [pollAction_live] at hlive
  obtain ⟨-, rfl⟩ | ⟨-, p, c, rfl⟩ := startAction_ok ha
  · refine ⟨.asks, rfl, .asks, ?_, ?_, ?_, fun e h => nomatch h⟩
    · rw [hlive]; rfl
    · rw [hlive]; exact (List.append_nil _).symm
    · rw [hlive]; rfl
  · refine ⟨.starts c, rfl, .starts, ?_, ?_, ?_, fun e h => nomatch h⟩
    · rw [hlive]; rfl
    · rw [hlive]; exact (List.append_nil _).symm
    · rw [hlive]; rfl

/-- every step is told by a deed -/
theorem Steps.did (h : Steps fr s lv rs r) : ∃ path n d, Did fr lv r path n d := by
  -- in every rule the root either answers by itself, or stands around the child that was stepped
  induction h with
  | idle | sequenceEnd => exact ⟨[], _, _, .quiet ⟨_, rfl⟩ fun e he => nomatch he⟩
  | leave => exact ⟨[], _, .nothing, rfl, .nothing, rfl, (List.append_nil _).symm, rfl, fun e he => nomatch he⟩
  | @sequenceNext m body idx child lv rs r hm hc h hr ih =>
    obtain ⟨path, n, d, hd⟩ := ih
    have hset : (body.set idx r.stmt)[idx]? = some r.stmt := List.getElem?_set_self (List.getElem?_eq_some_iff.1 hc).1
    exact ⟨_, n, d, hd.around ⟨_, rfl⟩ hset rfl rfl rfl fun e he => nomatch he⟩
  | @sequenceStay m body idx child lv rs r hm hc h hr ih =>
    obtain ⟨path, n, d, hd⟩ := ih
    have hset : (body.set idx r.stmt)[idx]? = some r.stmt := List.getElem?_set_self (List.getElem?_eq_some_iff.1 hc).1
    exact ⟨_, n, d, hd.around ⟨_, rfl⟩ hset rfl rfl rfl fun e he => ⟨carry_error he, congrArg stateAfter he⟩⟩
  | conditionalError hm ht =>
    refine ⟨[], _, _, .quiet (chooseArm_live ht) fun e he => ?_⟩
    cases he
    exact ⟨chooseArm_raises ht _ _ _, rfl⟩
  | conditionalTrue hm ht h ih =>
    obtain ⟨path, n, d, hd⟩ := ih
    exact ⟨0 :: path, n, d, hd.around (chooseArm_live ht) rfl rfl rfl rfl fun e he => ⟨he, congrArg stateAfter he⟩⟩
  | conditionalFalse hm ht h ih =>
    obtain ⟨path, n, d, hd⟩ := ih
    exact ⟨1 :: path, n, d, hd.around (chooseArm_live ht) rfl rfl rfl rfl fun e he => ⟨he, congrArg stateAfter he⟩⟩
  | conditionalNone hm ht => exact ⟨[], _, _, .quiet (chooseArm_live ht) fun e he => nomatch he⟩
  | loopError hm ht =>
    refine ⟨[], _, _, .quiet (entersLoop_live ht) fun e he => ?_⟩
    cases he
    exact ⟨entersLoop_raises ht _, rfl⟩
  | loopEnd hm ht => exact ⟨[], _, _, .quiet (entersLoop_live ht) fun e he => nomatch he⟩
  | loopLeft hm ht h hr hl ih | loopAgain hm ht h hr hl ih =>
    obtain ⟨path, n, d, hd⟩ := ih
    exact ⟨0 :: path, n, d, hd.around (entersLoop_live ht) rfl rfl rfl rfl fun e he => nomatch he⟩
  | loopStay hm ht h hr ih =>
    obtain ⟨path, n, d, hd⟩ := ih
    exact ⟨0 :: path, n, d, hd.around (entersLoop_live ht) rfl rfl rfl rfl
      fun e he => ⟨carry_error he, congrArg stateAfter he⟩⟩
  | assignError hm hv | printError hm hv =>
    refine ⟨[], _, _, .quiet (Live.evaluate_live hv) fun e he => ?_⟩
    cases he
    exact ⟨⟨_, rfl, _, congrArg Prod.fst hv⟩, rfl⟩
  | assign hm hv =>
    obtain ⟨p, rfl⟩ := Live.evaluate_live hv
    exact ⟨[], _, .assigns _ _, rfl, .assigns, rfl, (List.append_nil _).symm, rfl, fun e he => nomatch he⟩
  | print hm hv =>
    obtain ⟨p, rfl⟩ := Live.evaluate_live hv
    exact ⟨[], _, .prints _, rfl, .prints, rfl, rfl, rfl, fun e he => nomatch he⟩
  | actionError hm ha =>
    refine ⟨[], _, _, .quiet (startAction_error ha) fun e he => ?_⟩
    cases he
    exact ⟨startAction_raises ha _, rfl⟩
  | action hm ha =>
    obtain ⟨d, hd⟩ := did_pollAction fr _ _ _ ha
    exact ⟨[], _, d, hd⟩

/-! ## Places before and after the step -/

theorem children_reset (s : Stmt) : s.reset.children = s.children.map reset := by
  cases s with
  | sequence => exact resetAll_eq _
  | conditional m t a e c => cases e <;> rfl
  | _ => rfl

theorem at?_reset (s : Stmt) (path : List Nat) : s.reset.at? path = (s.at? path).map reset := by
  induction path generalizing s with
  | nil => rfl
  | cons i path ih =>
    rw [at?, at?, children_reset, List.getElem?_map]
    cases s.children[i]? with
    | none => rfl
    | some c => exact ih c

/-- a step moves no statement -/
theorem Steps.at_before (h : Steps fr s lv rs r) (hn : r.stmt.at? path = some n) :
    ∃ n₀, s.at? path = some n₀ ∧ n₀.reset = n.reset := by
  -- the program of the tree stays, so the place is there before the step too
  have hprogram : (s.at? path).map reset = some n.reset := by
    rw [← at?_reset, ← h.program, at?_reset, hn, Option.map_some]
  exact Option.map_eq_some_iff.1 hprogram

/-! ## The bound on a step -/

/-- **One step does one thing at most, and every error comes before it.** Some statement of the tree is the one that
is due. It sets a variable, prints a value or gives a command, one of these at most and once; the status is asked for
once at most, by an action that is due, and no action is cancelled. If the step ends in an error, then the evaluation
of the due statement did, nothing was set, printed or asked of the host, and all nodes from the root to that statement
are failed. -/
theorem step_does_one_thing (fr : Frame) (s : Stmt) (lv : Live (Logged σ) ρ) :
    let r := s.step fr lv
    ∃ path n₀ n d,
      s.at? path = some n₀ ∧ r.stmt.at? path = some n ∧ n₀.reset = n.reset ∧ n.Can d ∧
      r.live.store = d.bound.foldl (fun store b => store.set b.1 b.2) lv.store ∧
      r.live.output = lv.output ++ d.printed.map (fun value => { task := fr.task, value }) ∧
      r.live.host.calls = lv.host.calls ++ d.calls fr.unit ∧
      d.bound.length + d.printed.length + (d.calls fr.unit).countP HostCall.isCommand ≤ 1 ∧
      (d.calls fr.unit).count (.poll fr.unit) ≤ 1 ∧
      (∀ call ∈ d.calls fr.unit, call = .poll fr.unit ∨ ∃ c, call = .command fr.unit c) ∧
      (d.calls fr.unit ≠ [] → ∃ m kind target, n = .action m kind target) ∧
      ∀ e, r.result = .error e →
        r.live.store = lv.store ∧ r.live.output = lv.output ∧ r.live.host = lv.host ∧
        n.Raises ρ (lv.context fr) e ∧
        ∀ above, above <+: path → ∃ a, r.stmt.at? above = some a ∧ a.state = .failed := by
  intro r
  have hsteps := steps_step fr s lv
  obtain ⟨path, n, d, hd⟩ := hsteps.did
  obtain ⟨n₀, hn₀, hsame⟩ := hsteps.at_before hd.place
  refine ⟨path, n₀, n, d, hn₀, hd.place, hsame, hd.can, hd.store, hd.output, ?_, d.effects_le fr.unit,
    d.polls_le fr.unit, fun call hc => Deed.mem_calls hc, hd.can.action, fun e he => ?_⟩
  · rw [hd.host, Logged.calls_foldl_on]
  · obtain ⟨rfl, hraises, habove⟩ := hd.error e he
    exact ⟨hd.store, hd.output.trans (List.append_nil _), hd.host, hraises, habove⟩

end Stmt

end Errand
