/-
Look-ups that find nothing: an expression with one has no value, and a step that evaluates it is refused.

Every operand of an expression with a value has one (`grounded_of_value`), so by induction every look-up below it has,
and what it looks up is there (`ready_of_value`). No operand makes up for another that has no value.

A step goes on from an evaluation only with its value. So if something that a step evaluates has none, the step ends
there (`Steps.refused`): the statement that asked for it is failed with all nodes above it, the step answers an error,
and but for the picker, which may have been asked before, the surroundings are as they were.
-/
import Errand.Proofs.Script.Kinds
import Errand.Proofs.Script.Shape
import Errand.Proofs.Script.Soundness

namespace Errand

namespace Expr

variable {ρ : Type} [Picker ρ] {cx : Context} {e : Expr}

/-- a node with a value finds what it looks up itself -/
theorem available_of_value {v : Value} (h : e.HasValue ρ cx v) : e.Available cx.store cx.selection := by
  obtain ⟨p, p', h⟩ := h
  have h := congrArg Prod.fst h
  cases e with
  | var s n =>
    have hget : cx.store.get? n = some v := Except.ok.inj h
    rw [Available, Store.isBound_eq_isSome, hget]
    rfl
  | unit s source =>
    cases source with
    | selected =>
      obtain ⟨u, hu, -⟩ := Option.map_eq_some_iff.1 (Except.ok.inj h)
      exact Option.isSome_of_eq_some hu
    | _ => trivial
  | place s source =>
    cases source with
    | selected =>
      obtain ⟨c, hc, -⟩ := Option.map_eq_some_iff.1 (Except.ok.inj h)
      exact Option.isSome_of_eq_some hc
    | _ => trivial
  | _ => trivial

/-- **A value takes every look-up**: where an expression has a value, everything below it finds what it looks up -/
theorem ready_of_value {v : Value} (h : e.HasValue ρ cx v) : e.Ready cx.store cx.selection := by
  induction e using children_induct generalizing v with
  | h e ih =>
    intro x hx
    rw [nodes_eq, ← e.map_snd_operands] at hx
    rcases List.mem_cons.1 hx with rfl | hx
    · exact available_of_value h
    · obtain ⟨c, hc, hx⟩ := List.mem_flatMap.1 hx
      obtain ⟨o, ho, rfl⟩ := List.mem_map.1 hc
      obtain ⟨p, p', h⟩ := h
      obtain ⟨w, hw, -⟩ := (grounded_of_value h).operands o ho
      exact ih o.2 (mem_children_of_operand ho) hw x hx

end Expr

/-- what was evaluated was run from the picker at hand -/
theorem Live.run_of_evaluate {σ ρ α : Type} {lv lv' : Live σ ρ} {a : Eval ρ α} {x : Except EvalError α}
    (h : lv.evaluate a = (x, lv')) : ∃ p', a.run lv.picker = (x, p') := by
  cases h
  exact ⟨_, rfl⟩

namespace Stmt

section

variable {σ ρ : Type} [Host σ] [Picker ρ] {fr : Frame} {lv lv' : Live σ ρ} {e test target : Expr}

/-! ## Going on takes a value -/

theorem value_of_decideTest {b : Bool} (h : lv.decideTest fr test = (.ok b, lv')) :
    ∃ v, test.HasValue ρ (lv.context fr) v := by
  rcases he : lv.evaluate (test.evalRequired (lv.context fr) .boolean) with ⟨err | v, lv₁⟩
  · rw [Live.decideTest, he] at h
    cases h
  · obtain ⟨p, hv⟩ := Live.run_of_evaluate he
    exact ⟨v, (Expr.value_of_evalRequired hv).1⟩

theorem value_of_chooseArm {b : Branch} (h : chooseArm fr test none lv = (.ok b, lv')) :
    ∃ v, test.HasValue ρ (lv.context fr) v := by
  rcases hd : lv.decideTest fr test with ⟨err | b, lv₁⟩
  · rw [chooseArm, hd] at h
    cases h
  · exact value_of_decideTest hd

theorem value_of_entersLoop {body : Stmt} {b : Bool} (hb : body.state ≠ .inProgress)
    (h : entersLoop fr test body lv = (.ok b, lv')) : ∃ v, test.HasValue ρ (lv.context fr) v := by
  rw [entersLoop, if_neg hb] at h
  exact value_of_decideTest h

theorem value_of_startAction {kind : ActionKind} (h : startAction fr .notStarted kind target lv = (.ok (), lv')) :
    ∃ v, target.HasValue ρ (lv.context fr) v := by
  rcases he : lv.evaluate (target.evalRequired (lv.context fr) kind.targetKind) with ⟨err | v, lv₁⟩
  · rw [startAction, if_neg (by simp), he] at h
    cases h
  · obtain ⟨p, hv⟩ := Live.run_of_evaluate he
    exact ⟨v, (Expr.value_of_evalRequired hv).1⟩

theorem value_of_evaluate {v : Value} (h : lv.evaluate (e.evalSome (lv.context fr)) = (.ok v, lv')) :
    ∃ v, e.HasValue ρ (lv.context fr) v := by
  obtain ⟨p, hv⟩ := Live.run_of_evaluate h
  exact ⟨v, Expr.value_of_evalSome hv⟩

end

/-! ## Steps that are refused -/

variable {σ ρ : Type} {e : Expr} {lv lv' : Live σ ρ} {r r' : Stepped σ ρ}

/-- the step ends in an error at a statement that holds the expression, with nothing done on the way -/
structure Refused (lv : Live σ ρ) (e : Expr) (r : Stepped σ ρ) (path : List Nat) : Prop where
  error : ∃ err, r.result = .error err
  live : ∃ p, r.live = { lv with picker := p }
  holder : ∃ n, r.stmt.at? path = some n ∧ e ∈ n.expressions
  failed : ∀ above, above <+: path → ∃ a, r.stmt.at? above = some a ∧ a.state = .failed

/-- the root itself asked for the expression -/
theorem Refused.root {err : EvalError} (hr : r.result = .error err) (hl : ∃ p, r.live = { lv with picker := p })
    (he : e ∈ r.stmt.expressions) (hs : r.stmt.state = stateAfter r.result) : Refused lv e r [] := by
  refine ⟨⟨err, hr⟩, hl, ⟨r.stmt, rfl, he⟩, fun above hp => ?_⟩
  obtain rfl := List.prefix_nil.1 hp
  exact ⟨r.stmt, rfl, by rw [hs, hr, stateAfter]⟩

theorem Refused.around {i : Nat} {path : List Nat} (h : Refused lv' e r path) (hl : ∃ p, lv' = { lv with picker := p })
    (hc : r'.stmt.children[i]? = some r.stmt) (hlive : r'.live = r.live)
    (hr : ∀ err, r.result = .error err → r'.result = .error err) (hs : r'.stmt.state = stateAfter r'.result) :
    Refused lv e r' (i :: path) := by
  obtain ⟨p, rfl⟩ := hl
  obtain ⟨err, herr⟩ := h.error
  refine ⟨⟨err, hr err herr⟩, hlive ▸ h.live, ?_, fun above hp => ?_⟩
  · obtain ⟨n, hn, he⟩ := h.holder
    exact ⟨n, at?_cons.2 ⟨_, hc, hn⟩, he⟩
  · rcases List.prefix_cons_iff.1 hp with rfl | ⟨rest, rfl, hrest⟩
    · exact ⟨r'.stmt, rfl, by rw [hs, hr err herr, stateAfter]⟩
    · obtain ⟨a, ha, hfailed⟩ := h.failed rest hrest
      exact ⟨a, at?_cons.2 ⟨_, hc, ha⟩, hfailed⟩

variable [Host σ] [Picker ρ] {fr : Frame} {s : Stmt} {rs : List Reading}

/-- **A step is refused by what has no value**, wherever in the tree it is evaluated -/
theorem Steps.refused {x : Reading} (h : Steps fr s lv rs r) (hx : x ∈ rs)
    (hv : ∀ v, ¬ x.expr.HasValue ρ x.context v) : ∃ path, Refused lv x.expr r path := by
  -- a rule that goes on from its own evaluation had a value there, so the reading is one of its child
  induction h with
  | idle | sequenceEnd | leave => cases hx
  | sequenceNext hm hc h hr ih =>
    obtain ⟨path, hchild⟩ := ih hx
    obtain ⟨err, herr⟩ := hchild.error
    cases hr.symm.trans herr
  | @sequenceStay m body idx child lv rs r hm hc h hr ih =>
    obtain ⟨path, hchild⟩ := ih hx
    have hset : (body.set idx r.stmt)[idx]? = some r.stmt := List.getElem?_set_self (List.getElem?_eq_some_iff.1 hc).1
    exact ⟨_, hchild.around ⟨_, rfl⟩ hset rfl (fun err herr => congrArg carry herr) rfl⟩
  | conditionalError hm ht =>
    obtain ⟨-, rfl⟩ := mem_armReads.1 hx
    exact ⟨[], .root rfl (chooseArm_live ht) (List.mem_singleton_self _) rfl⟩
  | conditionalTrue hm ht h ih =>
    rcases List.mem_append.1 hx with hx | hx
    · obtain ⟨rfl, rfl⟩ := mem_armReads.1 hx
      obtain ⟨v, htest⟩ := value_of_chooseArm ht
      exact absurd htest (hv v)
    · obtain ⟨path, hchild⟩ := ih hx
      exact ⟨0 :: path, hchild.around (chooseArm_live ht) rfl rfl (fun err herr => herr) rfl⟩
  | conditionalFalse hm ht h ih =>
    rcases List.mem_append.1 hx with hx | hx
    · obtain ⟨rfl, rfl⟩ := mem_armReads.1 hx
      obtain ⟨v, htest⟩ := value_of_chooseArm ht
      exact absurd htest (hv v)
    · obtain ⟨path, hchild⟩ := ih hx
      exact ⟨1 :: path, hchild.around (chooseArm_live ht) rfl rfl (fun err herr => herr) rfl⟩
  | conditionalNone hm ht =>
    obtain ⟨rfl, rfl⟩ := mem_armReads.1 hx
    obtain ⟨v, htest⟩ := value_of_chooseArm ht
    exact absurd htest (hv v)
  | loopError hm ht =>
    obtain ⟨-, rfl⟩ := mem_loopReads.1 hx
    exact ⟨[], .root rfl (entersLoop_live ht) (List.mem_singleton_self _) rfl⟩
  | loopEnd hm ht =>
    obtain ⟨hb, rfl⟩ := mem_loopReads.1 hx
    obtain ⟨v, htest⟩ := value_of_entersLoop hb ht
    exact absurd htest (hv v)
  | loopLeft hm ht h hr hl ih | loopAgain hm ht h hr hl ih =>
    rcases List.mem_append.1 hx with hx | hx
    · obtain ⟨hb, rfl⟩ := mem_loopReads.1 hx
      obtain ⟨v, htest⟩ := value_of_entersLoop hb ht
      exact absurd htest (hv v)
    · obtain ⟨path, hchild⟩ := ih hx
      obtain ⟨err, herr⟩ := hchild.error
      cases hr.symm.trans herr
  | loopStay hm ht h hr ih =>
    rcases List.mem_append.1 hx with hx | hx
    · obtain ⟨hb, rfl⟩ := mem_loopReads.1 hx
      obtain ⟨v, htest⟩ := value_of_entersLoop hb ht
      exact absurd htest (hv v)
    · obtain ⟨path, hchild⟩ := ih hx
      exact ⟨0 :: path, hchild.around (entersLoop_live ht) rfl rfl (fun err herr => congrArg carry herr) rfl⟩
  | assignError hm he | printError hm he =>
    obtain rfl := List.mem_singleton.1 hx
    exact ⟨[], .root rfl (Live.evaluate_live he) (List.mem_singleton_self _) rfl⟩
  | assign hm he | print hm he =>
    obtain rfl := List.mem_singleton.1 hx
    obtain ⟨v, hvalue⟩ := value_of_evaluate he
    exact absurd hvalue (hv v)
  | actionError hm ha =>
    obtain ⟨-, rfl⟩ := mem_startReads.1 hx
    exact ⟨[], .root rfl (startAction_error ha) (List.mem_singleton_self _) rfl⟩
  | action hm ha =>
    obtain ⟨hs, rfl⟩ := mem_startReads.1 hx
    obtain ⟨v, htarget⟩ := value_of_startAction (hs ▸ ha)
    exact absurd htarget (hv v)

/-- **Nothing makes up for a look-up that finds nothing.** Take an expression with a variable that is not bound, or a
selection that is not made, at any depth: its evaluation ends without a value or in an error, never in a value. And take
a step, of any tree, that evaluates such an expression: it answers an error, the statement whose expression that is has
failed with all nodes above it, no variable is set, nothing is printed, the host is not called, and the action on record
stays what it was. -/
theorem missing_reads_refused (ρ : Type) [Picker ρ] :
    (∀ (cx : Context) (e : Expr) (p : ρ), (∃ x ∈ e.nodes, ¬ x.Available cx.store cx.selection) →
      ∃ p', (e.eval cx).run p = (.ok none, p') ∨ ∃ err, (e.eval cx).run p = (.error err, p')) ∧
    ∀ (fr : Frame) (s : Stmt) (lv : Live σ ρ) (reading : Reading), reading ∈ s.readings fr lv →
      (∃ x ∈ reading.expr.nodes, ¬ x.Available reading.context.store reading.context.selection) →
      let r := s.step fr lv
      ∃ err path n, r.result = .error err ∧ r.stmt.at? path = some n ∧ reading.expr ∈ n.expressions ∧
        (∀ above, above <+: path → ∃ a, r.stmt.at? above = some a ∧ a.state = .failed) ∧
        r.live.store = lv.store ∧ r.live.output = lv.output ∧ r.live.host = lv.host ∧ r.live.action = lv.action := by
  have hnone {cx : Context} {e : Expr} (hmissing : ∃ x ∈ e.nodes, ¬ x.Available cx.store cx.selection) (v : Value) :
      ¬ e.HasValue ρ cx v := by
    obtain ⟨x, hx, hn⟩ := hmissing
    exact fun hv => hn (Expr.ready_of_value hv x hx)
  constructor
  · intro cx e p hmissing
    rcases he : (e.eval cx).run p with ⟨err | _ | v, p'⟩
    · exact ⟨p', .inr ⟨err, rfl⟩⟩
    · exact ⟨p', .inl rfl⟩
    · exact absurd ⟨p, p', he⟩ (hnone hmissing v)
  · intro fr s lv reading hx hmissing r
    obtain ⟨path, ⟨err, herr⟩, ⟨p, hlive⟩, ⟨n, hn, he⟩, hfailed⟩ := (steps_step fr s lv).refused hx (hnone hmissing)
    exact ⟨err, path, n, herr, hn, he, hfailed, by rw [hlive], by rw [hlive], by rw [hlive], by rw [hlive]⟩

def hopeful : Expr := .junction ⟨2, 6⟩ .or (.boolean ⟨2, 6⟩ true) (.unitTest ⟨2, 14⟩ .isAlive (.var ⟨2, 20⟩ "mate"))

/-- follows the mate as long as there is hope -/
def seek : Stmt :=
  .loop {} (.boolean {} true) (.sequence {} [.conditional {} hopeful (.action {} .follow (.var {} "mate")) none none] 0)

/-- nobody has told who the mate is, so the conditional fails and the loop with it, true operand or not -/
theorem missing_reads_refused_seek :
    let fr : Frame := { task := "seek", unit := ⟨7⟩, selection := {} }
    let setting : Setting := { size := ⟨4, 4, 1⟩ }
    let lv : Live Rehearsal Replay := { store := .empty, host := { world := setting.world }, picker := ⟨[]⟩ }
    let r := seek.step fr lv
    (seek.readings fr lv).map (·.expr) = [.boolean {} true, hopeful] ∧ ¬ hopeful.Ready lv.store fr.selection ∧
      r.result = .error (.noValue ⟨2, 6⟩) ∧ r.stmt.state = .failed ∧ r.live.host.calls = [] ∧
      ∃ path n, r.stmt.at? path = some n ∧ hopeful ∈ n.expressions ∧ n.state = .failed := by
  intro fr setting lv r
  have hreads : (seek.readings fr lv).map (·.expr) = [.boolean {} true, hopeful] := by decide +kernel
  have hmate : ¬ (Expr.var ⟨2, 20⟩ "mate").Available lv.store fr.selection := by
    simp [Expr.Available, lv, Store.isBound, Store.empty]
  obtain ⟨x, hx, he⟩ : ∃ x ∈ seek.readings fr lv, x.expr = hopeful := List.mem_map.1 (hreads ▸ by simp)
  have hcx := (steps_step fr seek lv).context x hx
  have hmissing : ∃ y ∈ x.expr.nodes, ¬ y.Available x.context.store x.context.selection := by
    rw [he, hcx]
    exact ⟨_, by simp [hopeful, Expr.nodes], hmate⟩
  obtain ⟨err, path, n, -, hn, hmem, hfailed, -, -, hhost, -⟩ :=
    (missing_reads_refused Replay).2 fr seek lv x hx hmissing
  obtain ⟨a, ha, hstate⟩ := hfailed path (List.prefix_refl path)
  cases hn.symm.trans ha
  exact ⟨hreads, fun h => hmate (h _ (by simp [hopeful, Expr.nodes])), by decide +kernel, by decide +kernel,
    by rw [hhost], path, n, hn, he ▸ hmem, hstate⟩

end Stmt

end Errand
