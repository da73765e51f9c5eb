/-
Watching: what a step hears from its host.

A host can be watched: it does what it did before, and every answer about an action is noted (`Watched`). A step comes
to the same on a watched host (`step_watched`, from the rules one by one), so what it `hears` is what the host itself
has answered.
-/
import Errand.Proofs.Script.Rules

namespace Errand

/-- a host and the answers it has given about actions, the latest last -/
structure Watched (σ : Type) where
  host : σ
  heard : List ActionStatus := []

instance {σ : Type} [Host σ] : Host (Watched σ) where
  world w := Host.world w.host
  command u c w := { w with host := Host.command u c w.host }
  abort u w := { w with host := Host.abort u w.host }
  poll u w := ((Host.poll u w.host).1, ⟨(Host.poll u w.host).2, w.heard ++ [(Host.poll u w.host).1]⟩)

variable {σ ρ : Type}

/-- the same surroundings with a host that is watched from now on -/
def Live.watched (lv : Live σ ρ) : Live (Watched σ) ρ := { lv with host := { host := lv.host } }

/-- the same surroundings without the notes -/
def Live.unwatched (lv : Live (Watched σ) ρ) : Live σ ρ := { lv with host := lv.host.host }

/-- the same step without the notes -/
def Stepped.unwatched (r : Stepped (Watched σ) ρ) : Stepped σ ρ := { r with live := r.live.unwatched }

namespace Stmt

variable [Host σ] [Picker ρ] {fr : Frame} {s : Stmt} {lv lv' : Live (Watched σ) ρ} {rs : List Reading}
  {r : Stepped (Watched σ) ρ} {test target : Expr} {kind : ActionKind}

/-! ## The parts of a step -/

omit [Picker ρ] in
theorem context_unwatched : lv.unwatched.context fr = lv.context fr := rfl

theorem chooseArm_unwatched {chosen : Option Branch} {x : Except EvalError Branch}
    (h : chooseArm fr test chosen lv = (x, lv')) : chooseArm fr test chosen lv.unwatched = (x, lv'.unwatched) := by
  cases chosen with
  | none =>
    cases h
    rfl
  | some b =>
    cases h
    rfl

theorem entersLoop_unwatched {body : Stmt} {x : Except EvalError Bool}
    (h : entersLoop fr test body lv = (x, lv')) : entersLoop fr test body lv.unwatched = (x, lv'.unwatched) := by
  unfold entersLoop at h ⊢
  split
  · rename_i hb
    rw [if_pos hb] at h
    cases h
    rfl
  · rename_i hb
    rw [if_neg hb] at h
    cases h
    rfl

omit [Host σ] [Picker ρ] in
theorem evaluate_unwatched {α : Type} {e : Eval ρ α} {x : Except EvalError α} (h : lv.evaluate e = (x, lv')) :
    lv.unwatched.evaluate e = (x, lv'.unwatched) := by
  cases h
  rfl

theorem startAction_unwatched {state : ExecState} {x : Except EvalError Unit}
    (h : startAction fr state kind target lv = (x, lv')) :
    startAction fr state kind target lv.unwatched = (x, lv'.unwatched) := by
  unfold startAction at h ⊢
  split
  · rename_i hs
    rw [if_pos hs] at h
    cases h
    rfl
  · rename_i hs
    rw [if_neg hs] at h
    rcases hv : lv.evaluate (target.evalRequired (lv.context fr) kind.targetKind) with ⟨e | v, lv₁⟩
    · rw [hv] at h
      cases h
      rw [context_unwatched, evaluate_unwatched hv]
    · rw [hv] at h
      rw [context_unwatched, evaluate_unwatched hv]
      cases hc : kind.command? v <;> simp only [hc] at h ⊢ <;> cases h <;> rfl

omit [Picker ρ] in
theorem pollAction_unwatched (fr : Frame) (lv : Live (Watched σ) ρ) :
    pollAction fr lv.unwatched = ((pollAction fr lv).1, (pollAction fr lv).2.unwatched) := by
  rcases hp : Host.poll fr.unit lv.host.host with ⟨status, host⟩
  cases status <;> simp [pollAction, Live.unwatched, Host.poll, hp]

/-- what the host is asked for, it does as before -/
theorem Steps.unwatched (h : Steps fr s lv rs r) : Steps fr s lv.unwatched rs r.unwatched := by
  induction h with
  | idle hs => exact .idle hs
  | sequenceEnd hm hc => exact .sequenceEnd hm hc
  | sequenceNext hm hc h hr ih => exact .sequenceNext hm hc ih hr
  | sequenceStay hm hc h hr ih => exact .sequenceStay hm hc ih hr
  | conditionalError hm ht => exact .conditionalError hm (chooseArm_unwatched ht)
  | conditionalTrue hm ht h ih => exact .conditionalTrue hm (chooseArm_unwatched ht) ih
  | conditionalFalse hm ht h ih => exact .conditionalFalse hm (chooseArm_unwatched ht) ih
  | conditionalNone hm ht => exact .conditionalNone hm (chooseArm_unwatched ht)
  | loopError hm ht => exact .loopError hm (entersLoop_unwatched ht)
  | loopEnd hm ht => exact .loopEnd hm (entersLoop_unwatched ht)
  | loopLeft hm ht h hr hl ih => exact .loopLeft hm (entersLoop_unwatched ht) ih hr hl
  | loopAgain hm ht h hr hl ih => exact .loopAgain hm (entersLoop_unwatched ht) ih hr hl
  | loopStay hm ht h hr ih => exact .loopStay hm (entersLoop_unwatched ht) ih hr
  | assignError hm hv => exact .assignError hm (evaluate_unwatched hv)
  | assign hm hv => exact .assign hm (evaluate_unwatched hv)
  | printError hm hv => exact .printError hm (evaluate_unwatched hv)
  | print hm hv => exact .print hm (evaluate_unwatched hv)
  | actionError hm ha => exact .actionError hm (startAction_unwatched ha)
  | @action m kind target lv lv' hm ha =>
    have hpoll := pollAction_unwatched fr lv'
    have hstep := Steps.action hm (startAction_unwatched ha)
    rw [hpoll] at hstep
    exact hstep
  | leave hm => exact .leave hm

/-! ## What a step hears -/

/-- the answers that one step gets about the action of its unit -/
def hears (fr : Frame) (s : Stmt) (lv : Live σ ρ) : List ActionStatus := (s.step fr lv.watched).live.host.heard

/-- **Watching changes nothing** -/
theorem step_watched (fr : Frame) (s : Stmt) (lv : Live σ ρ) : (s.step fr lv.watched).unwatched = s.step fr lv :=
  (step_of_steps (steps_step fr s lv.watched).unwatched).symm

end Stmt

end Errand
