/-
Costs: how many steps a program without loops can take.

The `cost` of a program adds up along a sequence and is the greater one of two arms; it does not depend on the state of
the tree. What a half-executed tree has left of it (`left`) begins at the active child and follows the arm that is
chosen. A step that leaves the tree under way takes one off what is left, unless it hears that the action is in progress
(`Steps.pays`, by induction on the rules); and a tree that is under way has something left (`left_pos`). So a run
ends once the steps that did not wait are used up (`ends_within_left`), and from the start there are as many of them as
the cost says (`ends_within_cost`).
-/
import Errand.Proofs.Script.Shape
import Errand.Proofs.Script.Watching

namespace Errand

namespace Stmt

/-! ## Costs -/

mutual

def isLoopFree : Stmt → Bool
  | .sequence _ b _ => allLoopFree b
  | .conditional _ _ a e _ => a.isLoopFree && elseLoopFree e
  | .loop .. => false
  | .assign .. | .print .. | .action .. | .leave _ => true

def allLoopFree : List Stmt → Bool
  | [] => true
  | s :: rest => s.isLoopFree && allLoopFree rest

/-- the arm for a false test has no loop -/
def elseLoopFree : Option Stmt → Bool
  | none => true
  | some s => s.isLoopFree

end

mutual

/-- the steps that a program can take, waiting apart; a loop is priced as its test, for it has no bound -/
def cost : Stmt → Nat
  | .sequence _ b _ => max 1 (costAll b)
  | .conditional _ _ a e _ => max a.cost (costElse e)
  | .loop .. | .assign .. | .print .. | .action .. | .leave _ => 1

def costAll : List Stmt → Nat
  | [] => 0
  | s :: rest => s.cost + costAll rest

/-- the cost of the arm for a false test; a missing one is a step, too -/
def costElse : Option Stmt → Nat
  | none => 1
  | some s => s.cost

end

mutual

def left : Stmt → Nat
  | .sequence _ b i => max 1 ((leftAll b).drop i).sum
  | .conditional _ _ a e none => max a.left (leftElse e)
  | .conditional _ _ a _ (some .onTrue) => a.left
  | .conditional _ _ _ e (some .onFalse) => leftElse e
  | .loop .. | .assign .. | .print .. | .action .. | .leave _ => 1

def leftAll : List Stmt → List Nat
  | [] => []
  | s :: rest => s.left :: leftAll rest

/-- what is left of the arm for a false test -/
def leftElse : Option Stmt → Nat
  | none => 1
  | some s => s.left

end

theorem allLoopFree_eq (b : List Stmt) : allLoopFree b = b.all isLoopFree := by
  induction b with
  | nil => rfl
  | cons s rest ih => simp [allLoopFree, ih]

theorem costAll_eq (b : List Stmt) : costAll b = (b.map cost).sum := by
  induction b with
  | nil => rfl
  | cons s rest ih => simp [costAll, ih]

theorem leftAll_eq (b : List Stmt) : leftAll b = b.map left := by
  induction b with
  | nil => rfl
  | cons s rest ih => simp [leftAll, ih]

theorem isLoopFree_reset (s : Stmt) : s.reset.isLoopFree = s.isLoopFree := by
  induction s using induct with
  | sequence m b i ih =>
    simp only [reset, isLoopFree, resetAll_eq, allLoopFree_eq, List.all_map]
    rw [Bool.eq_iff_iff, List.all_eq_true, List.all_eq_true]
    exact forall₂_congr fun s hs => by rw [Function.comp_apply, ih s hs]
  | conditional m t a e c iha ihe =>
    cases e with
    | none => simp only [reset, resetElse, isLoopFree, elseLoopFree, iha]
    | some s => simp only [reset, resetElse, isLoopFree, elseLoopFree, iha, ihe s rfl]
  | _ => rfl

theorem left_pos (s : Stmt) : 0 < s.left := by
  induction s using induct with
  | sequence m b i ih => exact Nat.lt_of_lt_of_le Nat.one_pos (Nat.le_max_left ..)
  | conditional m t a e c iha ihe =>
    have helse : 0 < leftElse e := by
      cases e with
      | none => exact Nat.one_pos
      | some s => exact ihe s rfl
    rcases c with _ | _ | _
    · exact Nat.lt_of_lt_of_le iha (Nat.le_max_left ..)
    · exact iha
    · exact helse
  | _ => exact Nat.one_pos

theorem left_of_isPristine {s : Stmt} (h : s.isPristine = true) : s.left = s.cost := by
  induction s using induct with
  | sequence m b i ih =>
    obtain ⟨rfl, hb⟩ := isPristine_sequence h
    rw [left, cost, leftAll_eq, costAll_eq, List.drop_zero, List.map_congr_left fun s hs => ih s hs (hb s hs)]
  | conditional m t a e c iha ihe =>
    simp only [isPristine, Bool.and_eq_true, beq_iff_eq] at h
    obtain ⟨⟨⟨-, rfl⟩, ha⟩, he⟩ := h
    cases e with
    | none => rw [left, cost, iha ha]; rfl
    | some s => rw [left, cost, iha ha, leftElse, costElse, ihe s rfl he]
  | _ => rfl

/-! ## Sequences -/

section Sequence

variable {m : Mark} {body : List Stmt} {idx : Nat} {child new : Stmt}

/-- what is left of a sequence is left of its active child and of those behind it -/
theorem left_sequence (hc : body[idx]? = some child) :
    (sequence m body idx).left = child.left + ((body.map left).drop (idx + 1)).sum := by
  obtain ⟨hi, rfl⟩ := List.getElem?_eq_some_iff.1 hc
  have hpos := body[idx].left_pos
  rw [left, leftAll_eq, List.drop_eq_getElem_cons (by simpa using hi), List.sum_cons, List.getElem_map]
  omega

/-- a new active child leaves those behind it as they are -/
theorem left_sequence_set (hc : body[idx]? = some child) :
    (sequence m (body.set idx new) idx).left = new.left + ((body.map left).drop (idx + 1)).sum := by
  have hset : (body.set idx new)[idx]? = some new := List.getElem?_set_self (List.getElem?_eq_some_iff.1 hc).1
  rw [left_sequence hset, List.map_set, List.drop_set_of_lt (Nat.lt_succ_self idx)]

/-- a sequence that hands over has left what is behind the child that is done -/
theorem left_sequence_next (hi : idx + 1 < body.length) :
    (sequence m (body.set idx new) (idx + 1)).left = ((body.map left).drop (idx + 1)).sum := by
  have hnext : (body.set idx new)[idx + 1]? = some body[idx + 1] := by
    rw [List.getElem?_set_ne (Nat.ne_of_lt (Nat.lt_succ_self idx)), List.getElem?_eq_getElem hi]
  have hrest := List.drop_eq_getElem_cons (l := body.map left) (by simpa using hi)
  rw [left_sequence hnext, List.map_set, List.drop_set_of_lt (by omega), hrest, List.sum_cons, List.getElem_map]

end Sequence

/-! ## Steps -/

variable {σ ρ : Type} [Host σ] [Picker ρ] {fr : Frame} {s c thenS : Stmt} {elseS : Option Stmt}

theorem isLoopFree_child (h : s.isLoopFree = true) (hc : c ∈ s.children) : c.isLoopFree = true := by
  cases s with
  | sequence m b i =>
    rw [isLoopFree, allLoopFree_eq, List.all_eq_true] at h
    exact h c hc
  | conditional m t a e chosen =>
    rw [isLoopFree, Bool.and_eq_true] at h
    rcases List.mem_cons.1 hc with rfl | hc
    · exact h.1
    · obtain rfl : e = some c := Option.mem_toList.1 hc
      exact h.2
  | loop m t b => cases h
  | _ => exact absurd hc List.not_mem_nil

/-- the arm that is stepped has no more left than the conditional -/
theorem left_then_le {m : Mark} {test : Expr} {chosen : Option Branch}
    (hb : chosen = none ∨ chosen = some .onTrue) : thenS.left ≤ (conditional m test thenS elseS chosen).left := by
  obtain rfl | rfl := hb
  · exact Nat.le_max_left ..
  · exact le_rfl

theorem left_else_le {m : Mark} {test : Expr} {chosen : Option Branch}
    (hb : chosen = none ∨ chosen = some .onFalse) : c.left ≤ (conditional m test thenS (some c) chosen).left := by
  obtain rfl | rfl := hb
  · exact Nat.le_max_right ..
  · exact le_rfl

/-- the step takes one off what is left, unless it hears that the action is in progress -/
def Pays (s : Stmt) (lv : Live (Watched σ) ρ) (r : Stepped (Watched σ) ρ) : Prop :=
  r.stmt.left < s.left ∨ r.stmt.left ≤ s.left ∧ r.live.host.heard = lv.host.heard ++ [.inProgress]

variable {lv lv' : Live (Watched σ) ρ} {rs : List Reading} {r r' : Stepped (Watched σ) ρ}

omit [Host σ] [Picker ρ] in
/-- a node pays with the child that is stepped, if all else that it has left stays -/
theorem Pays.around (h : c.Pays lv' r) {n : Nat} (hs : c.left + n ≤ s.left) (hr : r'.stmt.left = r.stmt.left + n)
    (hfound : lv'.host = lv.host) (hleft : r'.live.host = r.live.host) : s.Pays lv r' := by
  obtain hlt | ⟨hle, hheard⟩ := h
  · exact .inl (by omega)
  · exact .inr ⟨by omega, by rw [hleft, hheard, hfound]⟩

omit [Picker ρ] in
theorem heard_of_pollAction (h : (pollAction fr lv).1 = .inProgress) :
    (pollAction fr lv).2.host.heard = lv.host.heard ++ [.inProgress] := by
  have hstatus : (Host.poll fr.unit lv.host).1 = .inProgress := by
    unfold pollAction at h
    split at h <;> simp_all
  rw [pollAction_live]
  exact congrArg (fun status => lv.host.heard ++ [status]) hstatus

/-- **A step that leaves the tree under way pays for itself**, or waits -/
theorem Steps.pays (h : Steps fr s lv rs r) (hl : s.isLoopFree = true) (ho : r.result = .ok .inProgress) :
    s.Pays lv r := by
  induction h with
  | idle hs =>
    rw [Except.ok.inj ho] at hs
    cases hs
  | @sequenceNext m body idx child lv rs r hm hc h hr ih =>
    -- the child that is done had a step left, and the sequence has nothing left but what is behind it
    have hi : idx + 1 < body.length := by
      by_contra hend
      simp [settle, Nat.le_of_not_lt hend] at ho
    have hpos := child.left_pos
    refine .inl ?_
    simp only [settle, left_sequence_next hi, left_sequence hc]
    omega
  | sequenceStay hm hc h hr ih =>
    have hchild := ih (isLoopFree_child hl (List.mem_of_getElem? hc)) (h.result_of_carry hr ho)
    exact hchild.around (left_sequence hc).ge (left_sequence_set hc) rfl rfl
  | conditionalTrue hm ht h ih =>
    have hpays := ih (isLoopFree_child hl List.mem_cons_self) ho
    obtain ⟨p, rfl⟩ := chooseArm_live ht
    exact hpays.around (n := 0) (left_then_le (chooseArm_ok ht)) rfl rfl rfl
  | conditionalFalse hm ht h ih =>
    have hpays := ih (isLoopFree_child hl (List.mem_cons_of_mem _ List.mem_cons_self)) ho
    obtain ⟨p, rfl⟩ := chooseArm_live ht
    exact hpays.around (n := 0) (left_else_le (chooseArm_ok ht)) rfl rfl rfl
  | loopError | loopEnd | loopLeft | loopAgain | loopStay => cases hl
  | action hm ha =>
    refine .inr ⟨le_rfl, (heard_of_pollAction (Except.ok.inj ho)).trans ?_⟩
    obtain ⟨-, rfl⟩ | ⟨-, p, c, rfl⟩ := startAction_ok ha
    · rfl
    · rfl
  | sequenceEnd | conditionalError | conditionalNone | assignError | assign | printError | print | actionError
  | leave => cases ho

theorem left_step (hl : s.isLoopFree = true) (fr : Frame) (lv : Live σ ρ)
    (ho : (s.step fr lv).result = .ok .inProgress) :
    (s.step fr lv).stmt.left + 1 ≤ s.left + if .inProgress ∈ s.hears fr lv then 1 else 0 := by
  have hpays := (steps_step fr s lv.watched).pays hl
  rw [← step_watched] at ho ⊢
  obtain hlt | ⟨hle, hheard⟩ := hpays ho
  · exact Nat.le_add_right_of_le hlt
  · have hwaits : ActionStatus.inProgress ∈ s.hears fr lv := by
      rw [hears, hheard]
      exact List.mem_append_right _ (List.mem_singleton_self _)
    rw [if_pos hwaits]
    exact Nat.succ_le_succ hle

/-! ## Runs -/

/-- how many steps of a run hear that the action is in progress -/
def waits (s : Stmt) : List (Frame × Live σ ρ) → Nat
  | [] => 0
  | (fr, lv) :: turns => (if .inProgress ∈ s.hears fr lv then 1 else 0) + (s.step fr lv).stmt.waits turns

/-- the answer says that the execution is over -/
def Final (x : Except EvalError ExecState) : Prop := x = .ok .done ∨ x = .ok .failed ∨ ∃ e, x = .error e

/-- a step ends the execution, or leaves it under way -/
theorem final_or_inProgress (fr : Frame) (s : Stmt) (lv : Live σ ρ) :
    Final (s.step fr lv).result ∨ (s.step fr lv).result = .ok .inProgress := by
  have hstarted := (steps_step fr s lv).started
  rcases hx : (s.step fr lv).result with e | x
  · exact .inl (.inr (.inr ⟨e, rfl⟩))
  · cases x with
    | notStarted => exact absurd hx hstarted
    | inProgress => exact .inr rfl
    | done => exact .inl (.inl rfl)
    | failed => exact .inl (.inr (.inl rfl))

/-- a run goes on for no longer than what is left and the steps that wait -/
theorem ends_within_left (hl : s.isLoopFree = true) (turns : List (Frame × Live σ ρ)) :
    turns.length < s.left + s.waits turns ∨
      ∃ pre fr lv post, turns = pre ++ (fr, lv) :: post ∧ pre.length < s.left + s.waits pre ∧
        Final ((s.after pre).step fr lv).result := by
  induction turns generalizing s with
  | nil => exact .inl s.left_pos
  | cons turn turns ih =>
    obtain ⟨fr, lv⟩ := turn
    obtain hfinal | hgoes := final_or_inProgress fr s lv
    · exact .inr ⟨[], fr, lv, turns, rfl, s.left_pos, hfinal⟩
    · have hstep := left_step hl fr lv hgoes
      have hl' : (s.step fr lv).stmt.isLoopFree = true := by
        rw [← isLoopFree_reset, (steps_step fr s lv).program, isLoopFree_reset, hl]
      obtain hlt | ⟨pre, fr', lv', post, rfl, hlt, hfinal⟩ := ih hl'
      · left
        simp only [List.length_cons, waits]
        omega
      · refine .inr ⟨(fr, lv) :: pre, fr', lv', post, rfl, ?_, hfinal⟩
        simp only [List.length_cons, waits]
        omega

/-- **A program without loops ends within its cost, waiting apart.** A single statement costs one step, a sequence as
much as its statements together but one at least, a conditional as much as the dearer arm, where a missing arm costs
one. Step a fresh tree without loops, with any host, variables, picker and control, and other ones for each step. Either
the run has fewer steps than the cost of the tree and the steps that hear from the host that the action is in progress;
or it comes to a step which answers done, failed or an error, and before it there are fewer steps than the cost and
those of them that hear this. -/
theorem ends_within_cost (hp : s.isPristine = true) (hl : s.isLoopFree = true) (turns : List (Frame × Live σ ρ)) :
    turns.length < s.cost + s.waits turns ∨
      ∃ pre fr lv post, turns = pre ++ (fr, lv) :: post ∧ pre.length < s.cost + s.waits pre ∧
        Final ((s.after pre).step fr lv).result := by
  have hleft := ends_within_left hl turns
  rwa [left_of_isPristine hp] at hleft

/-- nothing to do at first, then an arm that is missing, and then somewhere to go -/
def outing : Stmt :=
  .sequence {}
    [.sequence {} [] 0,
      .conditional {} (.boolean {} false)
        (.sequence {} [.print {} (.boolean {} true), .print {} (.boolean {} false)] 0) none none,
      .sequence {} [.action {} .moveTo (.cube {} ⟨1, 0, 0⟩), .print {} (.boolean {} true)] 0] 0

/-- one turn, in which a unit that is asked gives this answer -/
def answering (status : ActionStatus) : Frame × Live Rehearsal Replay :=
  ({ task := "outing", unit := ⟨7⟩, selection := {} },
    { store := .empty, picker := ⟨[]⟩
      host := { world := { size := ⟨4, 4, 1⟩ : Setting }.world, final := status } })

/-- two of seven steps wait, and the others are as many as the outing costs: so it has ended -/
theorem ends_within_cost_outing :
    let turns := [.inProgress, .inProgress, .inProgress, .inProgress, .completed, .completed, .completed].map answering
    outing.isPristine = true ∧ outing.isLoopFree = true ∧ outing.cost = 5 ∧ outing.waits turns = 2 ∧
      ∃ pre fr lv post, turns = pre ++ (fr, lv) :: post ∧ pre.length < 5 + outing.waits pre ∧
        Final ((outing.after pre).step fr lv).result := by
  intro turns
  have hp : outing.isPristine = true := by decide
  have hl : outing.isLoopFree = true := by decide
  have hcost : outing.cost = 5 := by decide
  have hwaits : outing.waits turns = 2 := by decide +kernel
  have hends := ends_within_cost hp hl turns
  rw [hcost, hwaits] at hends
  exact ⟨hp, hl, hcost, hwaits, hends.resolve_left (Nat.lt_irrefl 7)⟩

end Stmt

end Errand
