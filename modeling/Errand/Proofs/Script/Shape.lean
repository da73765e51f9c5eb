/-
The shape of half-executed trees.

`Formed` says how a node stands to its children, state by state: what lies before the active child of a sequence is
done and what lies behind it is fresh, a conditional has touched the chosen arm only, a loop is under way with its body
under way or done. `Shaped` says it of every node of a tree. A fresh tree is shaped, and a step keeps it whatever it
finds (`Steps.shaped`): a `leave` that unwinds, an iteration that starts over and an error on its way up included.

From the shape alone it follows that a state which `spreads` (under way, failed) is found on all nodes above
(`Shaped.above`) and on one path only (`Shaped.comparable`). `formed_of_steps` says so of every tree that steps make
of a fresh one.
-/
import Errand.Proofs.Script.Rules
import Errand.Rehearsal

namespace Errand

/-- the states that a node gives to all nodes above it -/
def ExecState.spreads : ExecState → Bool
  | .inProgress | .failed => true
  | .notStarted | .done => false

namespace Stmt

/-! ## Nodes and their places -/

/-- the statements directly below a node, in the order of the text -/
def children : Stmt → List Stmt
  | .sequence _ body _ => body
  | .conditional _ _ thenS elseS _ => thenS :: elseS.toList
  | .loop _ _ body => [body]
  | .assign .. | .print .. | .action .. | .leave _ => []

/-- the node at the end of a path, which goes down by the numbers of children -/
def at? (s : Stmt) : List Nat → Option Stmt
  | [] => some s
  | i :: path => s.children[i]?.bind fun c => c.at? path

theorem at?_cons {s n : Stmt} {i : Nat} {path : List Nat} :
    s.at? (i :: path) = some n ↔ ∃ c, s.children[i]? = some c ∧ c.at? path = some n :=
  Option.bind_eq_some_iff

/-- induction over trees by the children of a node, whatever its kind -/
theorem children_induct {motive : Stmt → Prop} (h : ∀ s, (∀ c ∈ s.children, motive c) → motive s) (s : Stmt) :
    motive s := by
  induction s using induct with
  | sequence m b i ih => exact h _ ih
  | conditional m t a e c iha ihe =>
    refine h _ fun d hd => ?_
    rcases List.mem_cons.1 hd with rfl | hd
    · exact iha
    · exact ihe d (Option.mem_toList.1 hd)
  | loop m t b ih =>
    refine h _ fun d hd => ?_
    obtain rfl := List.mem_singleton.1 hd
    exact ih
  | _ => exact h _ fun d hd => absurd hd List.not_mem_nil

theorem isPristine_of_mem_children {s c : Stmt} (h : s.isPristine = true) (hc : c ∈ s.children) :
    c.isPristine = true := by
  cases s with
  | sequence m b i =>
    simp only [isPristine, allPristine_eq, Bool.and_eq_true, List.all_eq_true] at h
    exact h.2 c hc
  | conditional m t a e chosen =>
    simp only [isPristine, Bool.and_eq_true] at h
    cases e with
    | none =>
      obtain rfl := List.mem_singleton.1 hc
      exact h.1.2
    | some b =>
      rcases List.mem_cons.1 hc with rfl | hc
      · exact h.1.2
      · obtain rfl := List.mem_singleton.1 hc
        exact h.2
  | loop m t b =>
    obtain rfl := List.mem_singleton.1 hc
    simp only [isPristine, Bool.and_eq_true] at h
    exact h.2
  | _ => exact absurd hc List.not_mem_nil

/-! ## The shape of a node -/

/-- children before `i` are done, those from `j` on are fresh -/
structure Parted (body : List Stmt) (i j : Nat) : Prop where
  before : ∀ k c, k < i → body[k]? = some c → c.state = .done
  after : ∀ k c, j ≤ k → body[k]? = some c → c.isPristine = true

/-- one arm is chosen and in a certain state, the other is fresh -/
inductive Chose (x : ExecState) : Option Branch → Stmt → Option Stmt → Prop
  | onTrue {thenS : Stmt} {elseS : Option Stmt} (ht : thenS.state = x) (he : ∀ s ∈ elseS, s.isPristine = true) :
      Chose x (some .onTrue) thenS elseS
  | onFalse {thenS elseS : Stmt} (ht : thenS.isPristine = true) (he : elseS.state = x) :
      Chose x (some .onFalse) thenS (some elseS)

/-- what the children of a node under way look like -/
def UnderWay : Stmt → Prop
  | .sequence _ body idx =>
    Parted body idx (idx + 1) ∧ ∃ c, body[idx]? = some c ∧ (c.isPristine = true ∨ c.state = .inProgress)
  | .conditional _ _ thenS elseS chosen => Chose .inProgress chosen thenS elseS
  | .loop _ _ body => body.state = .inProgress ∨ body.state = .done
  | .action .. => True
  | .assign .. | .print .. | .leave _ => False

/-- what the children of a node that is done look like -/
def Finished : Stmt → Prop
  | .sequence _ body idx => Parted body idx idx
  | .conditional _ _ thenS elseS chosen =>
    Chose .done chosen thenS elseS ∨ chosen = some .onFalse ∧ thenS.isPristine = true ∧ elseS = none
  | .loop _ _ body => body.isPristine = true ∨ body.state = .done
  | .assign .. | .print .. | .action .. | .leave _ => True

/-- what the children of a failed node look like -/
def Broken : Stmt → Prop
  | .sequence _ body idx => Parted body idx (idx + 1) ∧ ∃ c, body[idx]? = some c ∧ c.state = .failed
  | .conditional _ _ thenS elseS chosen =>
    Chose .failed chosen thenS elseS ∨
      chosen = none ∧ thenS.isPristine = true ∧ ∀ s ∈ elseS, s.isPristine = true
  | .loop _ _ body => body.isPristine = true ∨ body.state = .done ∨ body.state = .failed
  | .assign .. | .print .. | .action .. => True
  | .leave _ => False

/-- how a node stands to its children -/
def Formed (s : Stmt) : Prop :=
  match s.state with
  | .notStarted => s.isPristine = true
  | .inProgress => s.UnderWay
  | .done => s.Finished
  | .failed => s.Broken

/-- every node of the tree is formed -/
inductive Shaped : Stmt → Prop
  | node {s : Stmt} (hn : s.Formed) (hc : ∀ c ∈ s.children, Shaped c) : Shaped s

theorem Shaped.formed {s : Stmt} (h : s.Shaped) : s.Formed := by
  cases h
  assumption

theorem Shaped.child {s c : Stmt} (h : s.Shaped) (hc : c ∈ s.children) : c.Shaped := by
  cases h with
  | node _ hall => exact hall c hc

theorem formed_of_isPristine {s : Stmt} (h : s.isPristine = true) : s.Formed := by
  unfold Formed
  rw [state_of_isPristine h]
  exact h

theorem shaped_of_isPristine {s : Stmt} (h : s.isPristine = true) : s.Shaped := by
  induction s using children_induct with
  | h s ih => exact .node (formed_of_isPristine h) fun c hc => ih c hc (isPristine_of_mem_children h hc)

theorem shaped_resumed {body : Stmt} (h : body.Shaped) : body.resumed.Shaped := by
  unfold resumed
  split
  · exact h
  · exact shaped_of_isPristine body.isPristine_reset

/-! ## What a step finds -/

section Found

variable {m : Mark} {body : List Stmt} {idx : Nat} {child thenS : Stmt} {elseS : Option Stmt} {test : Expr}
  {chosen : Option Branch}

/-- a node that a step enters is fresh or under way -/
theorem Shaped.of_open {s : Stmt} (h : s.Shaped) (ho : s.state.isTerminal = false) :
    s.isPristine = true ∨ s.UnderWay := by
  have hf := h.formed
  unfold Formed at hf
  cases hs : s.state with
  | notStarted => exact .inl (by simpa only [hs] using hf)
  | inProgress => exact .inr (by simpa only [hs] using hf)
  | done => simp [hs, ExecState.isTerminal] at ho
  | failed => simp [hs, ExecState.isTerminal] at ho

theorem isPristine_sequence (h : (Stmt.sequence m body idx).isPristine = true) :
    idx = 0 ∧ ∀ c ∈ body, c.isPristine = true := by
  simp only [isPristine, Bool.and_eq_true, beq_iff_eq, allPristine_eq, List.all_eq_true] at h
  exact ⟨h.1.2, h.2⟩

theorem Shaped.parted (h : Shaped (.sequence m body idx)) (hm : m.state.isTerminal = false) :
    Parted body idx (idx + 1) := by
  obtain hp | ⟨hparted, -⟩ := h.of_open hm
  · obtain ⟨rfl, hall⟩ := isPristine_sequence hp
    exact ⟨fun k c hk => absurd hk (Nat.not_lt_zero k), fun k c _ hc => hall c (List.mem_of_getElem? hc)⟩
  · exact hparted

theorem Shaped.parted_end (h : Shaped (.sequence m body idx)) (hm : m.state.isTerminal = false)
    (hc : body[idx]? = none) : Parted body idx idx where
  before := (h.parted hm).before
  after k c hk hkc := by
    have hlt := (List.getElem?_eq_some_iff.1 hkc).1
    have hle := List.getElem?_eq_none_iff.1 hc
    omega

theorem Shaped.else_fresh (h : Shaped (.conditional m test thenS elseS chosen)) (hm : m.state.isTerminal = false)
    (hb : chosen = none ∨ chosen = some .onTrue) : ∀ s ∈ elseS, s.isPristine = true := by
  intro s hs
  obtain hp | hc := h.of_open hm
  · exact isPristine_of_mem_children hp (List.mem_cons_of_mem _ (Option.mem_toList.2 hs))
  · cases hc with
    | onTrue _ he => exact he s hs
    | onFalse => simp at hb

theorem Shaped.then_fresh (h : Shaped (.conditional m test thenS elseS chosen)) (hm : m.state.isTerminal = false)
    (hb : chosen = none ∨ chosen = some .onFalse) : thenS.isPristine = true := by
  obtain hp | hc := h.of_open hm
  · exact isPristine_of_mem_children hp List.mem_cons_self
  · cases hc with
    | onTrue => simp at hb
    | onFalse ht => exact ht

/-- between iterations the body is fresh or done -/
theorem Shaped.body_rests {body : Stmt} (h : Shaped (.loop m test body)) (hm : m.state.isTerminal = false)
    (hb : body.state ≠ .inProgress) : body.isPristine = true ∨ body.state = .done := by
  obtain hp | hi | hd := h.of_open hm
  · exact .inl (isPristine_of_mem_children hp List.mem_cons_self)
  · exact absurd hi hb
  · exact .inr hd

end Found

/-! ## Nodes that a step leaves -/

section Left

variable {m : Mark} {body : List Stmt} {idx : Nat} {new thenS : Stmt} {elseS : Option Stmt} {test : Expr}
  {chosen : Option Branch}

theorem Parted.set (h : Parted body idx (idx + 1)) (new : Stmt) : Parted (body.set idx new) idx (idx + 1) where
  before k c hk hc := h.before k c hk (by rwa [List.getElem?_set_ne (by omega)] at hc)
  after k c hk hc := h.after k c hk (by rwa [List.getElem?_set_ne (by omega)] at hc)

theorem Parted.next (h : Parted body idx (idx + 1)) (hn : new.state = .done) :
    Parted (body.set idx new) (idx + 1) (idx + 1) where
  before k c hk hc := by
    by_cases he : k = idx
    · subst k
      obtain ⟨-, rfl⟩ := List.getElem?_eq_some_iff.1 hc
      simpa using hn
    · exact (h.set new).before k c (by omega) hc
  after := (h.set new).after

/-- a sequence that goes on with its next child -/
theorem Parted.underWay (m : Mark) (h : Parted body idx idx) (hi : idx < body.length) :
    UnderWay (.sequence m body idx) := by
  have hc : body[idx]? = some body[idx] := List.getElem?_eq_getElem hi
  exact ⟨⟨h.before, fun k c hk => h.after k c (by omega)⟩, _, hc, .inl (h.after idx _ le_rfl hc)⟩

/-- a conditional shares the state of its chosen arm -/
theorem Chose.formed {x : ExecState} (h : Chose x chosen thenS elseS) (hx : x ≠ .notStarted) :
    Formed (.conditional { m with state := x } test thenS elseS chosen) := by
  cases x with
  | notStarted => exact absurd rfl hx
  | inProgress => exact h
  | done => exact .inl h
  | failed => exact .inl h

theorem shaped_sequence (hn : Formed (.sequence m (body.set idx new) idx')) (hb : ∀ c ∈ body, c.Shaped)
    (hs : new.Shaped) : Shaped (.sequence m (body.set idx new) idx') := by
  refine .node hn fun c hc => ?_
  obtain hc | rfl := List.mem_or_eq_of_mem_set hc
  · exact hb c hc
  · exact hs

theorem shaped_loop {body : Stmt} (hn : Formed (.loop m test body)) (hb : body.Shaped) : Shaped (.loop m test body) :=
  .node hn fun _ hc => List.mem_singleton.1 hc ▸ hb

theorem shaped_conditional (hn : Formed (.conditional m test thenS elseS chosen)) (ht : thenS.Shaped)
    (he : ∀ s ∈ elseS, s.Shaped) : Shaped (.conditional m test thenS elseS chosen) := by
  refine .node hn fun c hc => ?_
  rcases List.mem_cons.1 hc with rfl | hc
  · exact ht
  · exact he c (Option.mem_toList.1 hc)

theorem shaped_leaf {s : Stmt} (hn : s.Formed) (hc : s.children = []) : s.Shaped :=
  .node hn fun _ h => absurd (hc ▸ h) List.not_mem_nil

end Left

/-! ## Steps keep the shape -/

variable {σ ρ : Type} [Host σ] [Picker ρ] {fr : Frame} {s : Stmt} {lv : Live σ ρ} {rs : List Reading} {r : Stepped σ ρ}

theorem chooseArm_ok {test : Expr} {chosen : Option Branch} {lv' : Live σ ρ} {b : Branch}
    (h : chooseArm fr test chosen lv = (.ok b, lv')) : chosen = none ∨ chosen = some b := by
  cases chosen with
  | none => exact .inl rfl
  | some b' =>
    cases h
    exact .inr rfl

theorem chooseArm_error {test : Expr} {chosen : Option Branch} {lv' : Live σ ρ} {e : EvalError}
    (h : chooseArm fr test chosen lv = (.error e, lv')) : chosen = none := by
  cases chosen with
  | none => rfl
  | some b => cases h

/-- a loop that does not step its body stands between iterations -/
theorem entersLoop_rests {test : Expr} {body : Stmt} {lv' : Live σ ρ} {x : Except EvalError Bool}
    (h : entersLoop fr test body lv = (x, lv')) (hx : x ≠ .ok true) : body.state ≠ .inProgress := by
  intro hb
  rw [entersLoop, if_pos hb] at h
  exact hx (Prod.mk.inj h).1.symm

/-- a child that is not done makes a node around it share its state -/
theorem Steps.carried (h : Steps fr s lv rs r) (hr : r.result ≠ .ok .done) :
    (stateAfter (carry r.result) = .inProgress ∧ r.stmt.state = .inProgress) ∨
      (stateAfter (carry r.result) = .failed ∧ r.stmt.state = .failed) := by
  have hn := h.started
  rw [h.state]
  cases hres : r.result with
  | error e => exact .inr ⟨rfl, rfl⟩
  | ok x =>
    rw [hres] at hn hr
    cases x with
    | notStarted => exact absurd rfl hn
    | inProgress => exact .inl ⟨rfl, rfl⟩
    | done => exact absurd rfl hr
    | failed => exact .inr ⟨rfl, rfl⟩

theorem Steps.answers (h : Steps fr s lv rs r) : stateAfter r.result ≠ .notStarted := by
  have hn := h.started
  cases hr : r.result with
  | error e => simp [stateAfter]
  | ok x => simpa [stateAfter, hr] using hn

/-- **A step keeps the shape**, whatever it finds and whatever it answers -/
theorem Steps.shaped (h : Steps fr s lv rs r) (hs : s.Shaped) : r.stmt.Shaped := by
  induction h with
  | idle => exact hs
  | sequenceEnd hm hc => exact .node (hs.parted_end hm hc) fun c hc => hs.child hc
  | @sequenceNext m body idx child lv rs r hm hc h hr ih =>
    have hdone : r.stmt.state = .done := h.state.trans (by rw [hr]; rfl)
    have hparted := (hs.parted hm).next hdone
    refine shaped_sequence ?_ (fun c hc => hs.child hc) (ih (hs.child (List.mem_of_getElem? hc)))
    by_cases hend : r.live.leaving || decide (body.length ≤ idx + 1)
    · rw [if_pos hend]
      exact hparted
    · rw [if_neg hend]
      simp only [Bool.or_eq_true, decide_eq_true_eq, not_or, not_le] at hend
      exact hparted.underWay m (by simpa using hend.2)
  | @sequenceStay m body idx child lv rs r hm hc h hr ih =>
    have hparted := (hs.parted hm).set r.stmt
    have hactive : (body.set idx r.stmt)[idx]? = some r.stmt :=
      List.getElem?_set_self (List.getElem?_eq_some_iff.1 hc).1
    refine shaped_sequence ?_ (fun c hc => hs.child hc) (ih (hs.child (List.mem_of_getElem? hc)))
    obtain ⟨hx, hstate⟩ | ⟨hx, hstate⟩ := h.carried hr
    · rw [hx]
      exact ⟨hparted, _, hactive, .inr hstate⟩
    · rw [hx]
      exact ⟨hparted, _, hactive, hstate⟩
  | conditionalError hm ht =>
    obtain rfl := chooseArm_error ht
    exact .node (.inr ⟨rfl, hs.then_fresh hm (.inl rfl), hs.else_fresh hm (.inl rfl)⟩) fun c hc => hs.child hc
  | conditionalTrue hm ht h ih =>
    have harm := Chose.onTrue h.state (hs.else_fresh hm (chooseArm_ok ht))
    exact shaped_conditional (harm.formed h.answers) (ih (hs.child List.mem_cons_self))
      fun s he => hs.child (List.mem_cons_of_mem _ (Option.mem_toList.2 he))
  | conditionalFalse hm ht h ih =>
    have harm := Chose.onFalse (hs.then_fresh hm (chooseArm_ok ht)) h.state
    refine shaped_conditional (harm.formed h.answers) (hs.child List.mem_cons_self) fun s he => ?_
    obtain rfl := Option.mem_some.1 he
    exact ih (hs.child (List.mem_cons_of_mem _ List.mem_cons_self))
  | conditionalNone hm ht =>
    exact .node (.inr ⟨rfl, hs.then_fresh hm (chooseArm_ok ht), rfl⟩) fun c hc => hs.child hc
  | loopError hm ht =>
    have hrests := hs.body_rests hm (entersLoop_rests ht (by simp))
    exact shaped_loop (hrests.imp_right .inl) (hs.child List.mem_cons_self)
  | loopEnd hm ht =>
    exact shaped_loop (hs.body_rests hm (entersLoop_rests ht (by simp))) (hs.child List.mem_cons_self)
  | loopLeft hm ht h hr hl ih =>
    exact shaped_loop (.inr (h.state.trans (by rw [hr]; rfl))) (ih (shaped_resumed (hs.child List.mem_cons_self)))
  | loopAgain hm ht h hr hl ih =>
    exact shaped_loop (.inr (h.state.trans (by rw [hr]; rfl))) (ih (shaped_resumed (hs.child List.mem_cons_self)))
  | loopStay hm ht h hr ih =>
    refine shaped_loop ?_ (ih (shaped_resumed (hs.child List.mem_cons_self)))
    obtain ⟨hx, hstate⟩ | ⟨hx, hstate⟩ := h.carried hr
    · rw [hx]
      exact .inl hstate
    · rw [hx]
      exact .inr (.inr hstate)
  | assignError | assign | printError | print | actionError | leave => exact shaped_leaf trivial rfl
  | @action m kind target lv lv' hm ha =>
    refine shaped_leaf ?_ rfl
    have hstarted := (Steps.action hm ha : Steps fr _ lv _ _).answers
    simp only [settle] at hstarted ⊢
    cases hx : (pollAction fr lv').1 with
    | notStarted => exact absurd hx (by simpa [stateAfter] using hstarted)
    | _ => trivial

/-! ## One path -/

/-- the number of the child that a step of the node goes on with -/
def due : Stmt → Nat
  | .sequence _ _ idx => idx
  | .conditional _ _ _ _ (some .onFalse) => 1
  | .conditional .. | .loop .. | .assign .. | .print .. | .action .. | .leave _ => 0

section Spreads

variable {c n thenS : Stmt} {elseS : Option Stmt} {test : Expr} {chosen : Option Branch} {i j k : Nat}

theorem not_spreads_of_isPristine (h : c.isPristine = true) : c.state.spreads = false := by
  rw [state_of_isPristine h]
  rfl

theorem not_spreads_of_done (h : c.state = .done) : c.state.spreads = false := by
  rw [h]
  rfl

theorem Parted.spreads {body : List Stmt} (h : Parted body i j) (hc : body[k]? = some c)
    (hx : c.state.spreads = true) : i ≤ k ∧ k < j := by
  constructor
  · by_contra hk
    exact absurd hx (by simp [not_spreads_of_done (h.before k c (by omega) hc)])
  · by_contra hk
    exact absurd hx (by simp [not_spreads_of_isPristine (h.after k c (by omega) hc)])

theorem getElem?_arms : (thenS :: elseS.toList)[i]? = some c ↔ i = 0 ∧ c = thenS ∨ i = 1 ∧ elseS = some c := by
  cases elseS <;> rcases i with _ | _ | i <;> simp [eq_comm]

theorem getElem?_body {body : Stmt} (h : [body][i]? = some c) : i = 0 ∧ c = body := by
  obtain ⟨hi, rfl⟩ := List.getElem?_eq_some_iff.1 h
  obtain rfl : i = 0 := by simpa using hi
  exact ⟨rfl, rfl⟩

theorem Chose.spreads (m : Mark) (test : Expr) {x : ExecState} (h : Chose x chosen thenS elseS)
    (hc : (thenS :: elseS.toList)[i]? = some c) (hx : c.state.spreads = true) :
    c.state = x ∧ i = due (.conditional m test thenS elseS chosen) := by
  cases h with
  | onTrue ht he =>
    obtain ⟨rfl, rfl⟩ | ⟨-, hs⟩ := getElem?_arms.1 hc
    · exact ⟨ht, rfl⟩
    · exact absurd hx (by simp [not_spreads_of_isPristine (he c hs)])
  | onFalse ht he =>
    obtain ⟨-, rfl⟩ | ⟨rfl, hs⟩ := getElem?_arms.1 hc
    · exact absurd hx (by simp [not_spreads_of_isPristine ht])
    · obtain rfl := Option.some.inj hs
      exact ⟨he, rfl⟩

theorem UnderWay.spreads (h : n.UnderWay) (hc : n.children[i]? = some c) (hx : c.state.spreads = true) :
    c.state = .inProgress ∧ i = n.due := by
  cases n with
  | sequence m body idx =>
    obtain ⟨hparted, d, hd, hstate⟩ := h
    have hk := hparted.spreads hc hx
    obtain rfl : i = idx := by omega
    obtain rfl := Option.some.inj (hd.symm.trans hc)
    refine ⟨hstate.resolve_left fun hp => ?_, rfl⟩
    exact absurd hx (by simp [not_spreads_of_isPristine hp])
  | conditional m t a e chosen => exact Chose.spreads m t h hc hx
  | loop m t b =>
    obtain ⟨rfl, rfl⟩ := getElem?_body hc
    refine ⟨h.resolve_right fun hd => ?_, rfl⟩
    exact absurd hx (by simp [not_spreads_of_done hd])
  | _ => exact absurd (List.mem_of_getElem? hc) List.not_mem_nil

theorem Finished.not_spreads (h : n.Finished) (hc : n.children[i]? = some c) : c.state.spreads = false := by
  by_contra hx
  rw [Bool.not_eq_false] at hx
  cases n with
  | sequence m body idx =>
    have hk := Parted.spreads h hc hx
    omega
  | conditional m t a e chosen =>
    obtain harm | ⟨rfl, hp, rfl⟩ := h
    · have hd := (harm.spreads m t hc hx).1
      exact absurd hx (by simp [not_spreads_of_done hd])
    · obtain ⟨-, rfl⟩ := getElem?_body hc
      exact absurd hx (by simp [not_spreads_of_isPristine hp])
  | loop m t b =>
    obtain ⟨-, rfl⟩ := getElem?_body hc
    obtain hp | hd := h
    · exact absurd hx (by simp [not_spreads_of_isPristine hp])
    · exact absurd hx (by simp [not_spreads_of_done hd])
  | _ => exact absurd (List.mem_of_getElem? hc) List.not_mem_nil

theorem Broken.spreads (h : n.Broken) (hc : n.children[i]? = some c) (hx : c.state.spreads = true) :
    c.state = .failed ∧ i = n.due := by
  cases n with
  | sequence m body idx =>
    obtain ⟨hparted, d, hd, hstate⟩ := h
    have hk := hparted.spreads hc hx
    obtain rfl : i = idx := by omega
    obtain rfl := Option.some.inj (hd.symm.trans hc)
    exact ⟨hstate, rfl⟩
  | conditional m t a e chosen =>
    obtain harm | ⟨rfl, hp, he⟩ := h
    · exact harm.spreads m t hc hx
    · have hfresh : c.isPristine = true := by
        obtain ⟨-, rfl⟩ | ⟨-, hs⟩ := getElem?_arms.1 hc
        · exact hp
        · exact he c hs
      exact absurd hx (by simp [not_spreads_of_isPristine hfresh])
  | loop m t b =>
    obtain ⟨rfl, rfl⟩ := getElem?_body hc
    obtain hp | hd | hf := h
    · exact absurd hx (by simp [not_spreads_of_isPristine hp])
    · exact absurd hx (by simp [not_spreads_of_done hd])
    · exact ⟨hf, rfl⟩
  | _ => exact absurd (List.mem_of_getElem? hc) List.not_mem_nil

/-- **Only the child that is due can be under way or failed**, and then the node is in the same state -/
theorem Formed.spreads (h : n.Formed) (hc : n.children[i]? = some c) (hx : c.state.spreads = true) :
    n.state = c.state ∧ i = n.due := by
  unfold Formed at h
  cases hs : n.state with
  | notStarted =>
    simp only [hs] at h
    have hp := isPristine_of_mem_children h (List.mem_of_getElem? hc)
    exact absurd hx (by simp [not_spreads_of_isPristine hp])
  | inProgress =>
    simp only [hs] at h
    exact (h.spreads hc hx).imp_left Eq.symm
  | done =>
    simp only [hs] at h
    exact absurd hx (by simp [h.not_spreads hc])
  | failed =>
    simp only [hs] at h
    exact (h.spreads hc hx).imp_left Eq.symm

theorem Shaped.at {s : Stmt} {path : List Nat} (h : s.Shaped) (hn : s.at? path = some n) : n.Shaped := by
  induction path generalizing s with
  | nil =>
    obtain rfl := Option.some.inj hn
    exact h
  | cons i path ih =>
    obtain ⟨c, hc, hn⟩ := at?_cons.1 hn
    exact ih (h.child (List.mem_of_getElem? hc)) hn

theorem Shaped.state_of_at {s : Stmt} {path : List Nat} (h : s.Shaped) (hn : s.at? path = some n)
    (hx : n.state.spreads = true) : s.state = n.state := by
  induction path generalizing s with
  | nil => rw [Option.some.inj hn]
  | cons i path ih =>
    obtain ⟨c, hc, hn⟩ := at?_cons.1 hn
    have hstate := ih (h.child (List.mem_of_getElem? hc)) hn
    exact (h.formed.spreads hc (hstate ▸ hx)).1.trans hstate

theorem at?_append {s : Stmt} {path below : List Nat} :
    s.at? (path ++ below) = some n ↔ ∃ m, s.at? path = some m ∧ m.at? below = some n := by
  induction path generalizing s with
  | nil => simp [at?]
  | cons i path ih =>
    simp only [List.cons_append, at?_cons, ih]
    constructor
    · rintro ⟨c, hc, m, hm, hn⟩
      exact ⟨m, ⟨c, hc, hm⟩, hn⟩
    · rintro ⟨m, ⟨c, hc, hm⟩, hn⟩
      exact ⟨c, hc, m, hm, hn⟩

/-- a state that spreads is that of every node above -/
theorem Shaped.above {s : Stmt} {path below : List Nat} (h : s.Shaped) (hn : s.at? (path ++ below) = some n)
    (hx : n.state.spreads = true) : ∃ m, s.at? path = some m ∧ m.state = n.state := by
  obtain ⟨m, hm, hn⟩ := at?_append.1 hn
  exact ⟨m, hm, (h.at hm).state_of_at hn hx⟩

/-- **The nodes in states that spread are one path** -/
theorem Shaped.comparable {s n' : Stmt} {p q : List Nat} (h : s.Shaped) (hn : s.at? p = some n)
    (hn' : s.at? q = some n') (hx : n.state.spreads = true) (hx' : n'.state.spreads = true) : p <+: q ∨ q <+: p := by
  induction p generalizing s q with
  | nil => exact .inl (List.nil_prefix)
  | cons i p ih =>
    cases q with
    | nil => exact .inr (List.nil_prefix)
    | cons j q =>
      obtain ⟨c, hc, hn⟩ := at?_cons.1 hn
      obtain ⟨d, hd, hn'⟩ := at?_cons.1 hn'
      have hshaped := h.child (List.mem_of_getElem? hc)
      have hi := (h.formed.spreads hc ((hshaped.state_of_at hn hx) ▸ hx)).2
      have hj := (h.formed.spreads hd (((h.child (List.mem_of_getElem? hd)).state_of_at hn' hx') ▸ hx')).2
      obtain rfl : i = j := hi.trans hj.symm
      obtain rfl := Option.some.inj (hc.symm.trans hd)
      simpa using ih hshaped hn hn'

end Spreads

/-! ## Runs -/

/-- the tree after a run of steps, each with a frame and surroundings of its own -/
def after (s : Stmt) (turns : List (Frame × Live σ ρ)) : Stmt := turns.foldl (fun s t => (s.step t.1 t.2).stmt) s

theorem Shaped.after {s : Stmt} (h : s.Shaped) (turns : List (Frame × Live σ ρ)) : (s.after turns).Shaped := by
  induction turns generalizing s with
  | nil => exact h
  | cons t turns ih => exact ih ((steps_step t.1 s t.2).shaped h)

/-- **The shape of half-executed trees.** Step a fresh tree any number of times, with any host, variables, picker and
control each time, and whatever the answers. Then every node is `Formed`: a node not begun is fresh, a sequence has done
its children before the active one and has not touched those behind it, a conditional has touched the chosen arm only,
and no assignment, print or `leave` is under way. A node that failed has failed nodes above it only and one failed child
at most. The nodes under way are one path from the root, so one action is under way at most. -/
theorem formed_of_steps {s : Stmt} (h : s.isPristine = true) (turns : List (Frame × Live σ ρ)) :
    let t := s.after turns
    (∀ (path : List Nat) (n : Stmt), t.at? path = some n → n.Formed) ∧
    (∀ (path below : List Nat) (n : Stmt), t.at? (path ++ below) = some n →
      n.state = .failed ∨ n.state = .inProgress → ∃ above, t.at? path = some above ∧ above.state = n.state) ∧
    (∀ (path : List Nat) (n c d : Stmt) (i j : Nat), t.at? path = some n → n.children[i]? = some c →
      n.children[j]? = some d → c.state = .failed → d.state = .failed → i = j) ∧
    (∀ (p q : List Nat) (n n' : Stmt), t.at? p = some n → t.at? q = some n' → n.state = .inProgress →
      n'.state = .inProgress → p <+: q ∨ q <+: p) ∧
    ∀ (p q : List Nat) (m m' : Mark) (kind kind' : ActionKind) (target target' : Expr),
      t.at? p = some (.action m kind target) → t.at? q = some (.action m' kind' target') →
      m.state = .inProgress → m'.state = .inProgress → p = q := by
  intro t
  have hshaped : t.Shaped := (shaped_of_isPristine h).after turns
  have hspreads : ∀ n : Stmt, n.state = .failed ∨ n.state = .inProgress → n.state.spreads = true := by
    rintro n (hn | hn) <;> rw [hn] <;> rfl
  refine ⟨fun path n hn => (hshaped.at hn).formed, fun path below n hn hx => hshaped.above hn (hspreads n hx),
    fun path n c d i j hn hc hd hfc hfd => ?_, fun p q n n' hn hn' hx hx' => ?_, ?_⟩
  · have hformed := (hshaped.at hn).formed
    have hi := (hformed.spreads hc (hspreads c (.inl hfc))).2
    have hj := (hformed.spreads hd (hspreads d (.inl hfd))).2
    exact hi.trans hj.symm
  · exact hshaped.comparable hn hn' (hspreads n (.inr hx)) (hspreads n' (.inr hx'))
  · intro p q m m' kind kind' target target' hp hq hm hm'
    -- of two comparable paths to nodes without children neither goes on behind the other
    have hleaf : ∀ (p q : List Nat) (m m' : Mark) (kind kind' : ActionKind) (target target' : Expr),
        t.at? p = some (.action m kind target) → t.at? q = some (.action m' kind' target') → p <+: q → p = q := by
      rintro p - m m' kind kind' target target' hp hq ⟨below, rfl⟩
      obtain ⟨n, hn, hbelow⟩ := at?_append.1 hq
      obtain rfl := Option.some.inj (hp.symm.trans hn)
      cases below with
      | nil => simp
      | cons i below => simp [at?, children] at hbelow
    obtain hpre | hpre := hshaped.comparable hp hq (hspreads _ (.inr hm)) (hspreads _ (.inr hm'))
    · exact hleaf _ _ _ _ _ _ _ _ hp hq hpre
    · exact (hleaf _ _ _ _ _ _ _ _ hq hp hpre).symm

/-- says so, then goes to a place again and again for as long as it is asked to -/
def shuttle : Stmt :=
  .sequence {} [.print {} (.boolean {} true), .loop {} (.boolean {} true)
    (.conditional {} (.boolean {} true) (.sequence {} [.action {} .moveTo (.cube {} ⟨1, 0, 0⟩), .leave {}] 0) none
      none)] 0

/-- the unit is still on its way when it is asked -/
def underWay : Frame × Live Rehearsal Replay :=
  ({ task := "shuttle", unit := ⟨7⟩, selection := {} },
    { store := .empty, picker := ⟨[]⟩
      host := { world := { size := ⟨4, 4, 1⟩ : Setting }.world, final := .inProgress } })

/-- after two steps the action is under way below a sequence, an arm, a loop and the root, and so are all of these -/
theorem formed_of_steps_shuttle :
    let t := shuttle.after [underWay, underWay]
    shuttle.isPristine = true ∧ ((t.at? [1, 0, 0, 0]).map fun n => n.state) = some .inProgress ∧
      ∃ above, t.at? [1, 0] = some above ∧ above.state = .inProgress ∧ above.Formed := by
  intro t
  have hp : shuttle.isPristine = true := by decide
  have hstate : ((t.at? [1, 0, 0, 0]).map fun n => n.state) = some .inProgress := by decide +kernel
  obtain ⟨hformed, habove, -⟩ := formed_of_steps hp [underWay, underWay]
  obtain ⟨n, hn, hx⟩ := Option.map_eq_some_iff.1 hstate
  obtain ⟨above, ha, hax⟩ := habove [1, 0] [0, 0] n hn (.inr hx)
  exact ⟨hp, hstate, above, ha, hax.trans hx, hformed [1, 0] above ha⟩

end Stmt

end Errand
