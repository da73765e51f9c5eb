/-
Waiting: trees with an action under way, and what a step does to the host.

In a shaped tree the nodes under way are one path, so a node awaits an action exactly when the child that is due does
(`Parted.awaits`, `awaits_then`, `awaits_else`, `awaits_loop`). Hence the effect of a step can be told from where it
stands (`Steps.effect`): it leaves the host alone and no action is under way before or after, or it asks for the status
of the action under way, or it starts an action and asks at once. After a status the tree awaits the action exactly when
that is in progress. A step that waits does nothing else (`Steps.asks`): no test above the action is evaluated again.
-/
import Errand.Proofs.Script.Shape

namespace Errand

namespace Stmt

/-! ## Actions under way -/

/-- an action of this kind is under way somewhere in the tree -/
inductive Awaits (kind : ActionKind) : Stmt → Prop
  | here {m : Mark} {target : Expr} (hm : m.state = .inProgress) : Awaits kind (.action m kind target)
  | inside {s c : Stmt} (hc : c ∈ s.children) (h : Awaits kind c) : Awaits kind s

/-- no action is under way -/
def Idle (s : Stmt) : Prop := ∀ kind, ¬ s.Awaits kind

variable {s c new thenS : Stmt} {elseS : Option Stmt} {kind : ActionKind}

/-- all nodes above the action are under way -/
theorem Awaits.state (h : s.Awaits kind) (hs : s.Shaped) : s.state = .inProgress := by
  induction h with
  | here hm => exact hm
  | inside hc h ih =>
    have hstate := ih (hs.child hc)
    obtain ⟨i, hi⟩ := List.getElem?_of_mem hc
    exact (hs.formed.spreads hi (by rw [hstate]; rfl)).1.trans hstate

/-- of two actions under way each lies below the child that is due, so they are the same -/
theorem Awaits.unique {kind' : ActionKind} (h : s.Awaits kind) (hs : s.Shaped) (h' : s.Awaits kind') :
    kind = kind' := by
  induction h with
  | here hm =>
    cases h' with
    | here => rfl
    | inside hc => exact absurd hc List.not_mem_nil
  | inside hc h ih =>
    cases h' with
    | here => exact absurd hc List.not_mem_nil
    | inside hd h' =>
      obtain ⟨i, hi⟩ := List.getElem?_of_mem hc
      obtain ⟨j, hj⟩ := List.getElem?_of_mem hd
      have hdue := (hs.formed.spreads hi (by rw [h.state (hs.child hc)]; rfl)).2
      have hdue' := (hs.formed.spreads hj (by rw [h'.state (hs.child hd)]; rfl)).2
      obtain rfl : i = j := hdue.trans hdue'.symm
      obtain rfl := Option.some.inj (hi.symm.trans hj)
      exact ih (hs.child hc) h'

theorem Shaped.idle (hs : s.Shaped) (h : s.state ≠ .inProgress) : s.Idle := fun _ hw => h (hw.state hs)

theorem Shaped.idle_of_isTerminal (hs : s.Shaped) (h : s.state.isTerminal = true) : s.Idle := by
  apply hs.idle
  intro hx
  rw [hx] at h
  cases h

theorem idle_of_isPristine (h : s.isPristine = true) : s.Idle :=
  (shaped_of_isPristine h).idle (by simp [state_of_isPristine h])

theorem awaits_iff_children (hs : s.children ≠ []) : s.Awaits kind ↔ ∃ c ∈ s.children, c.Awaits kind := by
  constructor
  · intro h
    cases h with
    | here hm => exact absurd rfl hs
    | inside hc h => exact ⟨_, hc, h⟩
  · rintro ⟨c, hc, h⟩
    exact .inside hc h

/-- in a sequence only a child at the place of the active one can await an action -/
theorem Parted.within {body : List Stmt} {i j k : Nat} (h : Parted body i j) (hb : ∀ c ∈ body, c.Shaped)
    (hc : body[k]? = some c) (hw : c.Awaits kind) : i ≤ k ∧ k < j := by
  have hstate := hw.state (hb c (List.mem_of_getElem? hc))
  exact h.spreads hc (by rw [hstate]; rfl)

theorem Parted.awaits {m : Mark} {body : List Stmt} {i idx : Nat} (h : Parted body i (i + 1))
    (hb : ∀ c ∈ body, c.Shaped) (hc : body[i]? = some c) : (sequence m body idx).Awaits kind ↔ c.Awaits kind := by
  have hmem : c ∈ body := List.mem_of_getElem? hc
  rw [awaits_iff_children (List.ne_nil_of_mem hmem)]
  constructor
  · rintro ⟨d, hd, hw⟩
    obtain ⟨k, hk⟩ := List.getElem?_of_mem hd
    have hwithin := h.within hb hk hw
    obtain rfl : k = i := by omega
    obtain rfl := Option.some.inj (hk.symm.trans hc)
    exact hw
  · exact fun hw => ⟨c, hmem, hw⟩

theorem Parted.idle (m : Mark) {body : List Stmt} {i : Nat} (idx : Nat) (h : Parted body i i)
    (hb : ∀ c ∈ body, c.Shaped) : (sequence m body idx).Idle := by
  intro kind hw
  cases hw with
  | inside hc hw =>
    obtain ⟨k, hk⟩ := List.getElem?_of_mem hc
    have hwithin := h.within hb hk hw
    omega

theorem awaits_then {m : Mark} {test : Expr} {chosen : Option Branch} (he : ∀ s ∈ elseS, s.isPristine = true) :
    (conditional m test thenS elseS chosen).Awaits kind ↔ thenS.Awaits kind := by
  rw [awaits_iff_children (by simp [children])]
  constructor
  · rintro ⟨c, hc, hw⟩
    rcases List.mem_cons.1 hc with rfl | hc
    · exact hw
    · exact absurd hw (idle_of_isPristine (he c (Option.mem_toList.1 hc)) kind)
  · exact fun hw => ⟨thenS, List.mem_cons_self, hw⟩

theorem awaits_else {m : Mark} {test : Expr} {chosen : Option Branch} (ht : thenS.isPristine = true) :
    (conditional m test thenS (some c) chosen).Awaits kind ↔ c.Awaits kind := by
  rw [awaits_iff_children (by simp [children])]
  constructor
  · rintro ⟨d, hd, hw⟩
    rcases List.mem_cons.1 hd with rfl | hd
    · exact absurd hw (idle_of_isPristine ht kind)
    · obtain rfl := List.mem_singleton.1 hd
      exact hw
  · exact fun hw => ⟨c, List.mem_cons_of_mem _ List.mem_cons_self, hw⟩

theorem awaits_loop {m : Mark} {test : Expr} {body : Stmt} :
    (loop m test body).Awaits kind ↔ body.Awaits kind := by
  rw [awaits_iff_children (by simp [children])]
  constructor
  · rintro ⟨c, hc, hw⟩
    obtain rfl := List.mem_singleton.1 hc
    exact hw
  · exact fun hw => ⟨body, List.mem_singleton_self body, hw⟩

theorem idle_conditional {m : Mark} {test : Expr} {chosen : Option Branch} (ht : thenS.Idle)
    (he : ∀ s ∈ elseS, s.isPristine = true) : (conditional m test thenS elseS chosen).Idle :=
  fun kind hw => ht kind ((awaits_then he).1 hw)

theorem idle_loop {m : Mark} {test : Expr} {body : Stmt} (hb : body.Idle) : (loop m test body).Idle :=
  fun kind hw => hb kind (awaits_loop.1 hw)

/-- a body that starts over awaited nothing -/
theorem awaits_resumed {body : Stmt} (hb : body.Shaped) : body.resumed.Awaits kind ↔ body.Awaits kind := by
  unfold resumed
  split
  · rfl
  · rename_i hstate
    exact iff_of_false (idle_of_isPristine body.isPristine_reset kind) (hb.idle hstate kind)

/-! ## Where an action is under way -/

theorem awaits_iff_at :
    s.Awaits kind ↔ ∃ path m target, s.at? path = some (.action m kind target) ∧ m.state = .inProgress := by
  constructor
  · intro h
    induction h with
    | here hm => exact ⟨[], _, _, rfl, hm⟩
    | inside hc h ih =>
      obtain ⟨path, m, target, hat, hm⟩ := ih
      obtain ⟨i, hi⟩ := List.getElem?_of_mem hc
      exact ⟨i :: path, m, target, at?_cons.2 ⟨_, hi, hat⟩, hm⟩
  · rintro ⟨path, m, target, hat, hm⟩
    induction path generalizing s with
    | nil =>
      obtain rfl := Option.some.inj hat
      exact .here hm
    | cons i path ih =>
      obtain ⟨c, hc, hat⟩ := at?_cons.1 hat
      exact .inside (List.mem_of_getElem? hc) (ih hat)

/-- nothing lies below a node without children -/
theorem eq_of_prefix_leaf {n n' : Stmt} {p q : List Nat} (hn : s.at? p = some n) (hleaf : n.children = [])
    (hn' : s.at? q = some n') (h : p <+: q) : p = q := by
  obtain ⟨below, rfl⟩ := h
  obtain ⟨d, hd, hbelow⟩ := at?_append.1 hn'
  obtain rfl := Option.some.inj (hn.symm.trans hd)
  cases below with
  | nil => simp
  | cons i below =>
    obtain ⟨c, hc, -⟩ := at?_cons.1 hbelow
    simp [hleaf] at hc

theorem Shaped.awaits_at_unique {m m' : Mark} {kind' : ActionKind} {target target' : Expr} {p q : List Nat}
    (h : s.Shaped) (hp : s.at? p = some (.action m kind target)) (hm : m.state = .inProgress)
    (hq : s.at? q = some (.action m' kind' target')) (hm' : m'.state = .inProgress) : p = q := by
  have hx : (Stmt.action m kind target).state.spreads = true := by rw [state, mark, hm]; rfl
  have hx' : (Stmt.action m' kind' target').state.spreads = true := by rw [state, mark, hm']; rfl
  obtain hpre | hpre := h.comparable hp hq hx hx'
  · exact eq_of_prefix_leaf hp rfl hq hpre
  · exact (eq_of_prefix_leaf hq rfl hp hpre).symm

/-! ## Effects of a step -/

variable {σ ρ : Type} [Host σ] [Picker ρ] {fr : Frame} {lv lv' : Live σ ρ} {rs : List Reading} {r r' : Stepped σ ρ}

/-- the host was asked how an action is going, and the step took note of the answer -/
structure Asked (fr : Frame) (kind : ActionKind) (host : σ) (action : Option ActionKind) (r : Stepped σ ρ) : Prop where
  left : r.live.host = (Host.poll fr.unit host).2
  answered : ∃ x, r.result = .ok x
  goes : (Host.poll fr.unit host).1 = .inProgress →
    r.result = .ok .inProgress ∧ r.stmt.Awaits kind ∧ r.live.action = action
  ends : (Host.poll fr.unit host).1 ≠ .inProgress → r.stmt.Idle ∧ r.live.action = none

inductive Effect (fr : Frame) (s : Stmt) (lv : Live σ ρ) (r : Stepped σ ρ) : Prop
  | quiet (hs : s.Idle) (hr : r.stmt.Idle) (hh : r.live.host = lv.host) (ha : r.live.action = lv.action)
  | waits {kind : ActionKind} (hs : s.Awaits kind) (h : Asked fr kind lv.host lv.action r)
  | starts {kind : ActionKind} {c : Command} (hs : s.Idle)
    (h : Asked fr kind (Host.command fr.unit c lv.host) (some kind) r)

/-- a step and the step of the child that is due in it: they await the same, and the node passes the effect on -/
structure Around (s s' : Stmt) (lv lv' : Live σ ρ) (r r' : Stepped σ ρ) : Prop where
  before : ∀ kind, s'.Awaits kind ↔ s.Awaits kind
  after : ∀ kind, r'.stmt.Awaits kind ↔ r.stmt.Awaits kind
  found : lv.host = lv'.host ∧ lv.action = lv'.action
  left : r'.live.host = r.live.host ∧ r'.live.action = r.live.action
  goes : r.result = .ok .inProgress → r'.result = .ok .inProgress
  answered : ∀ x, r.result = .ok x → ∃ y, r'.result = .ok y

section Around

variable {s' : Stmt} {host : σ} {action : Option ActionKind}

omit [Picker ρ] in
theorem Asked.around (h : Asked fr kind host action r) (ha : Around s s' lv lv' r r') :
    Asked fr kind host action r' where
  left := ha.left.1.trans h.left
  answered := h.answered.elim ha.answered
  goes hp :=
    have ⟨hr, hw, hact⟩ := h.goes hp
    ⟨ha.goes hr, (ha.after kind).2 hw, ha.left.2.trans hact⟩
  ends hp :=
    have ⟨hi, hact⟩ := h.ends hp
    ⟨fun k hk => hi k ((ha.after k).1 hk), ha.left.2.trans hact⟩

omit [Picker ρ] in
theorem Effect.around (h : Effect fr s lv r) (ha : Around s s' lv lv' r r') : Effect fr s' lv' r' := by
  have hidle : s.Idle → s'.Idle := fun hs k hk => hs k ((ha.before k).1 hk)
  cases h with
  | quiet hs hr hh hact =>
    exact .quiet (hidle hs) (fun k hk => hr k ((ha.after k).1 hk)) ((ha.left.1.trans hh).trans ha.found.1)
      ((ha.left.2.trans hact).trans ha.found.2)
  | waits hs h =>
    rw [ha.found.1, ha.found.2] at h
    exact .waits ((ha.before _).2 hs) (h.around ha)
  | starts hs h =>
    rw [ha.found.1] at h
    exact .starts (hidle hs) (h.around ha)

end Around

omit [Picker ρ] in
/-- a step that ends its node without a call to the host is quiet -/
theorem Effect.of_ended (hs : s.Idle) (hr : r.stmt.Shaped) (hx : r.stmt.state.isTerminal = true)
    (hh : r.live.host = lv.host) (ha : r.live.action = lv.action) : Effect fr s lv r :=
  .quiet hs (hr.idle_of_isTerminal hx) hh ha

theorem idle_action {m : Mark} {kind : ActionKind} {target : Expr} (h : m.state ≠ .inProgress) :
    (Stmt.action m kind target).Idle := by
  intro k hw
  cases hw with
  | here hm => exact h hm
  | inside hc => exact absurd hc List.not_mem_nil

/-- only an action awaits without children -/
theorem idle_leaf (hs : s.children = []) (ha : ∀ m kind target, s ≠ .action m kind target) : s.Idle := by
  intro k hw
  cases hw with
  | here hm => exact ha _ _ _ rfl
  | inside hc => exact absurd (hs ▸ hc) List.not_mem_nil

omit [Picker ρ] in
theorem asked_pollAction (fr : Frame) (m : Mark) (kind : ActionKind) (target : Expr) (lv : Live σ ρ) :
    Asked fr kind lv.host lv.action
      (settle m (.action · kind target) (.ok (pollAction fr lv).1) (pollAction fr lv).2) where
  left := by
    rw [settle, pollAction_live]
  answered := ⟨_, rfl⟩
  goes hp := by
    have hx : (pollAction fr lv).1 = .inProgress := by
      rw [pollAction]
      split <;> simp_all
    rw [settle, pollAction_live, if_pos hp, hx]
    exact ⟨rfl, .here rfl, rfl⟩
  ends hp := by
    have hx : (pollAction fr lv).1 ≠ .inProgress := by
      rw [pollAction]
      split <;> simp_all
    rw [settle, pollAction_live, if_neg hp]
    exact ⟨idle_action hx, rfl⟩

omit [Host σ] [Picker ρ] in
theorem carry_inProgress {x : Except EvalError ExecState} (h : x = .ok .inProgress) : carry x = .ok .inProgress := by
  rw [h]
  rfl

theorem carry_answered {x : Except EvalError ExecState} {a : ExecState} (h : x = .ok a) : ∃ b, carry x = .ok b := by
  rw [h]
  cases a <;> exact ⟨_, rfl⟩

theorem startAction_fresh {state : ExecState} {target : Expr} {e : EvalError}
    (h : startAction fr state kind target lv = (.error e, lv')) : state = .notStarted := by
  by_contra hs
  rw [startAction, if_pos hs] at h
  cases h

/-! ## Nodes around the step -/

section Compound

variable {m : Mark} {body : List Stmt} {idx idx' : Nat} {child : Stmt} {x : Except EvalError ExecState}

omit [Host σ] [Picker ρ] in
theorem around_sequence (hs : Shaped (.sequence m body idx)) (hm : m.state.isTerminal = false)
    (hc : body[idx]? = some child) (hr : r.stmt.Shaped) (hgoes : r.result = .ok .inProgress → x = .ok .inProgress)
    (hx : ∀ y, r.result = .ok y → ∃ z, x = .ok z) :
    Around child (.sequence m body idx) lv lv r (settle m (.sequence · (body.set idx r.stmt) idx') x r.live) where
  before k := (hs.parted hm).awaits (fun c hc => hs.child hc) hc
  after k := by
    have hset : (body.set idx r.stmt)[idx]? = some r.stmt :=
      List.getElem?_set_self (List.getElem?_eq_some_iff.1 hc).1
    refine ((hs.parted hm).set r.stmt).awaits (fun c hc => ?_) hset
    obtain hc | rfl := List.mem_or_eq_of_mem_set hc
    · exact hs.child hc
    · exact hr
  found := ⟨rfl, rfl⟩
  left := ⟨rfl, rfl⟩
  goes := hgoes
  answered := hx

omit [Host σ] [Picker ρ] in
theorem around_loop {body : Stmt} {test : Expr} {p : ρ} {live : Live σ ρ} (hb : body.Shaped)
    (hh : live.host = r.live.host) (ha : live.action = r.live.action)
    (hgoes : r.result = .ok .inProgress → x = .ok .inProgress) (hx : ∀ y, r.result = .ok y → ∃ z, x = .ok z) :
    Around body.resumed (.loop m test body) { lv with picker := p } lv r (settle m (.loop · test r.stmt) x live) where
  before _ := awaits_loop.trans (awaits_resumed hb).symm
  after _ := awaits_loop
  found := ⟨rfl, rfl⟩
  left := ⟨hh, ha⟩
  goes := hgoes
  answered := hx

end Compound

/-- **What a step does to the host** -/
theorem Steps.effect (h : Steps fr s lv rs r) (hs : s.Shaped) : Effect fr s lv r := by
  have hshaped := h.shaped hs
  induction h with
  | idle hterm => exact .of_ended (hs.idle_of_isTerminal hterm) hs hterm rfl rfl
  | @sequenceEnd m body idx lv hm hc =>
    have hidle := (hs.parted_end hm hc).idle m idx fun c hc => hs.child hc
    exact .of_ended hidle hshaped rfl rfl rfl
  | sequenceNext hm hc h hr ih =>
    have hchild := hs.child (List.mem_of_getElem? hc)
    exact (ih hchild (h.shaped hchild)).around
      (around_sequence hs hm hc (h.shaped hchild) (fun hp => by simp [hr] at hp) fun x _ => ⟨_, rfl⟩)
  | sequenceStay hm hc h hr ih =>
    have hchild := hs.child (List.mem_of_getElem? hc)
    exact (ih hchild (h.shaped hchild)).around
      (around_sequence hs hm hc (h.shaped hchild) carry_inProgress fun x => carry_answered)
  | conditionalError hm ht =>
    obtain rfl := chooseArm_error ht
    obtain ⟨p, rfl⟩ := chooseArm_live ht
    have hthen := idle_of_isPristine (hs.then_fresh hm (.inl rfl))
    exact .of_ended (idle_conditional hthen (hs.else_fresh hm (.inl rfl))) hshaped rfl rfl rfl
  | conditionalTrue hm ht h ih =>
    have hchild := hs.child List.mem_cons_self
    have hfresh := hs.else_fresh hm (chooseArm_ok ht)
    obtain ⟨p, rfl⟩ := chooseArm_live ht
    exact (ih hchild (h.shaped hchild)).around
      { before := fun k => awaits_then hfresh
        after := fun k => awaits_then hfresh
        found := ⟨rfl, rfl⟩
        left := ⟨rfl, rfl⟩
        goes := id
        answered := fun x hx => ⟨x, hx⟩ }
  | conditionalFalse hm ht h ih =>
    have hchild := hs.child (List.mem_cons_of_mem _ List.mem_cons_self)
    have hfresh := hs.then_fresh hm (chooseArm_ok ht)
    obtain ⟨p, rfl⟩ := chooseArm_live ht
    exact (ih hchild (h.shaped hchild)).around
      { before := fun k => awaits_else hfresh
        after := fun k => awaits_else hfresh
        found := ⟨rfl, rfl⟩
        left := ⟨rfl, rfl⟩
        goes := id
        answered := fun x hx => ⟨x, hx⟩ }
  | conditionalNone hm ht =>
    have hthen := idle_of_isPristine (hs.then_fresh hm (chooseArm_ok ht))
    obtain ⟨p, rfl⟩ := chooseArm_live ht
    exact .of_ended (idle_conditional hthen (by simp)) hshaped rfl rfl rfl
  | loopError hm ht =>
    have hbody := (hs.child List.mem_cons_self).idle (entersLoop_rests ht (by simp))
    obtain ⟨p, rfl⟩ := entersLoop_live ht
    exact .of_ended (idle_loop hbody) hshaped rfl rfl rfl
  | loopEnd hm ht =>
    have hbody := (hs.child List.mem_cons_self).idle (entersLoop_rests ht (by simp))
    obtain ⟨p, rfl⟩ := entersLoop_live ht
    exact .of_ended (idle_loop hbody) hshaped rfl rfl rfl
  | loopLeft hm ht h hr hl ih =>
    have hchild := shaped_resumed (hs.child List.mem_cons_self)
    obtain ⟨p, rfl⟩ := entersLoop_live ht
    exact (ih hchild (h.shaped hchild)).around
      (around_loop (hs.child List.mem_cons_self) rfl rfl (fun hp => by simp [hr] at hp) fun x _ => ⟨_, rfl⟩)
  | loopAgain hm ht h hr hl ih =>
    have hchild := shaped_resumed (hs.child List.mem_cons_self)
    obtain ⟨p, rfl⟩ := entersLoop_live ht
    exact (ih hchild (h.shaped hchild)).around
      (around_loop (hs.child List.mem_cons_self) rfl rfl (fun hp => by simp [hr] at hp) fun x _ => ⟨_, rfl⟩)
  | loopStay hm ht h hr ih =>
    have hchild := shaped_resumed (hs.child List.mem_cons_self)
    obtain ⟨p, rfl⟩ := entersLoop_live ht
    exact (ih hchild (h.shaped hchild)).around
      (around_loop (hs.child List.mem_cons_self) rfl rfl carry_inProgress fun x => carry_answered)
  | assignError hm hv | assign hm hv | printError hm hv | print hm hv =>
    obtain ⟨p, rfl⟩ := Live.evaluate_live hv
    exact .of_ended (idle_leaf rfl (by simp)) hshaped rfl rfl rfl
  | @actionError m kind target lv lv' e hm ha =>
    have hidle : (Stmt.action m kind target).Idle := idle_action (by simp [startAction_fresh ha])
    obtain ⟨p, rfl⟩ := startAction_error ha
    exact .of_ended hidle hshaped rfl rfl rfl
  | @action m kind target lv lv' hm ha =>
    obtain ⟨hstate, rfl⟩ | ⟨hstate, p, c, rfl⟩ := startAction_ok ha
    · have hunder : m.state = .inProgress := by
        cases hx : m.state <;> simp_all [ExecState.isTerminal]
      exact .waits (.here hunder) (asked_pollAction fr m kind target _)
    · have hasked := asked_pollAction fr m kind target
        { lv with picker := p, host := Host.command fr.unit c lv.host, action := some kind }
      exact .starts (idle_action (by simp [hstate])) hasked
  | leave hm =>
    exact .of_ended (idle_leaf rfl (by simp)) hshaped rfl rfl rfl

/-! ## Steps that wait -/

/-- a conditional with an action under way below it has decided its test -/
theorem Awaits.chose {m : Mark} {test : Expr} {chosen : Option Branch}
    (h : Awaits kind (.conditional m test thenS elseS chosen)) (hs : Shaped (.conditional m test thenS elseS chosen)) :
    Chose .inProgress chosen thenS elseS := by
  have hf := hs.formed
  unfold Formed at hf
  rw [h.state hs] at hf
  exact hf

/-- a loop with an action under way in its body goes on with the body, whatever its test would say now -/
theorem loop_goes_on {m : Mark} {test : Expr} {body : Stmt} {lv' : Live σ ρ} {x : Except EvalError Bool}
    (hs : Shaped (.loop m test body)) (hw : Awaits kind (.loop m test body))
    (h : entersLoop fr test body lv = (x, lv')) :
    loopReads fr test body lv = [] ∧ body.resumed.Awaits kind ∧ lv' = lv := by
  have hbody := hs.child List.mem_cons_self
  have hunder := (awaits_loop.1 hw).state hbody
  rw [entersLoop, if_pos hunder] at h
  exact ⟨by rw [loopReads, if_pos hunder], (awaits_resumed hbody).2 (awaits_loop.1 hw), (Prod.mk.inj h).2.symm⟩

/-- **A step that waits only asks**: while an action is under way nothing is evaluated, and all that happens is that the
unit is asked once how it is going -/
theorem Steps.asks (h : Steps fr s lv rs r) (hs : s.Shaped) (hl : lv.leaving = false) (hw : s.Awaits kind) :
    rs = [] ∧ r.live = (pollAction fr lv).2 := by
  induction h with
  | idle hterm => exact absurd hw (hs.idle_of_isTerminal hterm kind)
  | @sequenceEnd m body idx lv hm hc =>
    exact absurd hw ((hs.parted_end hm hc).idle m idx (fun c hc => hs.child hc) kind)
  | sequenceNext hm hc h hr ih | sequenceStay hm hc h hr ih =>
    have hchild := hs.child (List.mem_of_getElem? hc)
    exact ih hchild hl (((hs.parted hm).awaits (fun c hc => hs.child hc) hc).1 hw)
  | conditionalError hm ht =>
    obtain rfl := chooseArm_error ht
    exact nomatch hw.chose hs
  | conditionalTrue hm ht h ih =>
    cases hw.chose hs with
    | onTrue hthen helse =>
      cases ht
      exact ih (hs.child List.mem_cons_self) hl ((awaits_then helse).1 hw)
    | onFalse => cases ht
  | conditionalFalse hm ht h ih =>
    cases hw.chose hs with
    | onTrue => cases ht
    | onFalse hthen helse =>
      cases ht
      exact ih (hs.child (List.mem_cons_of_mem _ List.mem_cons_self)) hl ((awaits_else hthen).1 hw)
  | conditionalNone hm ht =>
    cases hw.chose hs with
    | onTrue => cases ht
  | loopError hm ht | loopEnd hm ht =>
    have hbody := (awaits_loop.1 hw).state (hs.child List.mem_cons_self)
    exact absurd hbody (entersLoop_rests ht (by simp))
  | @loopLeft m test body lv lv' rs r hm ht h hr hleft ih =>
    obtain ⟨hreads, hresumed, rfl⟩ := loop_goes_on hs hw ht
    have hlive := (ih (shaped_resumed (hs.child List.mem_cons_self)) hl hresumed).2
    -- the answer of a unit sets no `leave` on its way
    rw [hlive, pollAction_live] at hleft
    exact absurd hleft (by simp [hl])
  | loopAgain hm ht h hr hleft ih | loopStay hm ht h hr ih =>
    obtain ⟨hreads, hresumed, rfl⟩ := loop_goes_on hs hw ht
    rw [hreads]
    exact ih (shaped_resumed (hs.child List.mem_cons_self)) hl hresumed
  | assignError hm hv | assign hm hv | printError hm hv | print hm hv =>
    exact absurd hw (idle_leaf rfl (by simp) kind)
  | @actionError m kind target lv lv' e hm ha =>
    exact absurd hw (idle_action (by simp [startAction_fresh ha]) _)
  | @action m kind target lv lv' hm ha =>
    have hstate : m.state ≠ .notStarted := by
      intro hm'
      exact idle_action (by simp [hm']) _ hw
    obtain ⟨-, rfl⟩ | ⟨hfresh, -⟩ := startAction_ok ha
    · exact ⟨by rw [startReads, if_pos hstate], rfl⟩
    · exact absurd hfresh hstate
  | leave hm => exact absurd hw (idle_leaf rfl (by simp) kind)

end Stmt

end Errand
