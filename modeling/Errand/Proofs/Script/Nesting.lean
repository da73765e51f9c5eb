/-
Nesting of sequences: a sequence in a sequence says nothing that its children in its place do not.

`Unnests` puts the children of one sequence in its place among the children of another, anywhere in a tree. The two
trees have different paths, different active children and a node more or less, so what relates them while they run is
`Abreast`: they stand at the same point of the program. Of two sequences that is a matter of what they have left to do,
`Lined`: child for child the same, save that the active child may be a nested sequence whose own rest stands in its
place. A loop is abreast of a loop only if its next iteration starts abreast too, so their programs are part of it.

What a sequence comes to depends on its active child and what is left behind that child (`passOn`), so two sequences in
a row pass on what one does (`passOn_passOn`). Hence `Steps.abreast`, one step at a time and rule by rule, and
`unnests_unobservable` for whole runs.
-/
import Errand.Proofs.Script.Shape

namespace Errand

namespace Stmt

/-- the tree with the children of one nested sequence in the place of that sequence -/
inductive Unnests : Stmt → Stmt → Prop
  | here {m m' : Mark} {before inner behind : List Stmt} (hi : inner ≠ []) :
      Unnests (.sequence m (before ++ .sequence m' inner 0 :: behind) 0) (.sequence m (before ++ inner ++ behind) 0)
  | child {m : Mark} {before behind : List Stmt} {c d : Stmt} {idx : Nat} (h : Unnests c d) :
      Unnests (.sequence m (before ++ c :: behind) idx) (.sequence m (before ++ d :: behind) idx)
  | thenArm {m : Mark} {test : Expr} {thenS thenS' : Stmt} {elseS : Option Stmt} {chosen : Option Branch}
      (h : Unnests thenS thenS') :
      Unnests (.conditional m test thenS elseS chosen) (.conditional m test thenS' elseS chosen)
  | elseArm {m : Mark} {test : Expr} {thenS elseS elseS' : Stmt} {chosen : Option Branch} (h : Unnests elseS elseS') :
      Unnests (.conditional m test thenS (some elseS) chosen) (.conditional m test thenS (some elseS') chosen)
  | body {m : Mark} {test : Expr} {body body' : Stmt} (h : Unnests body body') :
      Unnests (.loop m test body) (.loop m test body')

/-- what two sequences have left to do, the active children first: one of a nested sequence stands in its place -/
inductive Lined (R : Stmt → Stmt → Prop) : List Stmt → List Stmt → Prop
  | nil : Lined R [] []
  | cons {c d : Stmt} {rest rest' : List Stmt} (hc : R c d) (h : Lined R rest rest') :
      Lined R (c :: rest) (d :: rest')
  | nested {m : Mark} {inner : List Stmt} {idx : Nat} {rest rest' : List Stmt} (hm : m.state.isTerminal = false)
      (hi : inner.drop idx ≠ []) (h : Lined R rest rest') :
      Lined R (.sequence m inner idx :: rest) (inner.drop idx ++ rest')

/-- two half-executed trees at the same point of programs that nest their sequences differently -/
inductive Abreast : Stmt → Stmt → Prop
  | same (s : Stmt) : Abreast s s
  /-- nothing of a finished tree is executed any more, unless a loop starts over -/
  | ended {s t : Stmt} (hs : s.state.isTerminal = true) (h : t.state = s.state) : Abreast s t
  | sequence {m : Mark} {body body' : List Stmt} {idx idx' : Nat}
      (h : Lined Abreast (body.drop idx) (body'.drop idx')) : Abreast (.sequence m body idx) (.sequence m body' idx')
  | conditional {m : Mark} {test : Expr} {thenS thenS' : Stmt} {elseS elseS' : Option Stmt} {chosen : Option Branch}
      (ht : Abreast thenS thenS') (he : Option.Rel Abreast elseS elseS') :
      Abreast (.conditional m test thenS elseS chosen) (.conditional m test thenS' elseS' chosen)
  | loop {m : Mark} {test : Expr} {body body' : Stmt} (hp : Relation.ReflGen Unnests body.reset body'.reset)
      (hb : Abreast body body') : Abreast (.loop m test body) (.loop m test body')

/-! ## What is left of a sequence -/

section Sequence

variable {x : Except EvalError ExecState} {leaving last last' : Bool} {body rest : List Stmt} {idx : Nat} {c : Stmt}

/-- what a sequence comes to when its active child comes to `x`; `last` says that there is no child behind it -/
def passOn (x : Except EvalError ExecState) (leaving last : Bool) : Except EvalError ExecState :=
  if x = .ok .done then .ok (if leaving || last then .done else .inProgress) else carry x

/-- what a sequence has left to do when its active child comes to `x` and is left as `c` -/
def leftBy (x : Except EvalError ExecState) (c : Stmt) (rest : List Stmt) : List Stmt :=
  if x = .ok .done then rest else c :: rest

/-- a sequence around a sequence passes on what one sequence does -/
theorem passOn_passOn : passOn (passOn x leaving last) leaving last' = passOn x leaving (last && last') := by
  rcases x with e | _ | _ | _ | _ <;> cases leaving <;> cases last <;> rfl

/-- a sequence that is not at its end is under way -/
theorem passOn_of_open (h : (stateAfter (passOn x leaving last)).isTerminal = false) :
    passOn x leaving last = .ok .inProgress := by
  rcases x with e | _ | _ | _ | _ <;> cases leaving <;> cases last <;> first | rfl | cases h

/-- with a sequence under way, a sequence that is its active child either hands over or is under way too -/
theorem passOn_inner (h : passOn (passOn x leaving last) leaving last' = .ok .inProgress) :
    (passOn x leaving last = .ok .done ∧ x = .ok .done ∧ last = true) ∨
      (passOn x leaving last = .ok .inProgress ∧ (x = .ok .done → last = false)) := by
  rcases x with e | _ | _ | _ | _ <;> cases leaving <;> cases last <;> simp_all [passOn, carry]

theorem leftBy_append (x : Except EvalError ExecState) (c : Stmt) (rest behind : List Stmt) :
    leftBy x c (rest ++ behind) = leftBy x c rest ++ behind := by
  unfold leftBy
  split <;> rfl

theorem leftBy_ne_nil (h : x = .ok .done → rest.isEmpty = false) (c : Stmt) : leftBy x c rest ≠ [] := by
  unfold leftBy
  split
  · rename_i hx
    exact List.isEmpty_eq_false_iff.1 (h hx)
  · exact List.cons_ne_nil c rest

theorem drop_of_getElem? (hc : body[idx]? = some c) : body.drop idx = c :: body.drop (idx + 1) := by
  obtain ⟨hi, rfl⟩ := List.getElem?_eq_some_iff.1 hc
  exact List.drop_eq_getElem_cons hi

theorem passOn_next (hd : body.drop idx = c :: rest) (hx : x = .ok .done) :
    passOn x leaving rest.isEmpty = .ok (if leaving || body.length ≤ idx + 1 then .done else .inProgress) := by
  have hlast : rest.isEmpty = decide (body.length ≤ idx + 1) := by
    rw [← (drop_eq_cons hd).2, Bool.eq_iff_iff, List.isEmpty_iff, List.drop_eq_nil_iff, decide_eq_true_iff]
  rw [passOn, if_pos hx, hlast]

theorem passOn_stay (hx : x ≠ .ok .done) : passOn x leaving last = carry x := if_neg hx

theorem drop_next (hd : body.drop idx = c :: rest) (hx : x = .ok .done) (new : Stmt) :
    (body.set idx new).drop (idx + 1) = leftBy x new rest := by
  rw [leftBy, if_pos hx, List.drop_set_of_lt (by omega), (drop_eq_cons hd).2]

theorem drop_stay (hd : body.drop idx = c :: rest) (hx : x ≠ .ok .done) (new : Stmt) :
    (body.set idx new).drop idx = leftBy x new rest := by
  obtain ⟨hi, -⟩ := List.getElem?_eq_some_iff.1 (drop_eq_cons hd).1
  rw [leftBy, if_neg hx, List.drop_eq_getElem_cons (by simpa using hi), List.getElem_set_self,
    List.drop_set_of_lt (by omega), (drop_eq_cons hd).2]

variable {σ ρ : Type} [Host σ] [Picker ρ] {fr : Frame} {lv : Live σ ρ} {rs : List Reading} {r : Stepped σ ρ} {m : Mark}

/-- a step of an open sequence is a step of its active child -/
theorem Steps.of_sequence (h : Steps fr (.sequence m body idx) lv rs r) (hm : m.state.isTerminal = false)
    (hd : body.drop idx = c :: rest) :
    ∃ r' body' idx', Steps fr c lv rs r' ∧ body'.drop idx' = leftBy r'.result r'.stmt rest ∧
      r = settle m (.sequence · body' idx') (passOn r'.result r'.live.leaving rest.isEmpty) r'.live := by
  have hc := (drop_eq_cons hd).1
  cases h with
  | idle hs => exact (Bool.false_ne_true (hm.symm.trans hs)).elim
  | sequenceEnd _ hc' => cases hc.symm.trans hc'
  | sequenceNext _ hc' h hr =>
    cases hc.symm.trans hc'
    exact ⟨_, _, _, h, drop_next hd hr _, by rw [passOn_next hd hr]⟩
  | sequenceStay _ hc' h hr =>
    cases hc.symm.trans hc'
    exact ⟨_, _, _, h, drop_stay hd hr _, by rw [passOn_stay hr]⟩

theorem Steps.sequence (h : Steps fr c lv rs r) (hm : m.state.isTerminal = false) (hd : body.drop idx = c :: rest) :
    ∃ body' idx', body'.drop idx' = leftBy r.result r.stmt rest ∧
      Steps fr (.sequence m body idx) lv rs
        (settle m (.sequence · body' idx') (passOn r.result r.live.leaving rest.isEmpty) r.live) := by
  have hc := (drop_eq_cons hd).1
  by_cases hr : r.result = .ok .done
  · refine ⟨_, _, drop_next hd hr _, ?_⟩
    rw [passOn_next hd hr]
    exact .sequenceNext hm hc h hr
  · refine ⟨_, _, drop_stay hd hr _, ?_⟩
    rw [passOn_stay hr]
    exact .sequenceStay hm hc h hr

end Sequence

/-! ## Trees abreast -/

section Abreast

variable {R : Stmt → Stmt → Prop} {s t : Stmt} {l l' : List Stmt}

theorem Lined.refl (hR : ∀ c, R c c) (l : List Stmt) : Lined R l l := by
  induction l with
  | nil => exact .nil
  | cons c rest ih => exact .cons (hR c) ih

theorem Lined.append (hR : ∀ c, R c c) (h : Lined R l l') (before : List Stmt) :
    Lined R (before ++ l) (before ++ l') := by
  induction before with
  | nil => exact h
  | cons c rest ih => exact .cons (hR c) ih

theorem Lined.isEmpty (h : Lined R l l') : l'.isEmpty = l.isEmpty := by
  cases h with
  | nil | cons => rfl
  | nested _ hi => simp [hi]

/-- a nested sequence either hands over or stands for what it has left itself -/
theorem Lined.leftBy {m : Mark} {inner gs : List Stmt} {idx : Nat} {g : Stmt} {x : Except EvalError ExecState}
    {leaving : Bool} (h : Lined R l l') (hi : inner.drop idx = leftBy x g gs)
    (ho : (stateAfter (passOn (passOn x leaving gs.isEmpty) leaving l.isEmpty)).isTerminal = false) :
    Lined R
      (Stmt.leftBy (passOn x leaving gs.isEmpty)
        (.sequence { m with state := stateAfter (passOn x leaving gs.isEmpty) } inner idx) l)
      (Stmt.leftBy x g gs ++ l') := by
  obtain ⟨hy, hx, hlast⟩ | ⟨hy, hmore⟩ := passOn_inner (passOn_of_open ho)
  · rw [Stmt.leftBy, if_pos hy, Stmt.leftBy, if_pos hx, List.isEmpty_iff.1 hlast]
    exact h
  · rw [Stmt.leftBy, if_neg (by simp [hy]), ← hi]
    refine .nested (by simp [hy, stateAfter, ExecState.isTerminal]) ?_ h
    rw [hi]
    exact leftBy_ne_nil hmore g

theorem Abreast.same_else (elseS : Option Stmt) : Option.Rel Abreast elseS elseS := by
  cases elseS with
  | none => exact .none
  | some s => exact .some (.same s)

theorem Abreast.state (h : Abreast s t) : t.state = s.state := by
  cases h with
  | ended _ h => exact h
  | same | sequence | conditional | loop => rfl

theorem Abreast.of_sequence {m : Mark} {body : List Stmt} {idx : Nat} (h : Abreast (.sequence m body idx) t)
    (hm : m.state.isTerminal = false) :
    ∃ body' idx', t = .sequence m body' idx' ∧ Lined Abreast (body.drop idx) (body'.drop idx') := by
  cases h with
  | same => exact ⟨body, idx, rfl, .refl .same _⟩
  | ended hs => exact (Bool.false_ne_true (hm.symm.trans hs)).elim
  | sequence h => exact ⟨_, _, rfl, h⟩

theorem Abreast.of_conditional {m : Mark} {test : Expr} {thenS : Stmt} {elseS : Option Stmt} {chosen : Option Branch}
    (h : Abreast (.conditional m test thenS elseS chosen) t) (hm : m.state.isTerminal = false) :
    ∃ thenS' elseS', t = .conditional m test thenS' elseS' chosen ∧ Abreast thenS thenS' ∧
      Option.Rel Abreast elseS elseS' := by
  cases h with
  | same => exact ⟨thenS, elseS, rfl, .same _, same_else elseS⟩
  | ended hs => exact (Bool.false_ne_true (hm.symm.trans hs)).elim
  | conditional ht he => exact ⟨_, _, rfl, ht, he⟩

theorem Abreast.of_loop {m : Mark} {test : Expr} {body : Stmt} (h : Abreast (.loop m test body) t)
    (hm : m.state.isTerminal = false) :
    ∃ body', t = .loop m test body' ∧ Relation.ReflGen Unnests body.reset body'.reset ∧ Abreast body body' := by
  cases h with
  | same => exact ⟨body, rfl, .refl, .same body⟩
  | ended hs => exact (Bool.false_ne_true (hm.symm.trans hs)).elim
  | loop hp hb => exact ⟨_, rfl, hp, hb⟩

/-- a statement that no statements are part of is abreast of itself only -/
theorem Abreast.of_leaf (h : Abreast s t) (hs : s.state.isTerminal = false)
    (hn : match s with | .sequence .. | .conditional .. | .loop .. => False | _ => True) : t = s := by
  cases h with
  | same => rfl
  | ended h => exact (Bool.false_ne_true (hs.symm.trans h)).elim
  | sequence | conditional | loop => exact hn.elim

/-! ## Starting abreast -/

theorem Unnests.isPristine (h : Unnests s t) (hp : s.isPristine = true) : t.isPristine = true := by
  induction h with
  | here => simp_all [Stmt.isPristine, allPristine_eq]
  | child _ ih | body _ ih => simp_all [Stmt.isPristine, allPristine_eq]
  | thenArm _ ih => simp_all [Stmt.isPristine]
  | elseArm _ ih => simp_all [Stmt.isPristine, elsePristine]

theorem Unnests.abreast (h : Unnests s t) (hp : s.isPristine = true) : Abreast s t := by
  induction h with
  | @here m m' before inner behind hi =>
    obtain ⟨-, hb⟩ := isPristine_sequence hp
    have hm : m'.state.isTerminal = false := isTerminal_of_isPristine (hb (.sequence m' inner 0) (by simp))
    have hplace : Lined Abreast (.sequence m' inner 0 :: behind) (inner.drop 0 ++ behind) :=
      .nested hm hi (.refl .same behind)
    refine .sequence ?_
    rw [List.drop_zero, List.drop_zero, List.append_assoc]
    exact hplace.append .same before
  | @child m before behind c d idx h ih =>
    obtain ⟨rfl, hb⟩ := isPristine_sequence hp
    have hplace : Lined Abreast (c :: behind) (d :: behind) := .cons (ih (hb c (by simp))) (.refl .same behind)
    exact .sequence (hplace.append .same before)
  | thenArm h ih =>
    simp only [Stmt.isPristine, Bool.and_eq_true] at hp
    exact .conditional (ih hp.1.2) (Abreast.same_else _)
  | elseArm h ih =>
    simp only [Stmt.isPristine, elsePristine, Bool.and_eq_true] at hp
    exact .conditional (.same _) (.some (ih hp.2))
  | body h ih =>
    simp only [Stmt.isPristine, Bool.and_eq_true] at hp
    refine .loop ?_ (ih hp.2)
    rw [reset_of_isPristine hp.2, reset_of_isPristine (h.isPristine hp.2)]
    exact .single h

theorem abreast_of_isPristine (h : Relation.ReflGen Unnests s t) (hp : s.isPristine = true) : Abreast s t := by
  cases h with
  | refl => exact .same s
  | single h => exact h.abreast hp

/-- bodies abreast go on abreast, in the midst of an iteration and between two -/
theorem Abreast.resumed (hp : Relation.ReflGen Unnests s.reset t.reset) (h : Abreast s t) :
    Abreast s.resumed t.resumed := by
  unfold Stmt.resumed
  rw [h.state]
  split
  · exact h
  · exact abreast_of_isPristine hp s.isPristine_reset

end Abreast

/-! ## Steps abreast -/

section Step

variable {σ ρ : Type} [Host σ] [Picker ρ] {fr : Frame} {s t : Stmt} {lv : Live σ ρ} {rs : List Reading}
variable {r r' : Stepped σ ρ}

/-- two steps that differ in nothing but the nesting of the trees they leave -/
structure Matches (r r' : Stepped σ ρ) : Prop where
  result : r'.result = r.result
  live : r'.live = r.live
  stmt : Abreast r.stmt r'.stmt

omit [Host σ] [Picker ρ] in
/-- nodes around steps that match, in marks and answers alike -/
theorem Matches.settle {m : Mark} {f g : Mark → Stmt} (x : Except EvalError ExecState) (lv : Live σ ρ)
    (h : Abreast (f { m with state := stateAfter x }) (g { m with state := stateAfter x })) :
    Matches (settle m f x lv) (settle m g x lv) :=
  ⟨rfl, rfl, h⟩

theorem Steps.same (h : Steps fr s lv rs r) : ∃ r', Steps fr s lv rs r' ∧ Matches r r' := ⟨r, h, rfl, rfl, .same _⟩

/-- sequences lined up stay lined up when the active child of the one takes a step -/
theorem Steps.lined {m : Mark} {c : Stmt} {rest body' after : List Stmt} {idx' n : Nat} (h : Steps fr c lv rs r)
    (hm : m.state.isTerminal = false) (hl : Lined Abreast (c :: rest) (body'.drop idx'))
    (ih : ∀ t, Abreast c t → ∃ r', Steps fr t lv rs r' ∧ Matches r r')
    (ha : after.drop n = leftBy r.result r.stmt rest) :
    ∃ r', Steps fr (.sequence m body' idx') lv rs r' ∧
      Matches (settle m (.sequence · after n) (passOn r.result r.live.leaving rest.isEmpty) r.live) r' := by
  generalize hd : body'.drop idx' = l' at hl
  cases hl with
  | cons hcd hrest =>
    obtain ⟨r', h', hresult, hlive, hstmt⟩ := ih _ hcd
    obtain ⟨after', n', ha', hs⟩ := h'.sequence hm hd
    refine ⟨_, hs, ?_⟩
    rw [hresult, hlive, hrest.isEmpty]
    refine .settle _ _ (.sequence ?_)
    rw [ha, ha', hresult, leftBy, leftBy]
    split
    · exact hrest
    · exact .cons hstmt hrest
  | @nested mi inner i _ rest' hmi hi hrest =>
    obtain ⟨g, gs, hg⟩ := List.exists_cons_of_ne_nil hi
    -- a step of the nested sequence is a step of its own active child, and that is also the other sequence's
    obtain ⟨rg, inner', i', hstep, hinner, rfl⟩ := h.of_sequence hmi hg
    rw [hg, List.cons_append] at hd
    obtain ⟨after', n', ha', hs⟩ := hstep.sequence hm hd
    refine ⟨_, hs, ?_⟩
    have hpass : passOn rg.result rg.live.leaving (gs ++ rest').isEmpty =
        passOn (passOn rg.result rg.live.leaving gs.isEmpty) rg.live.leaving rest.isEmpty := by
      rw [passOn_passOn, ← hrest.isEmpty]
      cases gs <;> rfl
    rw [hpass]
    refine .settle _ _ ?_
    cases ho : (stateAfter (passOn (passOn rg.result rg.live.leaving gs.isEmpty) rg.live.leaving
      rest.isEmpty)).isTerminal with
    | true => exact .ended ho rfl
    | false =>
      refine .sequence ?_
      rw [ha, ha', leftBy_append]
      exact hrest.leftBy hinner ho

omit [Host σ] [Picker ρ] in
/-- loops abreast stay abreast when the bodies they go on with take steps that match -/
theorem Matches.loop {body body' : Stmt} (hp : Relation.ReflGen Unnests body.reset body'.reset)
    (h : r.stmt.reset = body.resumed.reset) (h' : r'.stmt.reset = body'.resumed.reset) (hm : Matches r r') (m : Mark)
    (test : Expr) : Abreast (.loop m test r.stmt) (.loop m test r'.stmt) := by
  refine .loop ?_ hm.stmt
  rwa [h, h', reset_resumed, reset_resumed]

theorem entersLoop_of_state {body body' : Stmt} (h : body'.state = body.state) (fr : Frame) (test : Expr)
    (lv : Live σ ρ) : entersLoop fr test body' lv = entersLoop fr test body lv := by
  rw [entersLoop, entersLoop, h]

omit [Picker ρ] in
theorem loopReads_of_state {body body' : Stmt} (h : body'.state = body.state) (fr : Frame) (test : Expr)
    (lv : Live σ ρ) : loopReads fr test body' lv = loopReads fr test body lv := by
  rw [loopReads, loopReads, h]

/-- **One step.** Trees abreast evaluate and answer the same, do the same to their surroundings, and stay abreast -/
theorem Steps.abreast (h : Steps fr s lv rs r) (hst : Abreast s t) : ∃ r', Steps fr t lv rs r' ∧ Matches r r' := by
  induction h generalizing t with
  | idle hs => exact ⟨_, .idle (hst.state ▸ hs), by rw [hst.state], rfl, hst⟩
  | sequenceEnd hm hc =>
    obtain ⟨body', idx', rfl, hl⟩ := hst.of_sequence hm
    rw [List.drop_eq_nil_of_le (List.getElem?_eq_none_iff.1 hc)] at hl
    have hd := List.drop_eq_nil_iff.1 (List.isEmpty_iff.1 hl.isEmpty)
    exact ⟨_, .sequenceEnd hm (List.getElem?_eq_none_iff.2 hd), .settle _ _ (.ended rfl rfl)⟩
  | sequenceNext hm hc h hr ih =>
    obtain ⟨body', idx', rfl, hl⟩ := hst.of_sequence hm
    have hd := drop_of_getElem? hc
    rw [← passOn_next hd hr]
    exact h.lined hm (hd ▸ hl) (fun t => ih) (drop_next hd hr _)
  | sequenceStay hm hc h hr ih =>
    obtain ⟨body', idx', rfl, hl⟩ := hst.of_sequence hm
    have hd := drop_of_getElem? hc
    rw [← passOn_stay hr]
    exact h.lined hm (hd ▸ hl) (fun t => ih) (drop_stay hd hr _)
  | conditionalError hm ht =>
    obtain ⟨thenS', elseS', rfl, hthen, helse⟩ := hst.of_conditional hm
    exact ⟨_, .conditionalError hm ht, .settle _ _ (.conditional hthen helse)⟩
  | conditionalTrue hm ht h ih =>
    obtain ⟨thenS', elseS', rfl, hthen, helse⟩ := hst.of_conditional hm
    obtain ⟨r', hs, hresult, hlive, hstmt⟩ := ih hthen
    refine ⟨_, .conditionalTrue hm ht hs, ?_⟩
    rw [hresult, hlive]
    exact .settle _ _ (.conditional hstmt helse)
  | conditionalFalse hm ht h ih =>
    obtain ⟨thenS', elseS', rfl, hthen, helse⟩ := hst.of_conditional hm
    cases helse with
    | some helse =>
      obtain ⟨r', hs, hresult, hlive, hstmt⟩ := ih helse
      refine ⟨_, .conditionalFalse hm ht hs, ?_⟩
      rw [hresult, hlive]
      exact .settle _ _ (.conditional hthen (.some hstmt))
  | conditionalNone hm ht =>
    obtain ⟨thenS', elseS', rfl, hthen, helse⟩ := hst.of_conditional hm
    cases helse
    exact ⟨_, .conditionalNone hm ht, .settle _ _ (.conditional hthen .none)⟩
  | loopError hm ht =>
    obtain ⟨body', rfl, hp, hb⟩ := hst.of_loop hm
    rw [← entersLoop_of_state hb.state] at ht
    rw [← loopReads_of_state hb.state]
    exact ⟨_, .loopError hm ht, .settle _ _ (.loop hp hb)⟩
  | loopEnd hm ht =>
    obtain ⟨body', rfl, hp, hb⟩ := hst.of_loop hm
    rw [← entersLoop_of_state hb.state] at ht
    rw [← loopReads_of_state hb.state]
    exact ⟨_, .loopEnd hm ht, .settle _ _ (.loop hp hb)⟩
  | loopLeft hm ht h hr hl ih =>
    obtain ⟨body', rfl, hp, hb⟩ := hst.of_loop hm
    obtain ⟨r', hs, hmatch⟩ := ih (hb.resumed hp)
    rw [← entersLoop_of_state hb.state] at ht
    rw [← loopReads_of_state hb.state, ← hmatch.live]
    exact ⟨_, .loopLeft hm ht hs (hmatch.result ▸ hr) (hmatch.live ▸ hl),
      .settle _ _ (hmatch.loop hp h.program hs.program _ _)⟩
  | loopAgain hm ht h hr hl ih =>
    obtain ⟨body', rfl, hp, hb⟩ := hst.of_loop hm
    obtain ⟨r', hs, hmatch⟩ := ih (hb.resumed hp)
    rw [← entersLoop_of_state hb.state] at ht
    rw [← loopReads_of_state hb.state, ← hmatch.live]
    exact ⟨_, .loopAgain hm ht hs (hmatch.result ▸ hr) (hmatch.live ▸ hl),
      .settle _ _ (hmatch.loop hp h.program hs.program _ _)⟩
  | loopStay hm ht h hr ih =>
    obtain ⟨body', rfl, hp, hb⟩ := hst.of_loop hm
    obtain ⟨r', hs, hmatch⟩ := ih (hb.resumed hp)
    rw [← entersLoop_of_state hb.state] at ht
    rw [← loopReads_of_state hb.state, ← hmatch.result, ← hmatch.live]
    exact ⟨_, .loopStay hm ht hs (hmatch.result ▸ hr), .settle _ _ (hmatch.loop hp h.program hs.program _ _)⟩
  | assignError hm hv => exact hst.of_leaf hm trivial ▸ (Steps.assignError hm hv).same
  | assign hm hv => exact hst.of_leaf hm trivial ▸ (Steps.assign hm hv).same
  | printError hm hv => exact hst.of_leaf hm trivial ▸ (Steps.printError hm hv).same
  | print hm hv => exact hst.of_leaf hm trivial ▸ (Steps.print hm hv).same
  | actionError hm ha => exact hst.of_leaf hm trivial ▸ (Steps.actionError hm ha).same
  | action hm ha => exact hst.of_leaf hm trivial ▸ (Steps.action hm ha).same
  | leave hm => exact hst.of_leaf hm trivial ▸ (Steps.leave hm).same

/-- trees abreast take steps that match, and evaluate the same -/
theorem Abreast.step (h : Abreast s t) (fr : Frame) (lv : Live σ ρ) :
    Matches (s.step fr lv) (t.step fr lv) ∧ t.readings fr lv = s.readings fr lv := by
  obtain ⟨r', hs, hmatch⟩ := (steps_step fr s lv).abreast h
  exact ⟨step_of_steps hs ▸ hmatch, readings_of_steps hs⟩

theorem Abreast.after (h : Abreast s t) (turns : List (Frame × Live σ ρ)) :
    Abreast (s.after turns) (t.after turns) := by
  induction turns generalizing s t with
  | nil => exact h
  | cons turn turns ih => exact ih (h.step turn.1 turn.2).1.stmt

/-- **Nesting of sequences is unobservable.** Take a fresh tree and put the children of sequences within sequences in
the place of these, as often and wherever in the tree you like, but of no empty ones. Step both trees any number of
times, with any host, variables, picker and control each time. Then the next step is the same for both: it answers the
same state or error; it leaves the same variables, output, picker, host, waiting action and `leave` on its way; and it
evaluates the same expressions in the same order, with the same to read. -/
theorem unnests_unobservable (hp : s.isPristine = true) (h : Relation.ReflTransGen Unnests s t)
    (turns : List (Frame × Live σ ρ)) (fr : Frame) (lv : Live σ ρ) :
    let r := (s.after turns).step fr lv
    let r' := (t.after turns).step fr lv
    r'.result = r.result ∧ r'.live = r.live ∧
      (t.after turns).readings fr lv = (s.after turns).readings fr lv := by
  have key : t.isPristine = true ∧ ((t.after turns).step fr lv).result = ((s.after turns).step fr lv).result ∧
      ((t.after turns).step fr lv).live = ((s.after turns).step fr lv).live ∧
      (t.after turns).readings fr lv = (s.after turns).readings fr lv := by
    induction h with
    | refl => exact ⟨hp, rfl, rfl, rfl⟩
    | tail _ h ih =>
      obtain ⟨hp', hresult, hlive, hreads⟩ := ih
      obtain ⟨hmatch, hreads'⟩ := ((h.abreast hp').after turns).step fr lv
      exact ⟨h.isPristine hp', hmatch.result.trans hresult, hmatch.live.trans hlive, hreads'.trans hreads⟩
  exact key.2

end Step

/-- says four things, one of them in a loop that it leaves, and one that it never comes to -/
def chant : Stmt :=
  .sequence {}
    [.sequence {}
      [.print {} (.boolean {} true),
        .loop {} (.boolean {} true)
          (.sequence {} [.sequence {} [.print {} (.boolean {} false), .leave {}] 0, .print {} (.boolean {} true)] 0)] 0,
      .print {} (.boolean {} false)] 0

/-- the same with one sequence around all and one in the loop -/
def plainChant : Stmt :=
  .sequence {}
    [.print {} (.boolean {} true),
      .loop {} (.boolean {} true)
        (.sequence {} [.print {} (.boolean {} false), .leave {}, .print {} (.boolean {} true)] 0),
      .print {} (.boolean {} false)] 0

theorem unnests_chant : Relation.ReflTransGen Unnests chant plainChant := by
  refine .tail (.single (@Unnests.here {} {} [] _ [_] (List.cons_ne_nil _ _))) ?_
  exact @Unnests.child {} [_] [_] _ _ 0 (.body (@Unnests.here {} {} [] _ [_] (List.cons_ne_nil _ _)))

/-- after the third step, which leaves the loop, both come to their last words -/
theorem unnests_unobservable_chant :
    let turns := [underWay, underWay, underWay]
    let r := (chant.after turns).step underWay.1 underWay.2
    let r' := (plainChant.after turns).step underWay.1 underWay.2
    chant.isPristine = true ∧ Relation.ReflTransGen Unnests chant plainChant ∧
      r.live.output = [⟨"shuttle", .boolean false⟩] ∧ r.stmt.state = .done ∧
      r'.result = r.result ∧ r'.live = r.live := by
  intro turns r r'
  have hp : chant.isPristine = true := by decide
  obtain ⟨hresult, hlive, -⟩ := unnests_unobservable hp unnests_chant turns underWay.1 underWay.2
  exact ⟨hp, unnests_chant, by decide +kernel, by decide +kernel, hresult, hlive⟩

end Stmt

end Errand
