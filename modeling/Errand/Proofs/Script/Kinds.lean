/-
Kinds: what the form of an expression says about its value.

`kind?` gives the kind that the form of an expression fixes, and `operands` the kinds that each form needs. An operand
suits its place if its own form fixes that kind, or if it is a variable without a value of another kind; `WellKinded`
asks that of every operand at every node. A mismatch would be the fault of an operand, of one that does not suit or of
one further down, so a well-kinded expression has none (`eval_ne_mismatch`).
-/
import Errand.Proofs.Script.BigStep
import Errand.Rehearsal

namespace Errand

namespace Expr

variable {ρ : Type} [Picker ρ] {cx : Context} {store : Store} {e : Expr} {o : Kind × Expr}

/-- **The form fixes the kind** of every value -/
theorem kind_of_value {v : Value} {k : Kind} (h : e.HasValue ρ cx v) (hk : e.kind? = some k) : v.kind = k := by
  obtain ⟨p, p', h⟩ := h
  exact (grounded_of_value h).kind k hk

/-- the operand suits the kind that it is needed in: its form fixes that kind, or it is a variable that is unbound or
bound to a value of that kind -/
def Suits (store : Store) (o : Kind × Expr) : Prop :=
  o.2.kind? = some o.1 ∨
    ∃ s n, o.2 = .var s n ∧ (store.get? n = none ∨ ∃ v, store.get? n = some v ∧ v.kind = o.1)

/-- at every node every operand suits -/
def WellKinded (store : Store) (e : Expr) : Prop := ∀ x ∈ e.nodes, ∀ o ∈ x.operands, Suits store o

theorem WellKinded.suits (h : e.WellKinded store) (ho : o ∈ e.operands) : Suits store o :=
  h e (by rw [nodes_eq]; exact List.mem_cons_self) o ho

theorem mem_children_of_operand (ho : o ∈ e.operands) : o.2 ∈ e.children :=
  e.map_snd_operands ▸ List.mem_map_of_mem ho

theorem WellKinded.operand (h : e.WellKinded store) (ho : o ∈ e.operands) : o.2.WellKinded store := fun x hx =>
  h x (by rw [nodes_eq]; exact List.mem_cons_of_mem _ (List.mem_flatMap.2 ⟨_, mem_children_of_operand ho, hx⟩))

/-- what suits has no value of another kind -/
theorem kind_of_suits {v : Value} (hs : Suits cx.store o) (h : o.2.HasValue ρ cx v) : v.kind = o.1 := by
  obtain hk | ⟨s, n, hvar, hstore⟩ := hs
  · exact kind_of_value h hk
  · obtain ⟨p, p', h⟩ := h
    rw [hvar] at h
    have hget : cx.store.get? n = some v := Except.ok.inj (congrArg Prod.fst h)
    obtain hnone | ⟨w, hw, hk⟩ := hstore
    · cases hnone.symm.trans hget
    · cases hw.symm.trans hget
      exact hk

/-- **Where all operands suit, kinds are never mixed up** -/
theorem eval_ne_mismatch (h : e.WellKinded cx.store) (p p' : ρ) (kind found : Kind) (s : Span) :
    (e.eval cx).run p ≠ (.error (.typeMismatch kind found s), p') := by
  induction e using children_induct generalizing p p' with
  | h e ih =>
    intro hrun
    obtain ⟨o, ho, ⟨v, hv, hk⟩ | ⟨q, q', hrun⟩⟩ := blamed_of_mismatch hrun
    · exact hk (kind_of_suits (h.suits ho) hv)
    · exact ih o.2 (mem_children_of_operand ho) (h.operand ho) q q' hrun

end Expr

namespace Stmt

variable {σ ρ : Type} [Host σ] [Picker ρ]

/-- an action whose target has a value of the required kind gives its command: there is one for every such target -/
theorem startAction_of_value {fr : Frame} {kind : ActionKind} {target : Expr} {lv lv' : Live σ ρ} {v : Value}
    (h : lv.evaluate (target.evalRequired (lv.context fr) kind.targetKind) = (.ok v, lv')) :
    ∃ c, kind.command? v = some c ∧
      startAction fr .notStarted kind target lv =
        (.ok (), { lv' with host := Host.command fr.unit c lv'.host, action := some kind }) := by
  have hk : v.kind = kind.targetKind := Expr.kind_of_evalRequired _ target lv.picker (congrArg Prod.fst h)
  obtain ⟨c, hc⟩ := ActionKind.command?_of_kind hk
  refine ⟨c, hc, ?_⟩
  simp only [startAction, ne_eq, not_true_eq_false, if_false, h, hc]

/-- **Kinds are sound.** A value is of the kind that the form of its expression fixes. Where at every node each operand
is of the kind that the node needs, or is a variable that is unbound or bound to a value of that kind, no evaluation
ends in a mismatch of kinds. And once the target of an action has been evaluated, there is a command for it: the unit
gets it, and the step of the action answers a state. -/
theorem kinds_sound (σ ρ : Type) [Host σ] [Picker ρ] :
    (∀ (cx : Context) (e : Expr) (p p' : ρ) (v : Value) (k : Kind),
      (e.eval cx).run p = (.ok (some v), p') → e.kind? = some k → v.kind = k) ∧
    (∀ (cx : Context) (e : Expr), e.WellKinded cx.store →
      ∀ (p p' : ρ) (k found : Kind) (s : Span), (e.eval cx).run p ≠ (.error (.typeMismatch k found s), p')) ∧
    ∀ (fr : Frame) (m : Mark) (kind : ActionKind) (target : Expr) (lv lv' : Live σ ρ) (v : Value),
      m.state = .notStarted → lv.evaluate (target.evalRequired (lv.context fr) kind.targetKind) = (.ok v, lv') →
      ∃ c, kind.command? v = some c ∧
        let started := { lv' with host := Host.command fr.unit c lv'.host, action := some kind }
        startAction fr m.state kind target lv = (.ok (), started) ∧
          ((Stmt.action m kind target).step fr lv).result = .ok (pollAction fr started).1 := by
  refine ⟨fun cx e p p' v k h => Expr.kind_of_value ⟨p, p', h⟩, fun cx e h => Expr.eval_ne_mismatch h, ?_⟩
  intro fr m kind target lv lv' v hm h
  obtain ⟨c, hc, hstart⟩ := startAction_of_value h
  rw [← hm] at hstart
  have hdue : (Stmt.action m kind target).state.isTerminal = false := by
    change m.state.isTerminal = false
    rw [hm]
    rfl
  refine ⟨c, hc, hstart, ?_⟩
  rw [step, hdue]
  simp only [Bool.false_eq_true, if_false, hstart]
  rfl

/-- the mate is a friend with some room around -/
def beside : Expr :=
  .junction ⟨1, 1⟩ .and (.unitTest ⟨1, 4⟩ .isFriend (.var ⟨1, 14⟩ "mate"))
    (.cubeTest ⟨1, 20⟩ .isPassable (.nextTo ⟨1, 32⟩ (.positionOf ⟨1, 40⟩ (.var ⟨1, 52⟩ "mate"))))

/-- asking about the mate mixes no kinds up, whether anybody has said who that is or not; if the mate were a place, it
would. And who is known to be the mate can be followed. -/
theorem kinds_sound_beside :
    let fr : Frame := { task := "beside", unit := ⟨7⟩, selection := {} }
    let setting : Setting := {
      size := ⟨4, 4, 1⟩
      figures := [{ id := ⟨7⟩, faction? := some ⟨1⟩, position? := some ⟨0, 0, 0⟩ },
        { id := ⟨3⟩, faction? := some ⟨1⟩, position? := some ⟨2, 1, 0⟩ }] }
    let lv (store : Store) : Live Rehearsal Replay := { store, host := { world := setting.world }, picker := ⟨[]⟩ }
    let asked (store : Store) := (lv store).evaluate (beside.eval ((lv store).context fr))
    let mate := Store.ofList [("mate", .unit ⟨3⟩)]
    (∀ store ∈ [Store.empty, mate], beside.WellKinded store ∧
      ∀ k found s, (asked store).1 ≠ .error (.typeMismatch k found s)) ∧
    (asked (.ofList [("mate", .position ⟨1, 1, 0⟩)])).1 = .error (.typeMismatch .unit .position ⟨1, 14⟩) ∧
    (∃ v, (asked mate).1 = .ok (some v) ∧ v.kind = .boolean) ∧
    ∃ c, ActionKind.follow.command? (.unit ⟨3⟩) = some c ∧
      ((Stmt.action {} .follow (.var ⟨2, 8⟩ "mate")).step fr (lv mate)).result = .ok .done := by
  intro fr setting lv asked mate
  obtain ⟨hvalue, hmatch, haction⟩ := kinds_sound Rehearsal Replay
  have hget : mate.get? "mate" = some (.unit ⟨3⟩) := by simp [mate, Store.ofList, Store.get?_set]
  have hoperands : ∀ x ∈ beside.nodes, ∀ o ∈ x.operands,
      o.2.kind? = some o.1 ∨ o ∈ [⟨1, 14⟩, ⟨1, 52⟩].map fun s => (Kind.unit, Expr.var s "mate") := by decide
  have hsuits : ∀ store ∈ [Store.empty, mate], beside.WellKinded store := by
    intro store hstore x hx o ho
    refine (hoperands x hx o ho).imp_right fun hvar => ?_
    obtain ⟨s, -, rfl⟩ := List.mem_map.1 hvar
    refine ⟨s, "mate", rfl, ?_⟩
    rcases List.mem_pair.1 hstore with rfl | rfl
    · exact .inl (by simp [Store.empty, Store.get?])
    · exact .inr ⟨_, hget, rfl⟩
  have hmate : (asked mate).1 = .ok (some (.boolean true)) := by decide +kernel
  have htarget : ((lv mate).evaluate
      ((Expr.var ⟨2, 8⟩ "mate").evalRequired ((lv mate).context fr) .unit)).1 = .ok (.unit ⟨3⟩) := by decide +kernel
  obtain ⟨c, hc, -, hstep⟩ :=
    haction fr {} .follow (.var ⟨2, 8⟩ "mate") (lv mate) _ (.unit ⟨3⟩) rfl (Prod.ext htarget rfl)
  refine ⟨fun store hstore => ⟨hsuits store hstore, fun k found s h => ?_⟩, by decide +kernel,
    ⟨_, hmate, hvalue ((lv mate).context fr) beside ⟨[]⟩ _ _ _ (Prod.ext hmate rfl) rfl⟩, c, hc, hstep⟩
  exact hmatch ((lv store).context fr) beside (hsuits store hstore) ⟨[]⟩ _ k found s (Prod.ext h rfl)

end Stmt

end Errand
