/-
Evaluations, and what an evaluation of an expression says about its operands.

Evaluations are run from a picker; `Eval.run_bind_eq_ok` takes a run in sequence apart. Every expression evaluates its
operands first, each with the kind that it needs it to be (`Expr.operands`), and then comes to its own result. Two
inversions say what can be concluded from that result, whatever the expression is:
- `grounded_of_value`: with a value, every operand had a value of the kind it is needed in;
- `blamed_of_mismatch`: with a mismatch of kinds, some operand had a value of another kind, or a mismatch of its own.
No fact about the world is a mismatch (`Unmixed`), so there is no other source.
-/
import Errand.Script.Eval
import Mathlib.Tactic

namespace Errand

/-! ## Runs -/

namespace Eval

variable {ρ α β : Type} {a : Eval ρ α} {f : α → Eval ρ β} {p p' p₁ : ρ}

theorem run_bind_error {e : EvalError} (h : a.run p = (.error e, p₁)) : (a >>= f).run p = (.error e, p₁) := by
  rw [ExceptT.run_bind]
  change StateT.bind a.run _ p = _
  simp only [StateT.bind, h]
  rfl

theorem run_bind_ok {v : α} (h : a.run p = (.ok v, p₁)) : (a >>= f).run p = (f v).run p₁ := by
  rw [ExceptT.run_bind]
  change StateT.bind a.run _ p = _
  simp only [StateT.bind, h]
  rfl

theorem run_bind_eq_ok {w : β} :
    (a >>= f).run p = (.ok w, p') ↔ ∃ v p₁, a.run p = (.ok v, p₁) ∧ (f v).run p₁ = (.ok w, p') := by
  refine ⟨fun h => ?_, fun ⟨v, p₁, ha, hf⟩ => (run_bind_ok ha).trans hf⟩
  rcases ha : a.run p with ⟨e | v, p₁⟩
  · rw [run_bind_error ha] at h
    cases h
  · exact ⟨v, p₁, rfl, (run_bind_ok ha).symm.trans h⟩

theorem run_bind_eq_error {e : EvalError} :
    (a >>= f).run p = (.error e, p') ↔
      a.run p = (.error e, p') ∨ ∃ v p₁, a.run p = (.ok v, p₁) ∧ (f v).run p₁ = (.error e, p') := by
  constructor
  · intro h
    rcases ha : a.run p with ⟨x | v, p₁⟩
    · rw [run_bind_error ha] at h
      cases h
      exact .inl rfl
    · exact .inr ⟨v, p₁, rfl, (run_bind_ok ha).symm.trans h⟩
  · rintro (ha | ⟨v, p₁, ha, hf⟩)
    · exact run_bind_error ha
    · exact (run_bind_ok ha).trans hf

theorem run_liftExcept_eq {x y : Except EvalError α} : (liftExcept x : Eval ρ α).run p = (y, p') ↔ x = y ∧ p = p' := by
  have hrun : (liftExcept x : Eval ρ α).run p = (x, p) := by cases x <;> rfl
  rw [hrun]
  exact Prod.mk_inj

end Eval

/-! ## Facts about the world -/

/-- it ends in no mismatch of kinds -/
def Unmixed {α : Type} (x : Except EvalError α) : Prop := ∀ k found s, x ≠ .error (.typeMismatch k found s)

/-- a value that it gives is of the kind -/
def Yields (k : Kind) (x : Except EvalError (Option Value)) : Prop := ∀ v, x = .ok (some v) → v.kind = k

section

variable {α β : Type} {k : Kind}

theorem Unmixed.ok (v : α) : Unmixed (.ok v) := fun _ _ _ h => nomatch h

theorem Unmixed.bind {x : Except EvalError α} {f : α → Except EvalError β} (hx : Unmixed x) (hf : ∀ v, Unmixed (f v)) :
    Unmixed (x >>= f) := by
  cases x with
  | error e => exact fun k found s h => hx k found s (congrArg Except.error (Except.error.inj h))
  | ok v => exact hf v

theorem Yields.bind {x : Except EvalError α} {f : α → Except EvalError (Option Value)} (hf : ∀ v, Yields k (f v)) :
    Yields k (x >>= f) := by
  cases x with
  | error e => exact fun v h => nomatch h
  | ok v => exact hf v

theorem Yields.map {x : Option α} {f : α → Value} (hf : ∀ a, (f a).kind = k) : Yields k (.ok (x.map f)) := by
  intro v h
  obtain ⟨a, -, rfl⟩ := Option.map_eq_some_iff.1 (Except.ok.inj h)
  exact hf a

end

namespace Context

variable (cx : Context) (s : Span) (u : UnitId)

theorem unmixed_this : Unmixed (cx.this s) := by
  unfold this
  split <;> exact fun _ _ _ h => nomatch h

theorem unmixed_positionOf : Unmixed (cx.positionOf u) := by
  unfold positionOf
  split <;> exact fun _ _ _ h => nomatch h

theorem unmixed_factionOf : Unmixed (cx.factionOf u) := by
  unfold factionOf
  split <;> exact fun _ _ _ h => nomatch h

theorem unmixed_here : Unmixed (cx.here s) := (cx.unmixed_this s).bind cx.unmixed_positionOf

theorem unmixed_nearestUnit (wanted : Option FactionId → Bool) : Unmixed (cx.nearestUnit u wanted) :=
  (cx.unmixed_positionOf u).bind fun _ => .ok _

theorem unmixed_nearestPlace (places : List Cube) : Unmixed (cx.nearestPlace s places) :=
  (cx.unmixed_here s).bind fun _ => .ok _

theorem unmixed_unitFrom (source : UnitSource) : Unmixed (cx.unitFrom s source) := by
  cases source with
  | this => exact (cx.unmixed_this s).bind fun _ => .ok _
  | anyUnit | friend | enemy => exact (cx.unmixed_this s).bind fun u => cx.unmixed_nearestUnit u _
  | selected => exact .ok _

theorem unmixed_placeFrom (source : PlaceSource) : Unmixed (cx.placeFrom s source) := by
  cases source with
  | here => exact (cx.unmixed_here s).bind fun _ => .ok _
  | boulder | log | workshop => exact cx.unmixed_nearestPlace s _
  | selected => exact .ok _

theorem unmixed_readyFor (test : UnitTest) : Unmixed (cx.readyFor s test) := by
  cases test with
  | isEnemy | isFriend => exact (cx.unmixed_this s).bind fun _ => .ok _
  | carriesItem | isAlive => exact .ok _

theorem unmixed_testUnit (test : UnitTest) : Unmixed (cx.testUnit s u test) := by
  cases test with
  | isEnemy | isFriend =>
    refine (cx.unmixed_this s).bind fun v => (cx.unmixed_factionOf v).bind fun _ => ?_
    exact (cx.unmixed_factionOf u).bind fun _ => .ok _
  | carriesItem | isAlive => exact .ok _

theorem yields_unitFrom (source : UnitSource) : Yields .unit (cx.unitFrom s source) := by
  have hnearest (this : UnitId) (wanted : Option FactionId → Bool) : Yields .unit (cx.nearestUnit this wanted) :=
    .bind fun origin => .map fun _ => rfl
  cases source with
  | this => exact .bind fun u => .map (x := some u) fun _ => rfl
  | anyUnit | friend | enemy => exact .bind fun u => hnearest u _
  | selected => exact .map fun _ => rfl

theorem yields_placeFrom (source : PlaceSource) : Yields .position (cx.placeFrom s source) := by
  have hnearest (places : List Cube) : Yields .position (cx.nearestPlace s places) :=
    .bind fun origin => .map fun _ => rfl
  cases source with
  | here => exact .bind fun c => .map (x := some c) fun _ => rfl
  | boulder | log | workshop => exact hnearest _
  | selected => exact .map fun _ => rfl

end Context

namespace Expr

/-! ## Operands -/

/-- the operands, left to right, each with the kind that it is needed in -/
def operands : Expr → List (Kind × Expr)
  | .junction _ _ l r => [(.boolean, l), (.boolean, r)]
  | .not _ i => [(.boolean, i)]
  | .unitTest _ _ u | .positionOf _ u => [(.unit, u)]
  | .cubeTest _ _ c | .nextTo _ c => [(.position, c)]
  | .boolean .. | .cube .. | .unit .. | .place .. | .var .. => []

theorem map_snd_operands (e : Expr) : e.operands.map (·.2) = e.children := by
  cases e <;> rfl

theorem checkKind_eq_ok {e : Expr} {k : Kind} {x y : Option Value} :
    e.checkKind k x = .ok y ↔ x = y ∧ ∀ v, x = some v → v.kind = k := by
  cases x with
  | none => simp [checkKind]
  | some v => by_cases hk : v.kind = k <;> simp [checkKind, hk]

/-- a value of another kind is a mismatch, and nothing else is refused -/
theorem checkKind_eq_error {e : Expr} {k : Kind} {x : Option Value} {err : EvalError} :
    e.checkKind k x = .error err ↔ ∃ v, x = some v ∧ v.kind ≠ k ∧ err = .typeMismatch k v.kind e.span := by
  cases x with
  | none => simp [checkKind]
  | some v => by_cases hk : v.kind = k <;> simp [checkKind, hk, eq_comm (a := err)]

variable {ρ : Type} [Picker ρ] {cx : Context} {e : Expr} {k : Kind} {p p' : ρ}

/-- an operand that passes has no value or one of the kind it is needed in -/
theorem run_operand_eq_ok {β : Type} {f : Option Value → Eval ρ β} {w : β}
    (h : (e.eval cx >>= fun x => liftExcept (e.checkKind k x) >>= f).run p = (.ok w, p')) :
    ∃ x p₁, (e.eval cx).run p = (.ok x, p₁) ∧ (∀ v, x = some v → v.kind = k) ∧ (f x).run p₁ = (.ok w, p') := by
  obtain ⟨x, p₁, hx, h⟩ := Eval.run_bind_eq_ok.1 h
  obtain ⟨y, p₂, hy, h⟩ := Eval.run_bind_eq_ok.1 h
  obtain ⟨hcheck, rfl⟩ := Eval.run_liftExcept_eq.1 hy
  obtain ⟨rfl, hk⟩ := checkKind_eq_ok.1 hcheck
  exact ⟨x, p₁, hx, hk, h⟩

/-- with some picker the expression has the value -/
def HasValue (ρ : Type) [Picker ρ] (cx : Context) (e : Expr) (v : Value) : Prop :=
  ∃ p p' : ρ, (e.eval cx).run p = (.ok (some v), p')

/-- what it takes for an expression to have a value -/
structure Grounded (ρ : Type) [Picker ρ] (cx : Context) (e : Expr) (v : Value) : Prop where
  operands : ∀ o ∈ e.operands, ∃ w, o.2.HasValue ρ cx w ∧ w.kind = o.1
  kind : ∀ k, e.kind? = some k → v.kind = k

/-- **No value without the operands'**: with a value, every operand has one of the kind it is needed in -/
theorem grounded_of_value {v : Value} (h : (e.eval cx).run p = (.ok (some v), p')) : Grounded ρ cx e v := by
  cases e with
  | boolean | cube =>
    cases h
    exact ⟨fun o ho => (nomatch ho), fun k hk => Option.some.inj hk⟩
  | junction s op l r =>
    obtain ⟨x, p₁, hl, hkl, h⟩ := run_operand_eq_ok h
    obtain ⟨y, p₂, hr, hkr, h⟩ := run_operand_eq_ok h
    split at h
    case h_3 => cases h
    all_goals
      cases h
      exact ⟨List.forall_mem_cons.2 ⟨⟨_, ⟨_, _, hl⟩, rfl⟩, List.forall_mem_singleton.2 ⟨_, ⟨_, _, hr⟩, rfl⟩⟩,
        fun k hk => Option.some.inj hk⟩
  | not s i =>
    obtain ⟨x, p₁, hi, hk, h⟩ := run_operand_eq_ok h
    split at h
    · cases h
      exact ⟨List.forall_mem_singleton.2 ⟨_, ⟨_, _, hi⟩, rfl⟩, fun k hk => Option.some.inj hk⟩
    · cases h
  | unitTest s t u =>
    obtain ⟨-, p₁, -, h⟩ := Eval.run_bind_eq_ok.1 h
    obtain ⟨x, p₂, hu, hk, h⟩ := run_operand_eq_ok h
    split at h
    · obtain ⟨b, p₃, -, h⟩ := Eval.run_bind_eq_ok.1 h
      cases h
      exact ⟨List.forall_mem_singleton.2 ⟨_, ⟨_, _, hu⟩, rfl⟩, fun k hk => Option.some.inj hk⟩
    · cases h
  | cubeTest s t c =>
    obtain ⟨x, p₁, hc, hk, h⟩ := run_operand_eq_ok h
    split at h
    · have hv : v.kind = .boolean := Yields.map (f := .boolean) (fun _ => rfl) v (congrArg Prod.fst h)
      exact ⟨List.forall_mem_singleton.2 ⟨_, ⟨_, _, hc⟩, rfl⟩, fun k hk => hv.trans (Option.some.inj hk)⟩
    · cases h
  | positionOf s u =>
    obtain ⟨x, p₁, hu, hk, h⟩ := run_operand_eq_ok h
    split at h
    · obtain ⟨c, p₂, -, h⟩ := Eval.run_bind_eq_ok.1 h
      cases h
      exact ⟨List.forall_mem_singleton.2 ⟨_, ⟨_, _, hu⟩, rfl⟩, fun k hk => Option.some.inj hk⟩
    · cases h
  | nextTo s c =>
    obtain ⟨x, p₁, hc, hk, h⟩ := run_operand_eq_ok h
    split at h
    · obtain ⟨choice, p₂, -, h⟩ := Eval.run_bind_eq_ok.1 h
      have hv : v.kind = .position := Yields.map (f := .position) (fun _ => rfl) v (congrArg Prod.fst h)
      exact ⟨List.forall_mem_singleton.2 ⟨_, ⟨_, _, hc⟩, rfl⟩, fun k hk => hv.trans (Option.some.inj hk)⟩
    · cases h
  | unit s source =>
    obtain ⟨h, -⟩ := Eval.run_liftExcept_eq.1 h
    exact ⟨fun o ho => (nomatch ho), fun k hk => (cx.yields_unitFrom s source v h).trans (Option.some.inj hk)⟩
  | place s source =>
    obtain ⟨h, -⟩ := Eval.run_liftExcept_eq.1 h
    exact ⟨fun o ho => (nomatch ho), fun k hk => (cx.yields_placeFrom s source v h).trans (Option.some.inj hk)⟩
  | var s n => exact ⟨fun o ho => (nomatch ho), fun k hk => nomatch hk⟩

/-- the operand is at fault: it has a value of a kind that it is not needed in, or ends in the mismatch itself -/
def Blamed (ρ : Type) [Picker ρ] (cx : Context) (err : EvalError) (o : Kind × Expr) : Prop :=
  (∃ v, o.2.HasValue ρ cx v ∧ v.kind ≠ o.1) ∨ ∃ q q' : ρ, (o.2.eval cx).run q = (.error err, q')

/-- an error is the fault of the operand, or comes after it -/
theorem run_operand_eq_error {β : Type} {f : Option Value → Eval ρ β} {err : EvalError}
    (h : (e.eval cx >>= fun x => liftExcept (e.checkKind k x) >>= f).run p = (.error err, p')) :
    Blamed ρ cx err (k, e) ∨ ∃ x p₁, (f x).run p₁ = (.error err, p') := by
  obtain h | ⟨x, p₁, hx, h⟩ := Eval.run_bind_eq_error.1 h
  · exact .inl (.inr ⟨_, _, h⟩)
  obtain h | ⟨y, p₂, hy, h⟩ := Eval.run_bind_eq_error.1 h
  · obtain ⟨hcheck, rfl⟩ := Eval.run_liftExcept_eq.1 h
    obtain ⟨v, rfl, hk, -⟩ := checkKind_eq_error.1 hcheck
    exact .inl (.inl ⟨v, ⟨_, _, hx⟩, hk⟩)
  · exact .inr ⟨y, p₂, h⟩

/-- **No mismatch without an operand's**: an expression does not mix up kinds by itself -/
theorem blamed_of_mismatch {kind found : Kind} {s : Span}
    (h : (e.eval cx).run p = (.error (.typeMismatch kind found s), p')) :
    ∃ o ∈ e.operands, Blamed ρ cx (.typeMismatch kind found s) o := by
  cases e with
  | boolean | cube | var => cases h
  | junction sp op l r =>
    obtain h | ⟨x, p₁, h⟩ := run_operand_eq_error h
    · exact ⟨_, List.mem_cons_self, h⟩
    obtain h | ⟨y, p₂, h⟩ := run_operand_eq_error h
    · exact ⟨_, List.mem_cons_of_mem _ List.mem_cons_self, h⟩
    split at h <;> cases h
  | not sp i =>
    obtain h | ⟨x, p₁, h⟩ := run_operand_eq_error h
    · exact ⟨_, List.mem_cons_self, h⟩
    split at h <;> cases h
  | unitTest sp t u =>
    obtain h | ⟨-, p₁, -, h⟩ := Eval.run_bind_eq_error.1 h
    · exact absurd (Eval.run_liftExcept_eq.1 h).1 (cx.unmixed_readyFor sp t _ _ _)
    obtain h | ⟨x, p₂, h⟩ := run_operand_eq_error h
    · exact ⟨_, List.mem_cons_self, h⟩
    split at h
    · obtain h | ⟨b, p₃, -, h⟩ := Eval.run_bind_eq_error.1 h
      · exact absurd (Eval.run_liftExcept_eq.1 h).1 (cx.unmixed_testUnit sp _ t _ _ _)
      · cases h
    · cases h
  | cubeTest sp t c =>
    obtain h | ⟨x, p₁, h⟩ := run_operand_eq_error h
    · exact ⟨_, List.mem_cons_self, h⟩
    split at h <;> cases h
  | positionOf sp u =>
    obtain h | ⟨x, p₁, h⟩ := run_operand_eq_error h
    · exact ⟨_, List.mem_cons_self, h⟩
    split at h
    · obtain h | ⟨c, p₂, -, h⟩ := Eval.run_bind_eq_error.1 h
      · exact absurd (Eval.run_liftExcept_eq.1 h).1 (cx.unmixed_positionOf _ _ _ _)
      · cases h
    · cases h
  | nextTo sp c =>
    obtain h | ⟨x, p₁, h⟩ := run_operand_eq_error h
    · exact ⟨_, List.mem_cons_self, h⟩
    split at h
    · obtain h | ⟨choice, p₂, -, h⟩ := Eval.run_bind_eq_error.1 h
      · cases h
      · cases h
    · cases h
  | unit sp source => exact absurd (Eval.run_liftExcept_eq.1 h).1 (cx.unmixed_unitFrom sp source _ _ _)
  | place sp source => exact absurd (Eval.run_liftExcept_eq.1 h).1 (cx.unmixed_placeFrom sp source _ _ _)

/-! ## Required values -/

theorem value_of_evalSome {v : Value} (h : (e.evalSome cx).run p = (.ok v, p')) : e.HasValue ρ cx v := by
  obtain ⟨x, p₁, hx, h⟩ := Eval.run_bind_eq_ok.1 h
  cases x with
  | none => cases h
  | some w =>
    cases h
    exact ⟨_, _, hx⟩

theorem value_of_evalRequired {v : Value} (h : (e.evalRequired cx k).run p = (.ok v, p')) :
    e.HasValue ρ cx v ∧ v.kind = k := by
  obtain ⟨x, p₁, hx, h⟩ := Eval.run_bind_eq_ok.1 h
  obtain ⟨y, p₂, hy, hcheck⟩ := Eval.run_bind_eq_ok.1 hx
  obtain ⟨hcheck, -⟩ := Eval.run_liftExcept_eq.1 hcheck
  obtain ⟨rfl, hk⟩ := checkKind_eq_ok.1 hcheck
  cases y with
  | none => cases h
  | some w =>
    cases h
    exact ⟨⟨_, _, hy⟩, hk _ rfl⟩

end Expr

end Errand
