/-
Draws: what is asked of a picker, and what becomes of its answers.

Only `nextTo` asks, and only for an index below the number of open neighbours of a cube, when there are any: six at
most, since coordinates that do not fit their words are left out. Whatever a picker answers, it comes to one of them
(`run_nextTo`). A picker can be recorded without changing its choices. In the evaluation of an expression every count
that it is asked for belongs to a `nextTo` of its own, whose operand has a value (`asks_eval`, by induction on the
expression); so a picker that answers any count but zero in range is never asked in vain.
-/
import Errand.Proofs.Cube.Adjacent
import Errand.Proofs.Script.Chance

namespace Errand

variable {ρ α β : Type}

/-! ## Pickers -/

/-- a picker, and the counts that it has been asked for, the latest last -/
structure Recorded (ρ : Type) where
  picker : ρ
  asked : List Nat := []

instance [Picker ρ] : Picker (Recorded ρ) where
  pick count r := ((Picker.pick count r.picker).1, ⟨(Picker.pick count r.picker).2, r.asked ++ [count]⟩)

/-- an index out of range means the last candidate -/
theorem Picker.choose_of_ne_nil [Picker ρ] {xs : List α} (h : xs ≠ []) (p : ρ) :
    choose xs p = (xs[min (pick xs.length p).1 (xs.length - 1)]?, (pick xs.length p).2) := by
  cases xs with
  | nil => exact absurd rfl h
  | cons x xs => rfl

/-! ## Open neighbours -/

namespace Context

variable {cx : Context} {c n : Cube}

theorem mem_openNeighbours : n ∈ cx.openNeighbours c ↔
    c.manhattan n = 1 ∧ cx.world.inBounds n = true ∧ cx.world.isPassable n = true := by
  simp only [openNeighbours, World.adjacent, List.mem_filter, Cube.mem_adjacent, and_assoc]

theorem nodup_openNeighbours (cx : Context) (c : Cube) : (cx.openNeighbours c).Nodup :=
  (c.nodup_adjacent.filter _).filter _

theorem length_openNeighbours_le (cx : Context) (c : Cube) : (cx.openNeighbours c).length ≤ 6 :=
  calc (cx.openNeighbours c).length ≤ (cx.world.adjacent c).length := List.length_filter_le _ _
    _ ≤ c.adjacent.length := List.length_filter_le _ _
    _ ≤ 6 := c.length_adjacent_le

end Context

namespace Expr

variable [Picker ρ] {cx : Context} {s : Span} {e i : Expr} {c : Cube} {p p₁ : ρ} {k : Kind}

/-- **Next to a cube is what is chosen from its open neighbours** -/
theorem run_nextTo (h : (i.eval cx).run p = (.ok (some (.position c)), p₁)) :
    ((nextTo s i).eval cx).run p =
      (.ok ((Picker.choose (cx.openNeighbours c) p₁).1.map .position), (Picker.choose (cx.openNeighbours c) p₁).2) :=
  Eval.run_bind_ok h

theorem run_nextTo_none (h : (i.eval cx).run p = (.ok none, p₁)) : ((nextTo s i).eval cx).run p = (.ok none, p₁) :=
  Eval.run_bind_ok h

/-! ## Questions -/

/-- the count that a node asks a picker for: as many open neighbours as the value of its operand has, if any -/
def Puts (ρ : Type) [Picker ρ] (cx : Context) (e : Expr) (count : Nat) : Prop :=
  ∃ s i c, e = nextTo s i ∧ i.HasValue ρ cx (.position c) ∧ count = (cx.openNeighbours c).length ∧ 1 ≤ count ∧ count ≤ 6

end Expr

/-- an evaluation comes to the same when its picker is recorded, and every question is that of another node -/
def Asks [Picker ρ] (cx : Context) (nodes : List Expr) (a : Eval ρ α) (b : Eval (Recorded ρ) α) : Prop :=
  ∀ r : Recorded ρ, ∃ asking counts, asking.Subperm nodes ∧ List.Forall₂ (Expr.Puts ρ cx) asking counts ∧
    b.run r = ((a.run r.picker).1, ⟨(a.run r.picker).2, r.asked ++ counts⟩)

namespace Asks

variable [Picker ρ] {cx : Context} {ns ms : List Expr} {a : Eval ρ α} {b : Eval (Recorded ρ) α} {f : α → Eval ρ β}
  {g : α → Eval (Recorded ρ) β}

theorem of_unasked (h : Unasked a b) : Asks cx ns a b := by
  obtain ⟨x, ha, hb⟩ := h
  exact fun r => ⟨[], [], List.nil_subperm, .nil, by rw [ha, hb, List.append_nil]⟩

theorem mono (h : Asks cx ns a b) (hle : ns.Subperm ms) : Asks cx ms a b := fun r => by
  obtain ⟨asking, counts, hsub, hputs, hrun⟩ := h r
  exact ⟨asking, counts, hsub.trans hle, hputs, hrun⟩

theorem cons (e : Expr) (h : Asks cx ns a b) : Asks cx (e :: ns) a b := h.mono (List.sublist_cons_self e ns).subperm

/-- first one asks its questions, then the other -/
theorem bind (h : Asks cx ns a b) (hf : ∀ v p p', a.run p = (.ok v, p') → Asks cx ms (f v) (g v)) :
    Asks cx (ns ++ ms) (a >>= f) (b >>= g) := by
  intro r
  obtain ⟨asking, counts, hsub, hputs, hb⟩ := h r
  rcases ha : a.run r.picker with ⟨e | v, p₁⟩
  · rw [ha] at hb
    exact ⟨asking, counts, hsub.trans (List.sublist_append_left ns ms).subperm, hputs, by
      rw [Eval.run_bind_error hb, Eval.run_bind_error ha]⟩
  · rw [ha] at hb
    obtain ⟨asking', counts', hsub', hputs', hg⟩ := hf v _ _ ha ⟨p₁, r.asked ++ counts⟩
    refine ⟨asking ++ asking', counts ++ counts', ?_, List.rel_append hputs hputs', ?_⟩
    · exact ((List.subperm_append_right asking').2 hsub).trans ((List.subperm_append_left ns).2 hsub')
    · rw [Eval.run_bind_ok hb, Eval.run_bind_ok ha, hg, List.append_assoc]

end Asks

namespace Expr

variable [Picker ρ] {cx : Context} {s : Span} {e i : Expr} {c : Cube} {p p₁ : ρ} {k : Kind} {ns ms : List Expr}

theorem asks_operand {f : Option Value → Eval ρ β} {g : Option Value → Eval (Recorded ρ) β}
    (h : Asks cx ns (i.eval cx : Eval ρ _) (i.eval cx))
    (hf : ∀ x, (∀ v, x = some v → i.HasValue ρ cx v) → Asks cx ms (f x) (g x)) :
    Asks cx (ns ++ ms) (i.eval cx >>= fun x => liftExcept (i.checkKind k x) >>= f)
      (i.eval cx >>= fun x => liftExcept (i.checkKind k x) >>= g) := by
  refine h.bind fun x p p' hx => ?_
  have hlift : Asks cx [] (liftExcept (i.checkKind k x) : Eval ρ _) (liftExcept (i.checkKind k x)) :=
    .of_unasked (.lift _)
  refine hlift.bind fun y q q' hy => hf y fun v hv => ?_
  obtain ⟨hcheck, -⟩ := Eval.run_liftExcept_eq.1 hy
  obtain ⟨rfl, -⟩ := checkKind_eq_ok.1 hcheck
  exact ⟨p, p', hv ▸ hx⟩

/-- what is made of the operand asks nothing more -/
theorem asks_operand_only {f : Option Value → Eval ρ β} {g : Option Value → Eval (Recorded ρ) β}
    (h : Asks cx ns (i.eval cx : Eval ρ _) (i.eval cx)) (hf : ∀ x, Unasked (f x) (g x)) :
    Asks cx ns (i.eval cx >>= fun x => liftExcept (i.checkKind k x) >>= f)
      (i.eval cx >>= fun x => liftExcept (i.checkKind k x) >>= g) :=
  List.append_nil ns ▸ asks_operand h fun x _ => .of_unasked (hf x)

/-- the choice is one question, or none if there is nothing to choose from -/
theorem asks_choose (s : Span) (h : i.HasValue ρ cx (.position c)) :
    Asks cx [nextTo s i]
      (do let choice ← Picker.choose (ρ := ρ) (cx.openNeighbours c); return choice.map Value.position : Eval ρ _)
      (do let choice ← Picker.choose (ρ := Recorded ρ) (cx.openNeighbours c); return choice.map Value.position) := by
  intro r
  by_cases hopen : cx.openNeighbours c = []
  · refine ⟨[], [], List.nil_subperm, .nil, ?_⟩
    rw [hopen, List.append_nil]
    rfl
  · have hcount : 1 ≤ (cx.openNeighbours c).length := List.length_pos_of_ne_nil hopen
    refine ⟨[nextTo s i], [(cx.openNeighbours c).length], List.Subperm.refl _,
      .cons ⟨s, i, c, rfl, h, rfl, hcount, cx.length_openNeighbours_le c⟩ .nil, ?_⟩
    have hrun {ρ : Type} [Picker ρ] (p : ρ) :
        (do let choice ← Picker.choose (ρ := ρ) (cx.openNeighbours c)
            return choice.map Value.position : Eval ρ _).run p =
          (.ok ((Picker.choose (cx.openNeighbours c) p).1.map .position),
            (Picker.choose (cx.openNeighbours c) p).2) := rfl
    rw [hrun, hrun, Picker.choose_of_ne_nil hopen, Picker.choose_of_ne_nil hopen]
    rfl

/-- **Every question of an evaluation is that of another `nextTo` node**, whose operand has a value -/
theorem asks_eval (cx : Context) (e : Expr) : Asks cx e.nodes (e.eval cx : Eval ρ _) (e.eval cx) := by
  induction e with
  | boolean | cube | var => exact .of_unasked (.pure _)
  | unit | place => exact .of_unasked (.lift _)
  | junction s op l r ihl ihr =>
    refine .cons _ (asks_operand ihl fun a _ => asks_operand_only ihr fun b => ?_)
    split <;> exact .pure _
  | not s i ih | cubeTest s t i ih =>
    refine .cons _ (asks_operand_only ih fun a => ?_)
    split <;> exact .pure _
  | unitTest s t i ih =>
    have hready : Asks cx [] (liftExcept (cx.readyFor s t) : Eval ρ _) (liftExcept (cx.readyFor s t)) :=
      .of_unasked (.lift _)
    refine .cons _ (hready.bind fun _ _ _ _ => asks_operand_only ih fun a => ?_)
    split
    · exact (Unasked.lift _).bind fun b => .pure _
    · exact .pure _
  | positionOf s i ih =>
    refine .cons _ (asks_operand_only ih fun a => ?_)
    split
    · exact (Unasked.lift _).bind fun b => .pure _
    · exact .pure _
  | nextTo s i ih =>
    refine (asks_operand ih fun x hx => (?_ : Asks cx [nextTo s i] _ _)).mono List.perm_append_comm.subperm
    split
    · exact asks_choose s (hx _ rfl)
    · exact .of_unasked (.pure _)

/-- **Next to any cube there is one of its open neighbours, whatever the picker says.** Let the operand have a value,
be it with coordinates at the ends of their words: the neighbours are the cubes one step away over the integers; the
open ones are those of them that are inside the bounds and passable, each listed once, six at most. There is no value
if there are none, and then the picker is left alone. Otherwise it is asked once, for an index below their number;
the index that is used is below it, and is the one that it has answered if that is; and the neighbour with that index
is the value. An operand without a value leaves both as it is. In an expression of any size each question is that of
another `nextTo` node, whose operand has a value, and for a count from one to six; recording the questions does not
change what comes of them. A replay answers such a count in range, and of any picker that does so the answer is used as
it is. -/
theorem nextTo_open (ρ : Type) [Picker ρ] (cx : Context) :
    (∀ (s : Span) (i : Expr) (c : Cube) (p p₁ : ρ), (i.eval cx).run p = (.ok (some (.position c)), p₁) →
      let opens := cx.openNeighbours c
      let answer := Picker.pick opens.length p₁
      let next := ((nextTo s i).eval cx).run p
      (∀ n, n ∈ c.adjacent ↔ c.manhattan n = 1) ∧
      (∀ n, n ∈ opens ↔ c.manhattan n = 1 ∧ cx.world.inBounds n = true ∧ cx.world.isPassable n = true) ∧
      opens.Nodup ∧ opens.length ≤ 6 ∧
      (next.1 = .ok none ↔ opens = []) ∧ (opens = [] → next.2 = p₁) ∧
      (opens ≠ [] → ∃ (k : Nat) (n : Cube), k < opens.length ∧ (answer.1 < opens.length → k = answer.1) ∧
        opens[k]? = some n ∧ n ∈ opens ∧ next = (.ok (some (.position n)), answer.2))) ∧
    (∀ (s : Span) (i : Expr) (p p₁ : ρ), (i.eval cx).run p = (.ok none, p₁) →
      ((nextTo s i).eval cx).run p = (.ok none, p₁)) ∧
    (∀ (e : Expr) (r : Recorded ρ), ∃ asking counts, asking.Subperm e.nodes ∧
      List.Forall₂ (Puts ρ cx) asking counts ∧ (e.eval cx).run r =
        (((e.eval cx).run r.picker).1, ⟨((e.eval cx).run r.picker).2, r.asked ++ counts⟩)) ∧
    (∀ count, 1 ≤ count → ∀ r : Replay, (Picker.pick count r).1 < count) ∧
    ((∀ count, 1 ≤ count → ∀ q : ρ, (Picker.pick count q).1 < count) →
      ∀ (s : Span) (i : Expr) (c : Cube) (p p₁ : ρ), (i.eval cx).run p = (.ok (some (.position c)), p₁) →
        let opens := cx.openNeighbours c
        let answer := Picker.pick opens.length p₁
        opens ≠ [] → ∃ n, opens[answer.1]? = some n ∧
          ((nextTo s i).eval cx).run p = (.ok (some (.position n)), answer.2)) := by
  refine ⟨fun s i c p p₁ h => ?_, fun s i p p₁ => run_nextTo_none, fun e r => asks_eval cx e r,
    fun count hcount r => Nat.mod_lt _ hcount, fun hrange s i c p p₁ h => ?_⟩
  · intro opens answer next
    have hnext : next = _ := run_nextTo h
    refine ⟨fun n => Cube.mem_adjacent, fun n => Context.mem_openNeighbours, cx.nodup_openNeighbours c,
      cx.length_openNeighbours_le c, ?_⟩
    by_cases hopen : opens = []
    · have hnone : next = (.ok none, p₁) := by
        rw [hnext, show cx.openNeighbours c = [] from hopen]
        rfl
      rw [hnone]
      exact ⟨iff_of_true rfl hopen, fun _ => rfl, fun hne => absurd hopen hne⟩
    · have hpos := List.length_pos_of_ne_nil hopen
      have hk : min answer.1 (opens.length - 1) < opens.length := by omega
      have hn := List.getElem?_eq_getElem hk
      have hsome : next = (.ok (some (.position opens[min answer.1 (opens.length - 1)])), answer.2) := by
        rw [hnext, Picker.choose_of_ne_nil hopen]
        exact congrArg (fun n => (Except.ok (n.map Value.position), answer.2)) hn
      refine ⟨?_, fun hnil => absurd hnil hopen, fun _ => ⟨_, _, hk, fun hin => ?_, hn, List.getElem_mem hk, hsome⟩⟩
      · rw [hsome]
        exact iff_of_false nofun hopen
      · exact Nat.min_eq_left (Nat.le_sub_one_of_lt hin)
  · intro opens answer hopen
    have hin : answer.1 < opens.length := hrange _ (List.length_pos_of_ne_nil hopen) p₁
    have hn := List.getElem?_eq_getElem hin
    refine ⟨_, hn, ?_⟩
    rw [run_nextTo h, Picker.choose_of_ne_nil hopen, Nat.min_eq_left (Nat.le_sub_one_of_lt hin)]
    exact congrArg (fun n => (Except.ok (n.map Value.position), answer.2)) hn

/-- it answers beyond the candidates whatever they are, and counts how often it has been asked -/
structure Astray where
  answers : Nat
  deriving DecidableEq

instance : Picker Astray where
  pick count p := (count + 3, ⟨p.answers + 1⟩)

/-- nothing but air, as far as there are cubes -/
def endless : Context where
  unit? := none
  store := .empty
  selection := {}
  world :=
    { inBounds := fun _ => true, ground? := fun _ => some { terrain := .air }, units := [], members := fun _ => [],
      position? := fun _ => none, faction? := fun _ => none, carries := fun _ => false, isAlive := fun _ => false,
      boulders := [], logs := [], workshops := [] }

/-- two steps from the edge of the coordinates, where a cube has four neighbours; a picker gone astray gets the last -/
theorem nextTo_open_edge :
    let edge : Cube := ⟨Int64.maxValue, Int64.minValue, 0⟩
    let opens := endless.openNeighbours edge
    let beside : Expr := nextTo ⟨1, 9⟩ (cube ⟨1, 17⟩ edge)
    let further : Expr := nextTo ⟨1, 1⟩ beside
    opens.length = 4 ∧
      (∃ k n, k < 4 ∧ opens[k]? = some n ∧ (beside.eval endless).run (⟨0⟩ : Astray) = (.ok (some (.position n)), ⟨1⟩)) ∧
      (further.eval endless).run (⟨0⟩ : Astray) = (.ok (some (.position ⟨Int64.maxValue, Int64.minValue, 2⟩)), ⟨2⟩) ∧
      ∃ asking, asking.Subperm further.nodes ∧ List.Forall₂ (Puts Astray endless) asking [4, 4] := by
  intro edge opens beside further
  have hlength : opens.length = 4 := by decide +kernel
  have hopen : opens ≠ [] := by
    intro h
    rw [h] at hlength
    cases hlength
  have hrecorded : (further.eval endless).run (⟨⟨0⟩, []⟩ : Recorded Astray) =
      (.ok (some (.position ⟨Int64.maxValue, Int64.minValue, 2⟩)), ⟨⟨2⟩, [4, 4]⟩) := rfl
  obtain ⟨hnext, -, hasked, -⟩ := nextTo_open Astray endless
  obtain ⟨-, -, -, -, -, -, hone⟩ := hnext ⟨1, 9⟩ (cube ⟨1, 17⟩ edge) edge ⟨0⟩ ⟨0⟩ rfl
  obtain ⟨k, n, hk, -, hn, -, hrun⟩ := hone hopen
  obtain ⟨asking, counts, hsub, hputs, hboth⟩ := hasked further ⟨⟨0⟩, []⟩
  have hcounts : counts = [4, 4] := congrArg (fun run => run.2.asked) (hboth.symm.trans hrecorded)
  exact ⟨hlength, ⟨k, n, hlength ▸ hk, hn, hrun⟩, rfl, asking, hsub, hcounts ▸ hputs⟩

end Expr

end Errand
