/-
Control paths: without a `leave`, the check of variables reports just the reads that some path reaches too early.

A control path takes either arm of a conditional and any number of iterations of a loop, whatever the tests would say.
`Crosses` lists what a path through a statement assigns, `Arrives` what a path assigns on its way to an expression. The
scope of the checks has the names that every path assigns (`notMem_scopeAfter`): for a loop that is none, since a path
may pass it by, and for a conditional those of both arms. So a read of a name out of scope is a read on some path, and
the recursion of the check is one over places (`listed_unassigned`): what it reports are such reads, each once, in the
order of the text.
-/
import Errand.Proofs.Script.Shape

namespace Errand

namespace Stmt

/-! ## Statements without `leave` -/

/-- nowhere in the tree stands a `leave` -/
def LeaveFree (s : Stmt) : Prop := ∀ place m, s.at? place ≠ some (.leave m)

theorem LeaveFree.child {s c : Stmt} (h : s.LeaveFree) (hc : c ∈ s.children) : c.LeaveFree := by
  intro place m hat
  obtain ⟨i, hi⟩ := List.mem_iff_getElem?.1 hc
  exact h (i :: place) m (at?_cons.2 ⟨c, hi, hat⟩)

theorem leaveFree_of_children {s : Stmt} (hs : ∀ m, s ≠ .leave m) (h : ∀ c ∈ s.children, c.LeaveFree) :
    s.LeaveFree := by
  intro place m hat
  cases place with
  | nil => exact hs m (Option.some.inj hat)
  | cons i place =>
    obtain ⟨c, hi, hat⟩ := at?_cons.1 hat
    exact h c (List.mem_of_getElem? hi) place m hat

/-- whether a `leave` stands in the tree is up to the children, where the root is none -/
theorem leaveFree_iff {s : Stmt} (hs : ∀ m, s ≠ .leave m) : s.LeaveFree ↔ ∀ c ∈ s.children, c.LeaveFree :=
  ⟨fun h _ hc => h.child hc, leaveFree_of_children hs⟩

section

variable {m : Mark} {test value : Expr}

@[simp] theorem leaveFree_sequence {body : List Stmt} {idx : Nat} :
    (sequence m body idx).LeaveFree ↔ ∀ c ∈ body, c.LeaveFree :=
  leaveFree_iff (by simp)

@[simp] theorem leaveFree_conditional {thenS : Stmt} {elseS : Option Stmt} {chosen : Option Branch} :
    (conditional m test thenS elseS chosen).LeaveFree ↔ thenS.LeaveFree ∧ ∀ c, elseS = some c → c.LeaveFree := by
  simpa [children] using leaveFree_iff (s := conditional m test thenS elseS chosen) (by simp)

@[simp] theorem leaveFree_loop {body : Stmt} : (loop m test body).LeaveFree ↔ body.LeaveFree := by
  simpa [children] using leaveFree_iff (s := loop m test body) (by simp)

@[simp] theorem leaveFree_assign {name : String} : (assign m name value).LeaveFree :=
  leaveFree_of_children (by simp) (by simp [children])

@[simp] theorem leaveFree_print : (print m value).LeaveFree := leaveFree_of_children (by simp) (by simp [children])

@[simp] theorem leaveFree_action {kind : ActionKind} : (action m kind value).LeaveFree :=
  leaveFree_of_children (by simp) (by simp [children])

end

/-! ## Control paths -/

mutual

/-- some control path through the statement assigns these names, in this order -/
inductive Crosses : Stmt → List String → Prop
  | sequence {m : Mark} {body : List Stmt} {idx : Nat} {names : List String} (h : CrossesAll body names) :
      Crosses (.sequence m body idx) names
  | onTrue {m : Mark} {test : Expr} {thenS : Stmt} {elseS : Option Stmt} {chosen : Option Branch} {names : List String}
      (h : Crosses thenS names) : Crosses (.conditional m test thenS elseS chosen) names
  | onFalse {m : Mark} {test : Expr} {thenS elseS : Stmt} {chosen : Option Branch} {names : List String}
      (h : Crosses elseS names) : Crosses (.conditional m test thenS (some elseS) chosen) names
  | withoutElse {m : Mark} {test : Expr} {thenS : Stmt} {chosen : Option Branch} :
      Crosses (.conditional m test thenS none chosen) []
  /-- any number of iterations -/
  | loop {m : Mark} {test : Expr} {body : Stmt} {names : List String} (count : Nat)
      (h : CrossesAll (List.replicate count body) names) : Crosses (.loop m test body) names
  | assign {m : Mark} {name : String} {value : Expr} : Crosses (.assign m name value) [name]
  | print {m : Mark} {value : Expr} : Crosses (.print m value) []
  | action {m : Mark} {kind : ActionKind} {target : Expr} : Crosses (.action m kind target) []

/-- some control path through the statements, one after the other, assigns these names -/
inductive CrossesAll : List Stmt → List String → Prop
  | nil : CrossesAll [] []
  | cons {s : Stmt} {rest : List Stmt} {names later : List String} (h : Crosses s names) (hr : CrossesAll rest later) :
      CrossesAll (s :: rest) (names ++ later)

end

/-- some control path from the beginning of the statement to an expression at a place in it assigns these names on its
way -/
inductive Arrives : Stmt → List Nat → List String → Prop
  /-- a value is there before it is assigned, and a test before an arm or an iteration -/
  | here {s : Stmt} (h : s.expressions ≠ []) : Arrives s [] []
  | sequence {m : Mark} {body : List Stmt} {idx i : Nat} {child : Stmt} {place : List Nat} {earlier names : List String}
      (he : CrossesAll (body.take i) earlier) (hi : body[i]? = some child) (h : Arrives child place names) :
      Arrives (.sequence m body idx) (i :: place) (earlier ++ names)
  | onTrue {m : Mark} {test : Expr} {thenS : Stmt} {elseS : Option Stmt} {chosen : Option Branch} {place : List Nat}
      {names : List String} (h : Arrives thenS place names) :
      Arrives (.conditional m test thenS elseS chosen) (0 :: place) names
  | onFalse {m : Mark} {test : Expr} {thenS elseS : Stmt} {chosen : Option Branch} {place : List Nat}
      {names : List String} (h : Arrives elseS place names) :
      Arrives (.conditional m test thenS (some elseS) chosen) (1 :: place) names
  /-- the test of a loop after some iterations -/
  | test {m : Mark} {test : Expr} {body : Stmt} {names : List String} (count : Nat)
      (h : CrossesAll (List.replicate count body) names) : Arrives (.loop m test body) [] names
  /-- in an iteration after some others -/
  | iteration {m : Mark} {test : Expr} {body : Stmt} {place : List Nat} {earlier names : List String} (count : Nat)
      (he : CrossesAll (List.replicate count body) earlier) (h : Arrives body place names) :
      Arrives (.loop m test body) (0 :: place) (earlier ++ names)

/-! ## What every path assigns -/

variable {n : String} {scope : List String}

/-- a path through some statements is a path through the first and one through the rest -/
theorem crossesAll_cons {s : Stmt} {rest : List Stmt} :
    (∃ names, CrossesAll (s :: rest) names ∧ n ∉ names) ↔
      (∃ names, Crosses s names ∧ n ∉ names) ∧ ∃ names, CrossesAll rest names ∧ n ∉ names := by
  constructor
  · rintro ⟨_, h, hn⟩
    cases h with
    | cons h hr =>
      rw [List.mem_append, not_or] at hn
      exact ⟨⟨_, h, hn.1⟩, _, hr, hn.2⟩
  · rintro ⟨⟨names, h, hn⟩, later, hr, hlater⟩
    exact ⟨_, .cons h hr, by rw [List.mem_append, not_or]; exact ⟨hn, hlater⟩⟩

/-- the statements after one another, given each of them -/
theorem notMem_scopeAfterAll {body : List Stmt}
    (ih : ∀ s ∈ body, ∀ scope, n ∉ s.scopeAfter scope ↔ n ∉ scope ∧ ∃ names, Crosses s names ∧ n ∉ names) :
    n ∉ scopeAfterAll body scope ↔ n ∉ scope ∧ ∃ names, CrossesAll body names ∧ n ∉ names := by
  induction body generalizing scope with
  | nil => exact ⟨fun h => ⟨h, [], .nil, List.not_mem_nil⟩, fun h => h.1⟩
  | cons s rest ihr =>
    rw [scopeAfterAll, ihr fun t ht => ih t (List.mem_cons_of_mem _ ht), ih s List.mem_cons_self, crossesAll_cons,
      and_assoc]

/-- **The scope has what every path assigns**: a name is missing after a statement just if it was missing before and
some path does not assign it -/
theorem notMem_scopeAfter {s : Stmt} (hs : s.LeaveFree) :
    n ∉ s.scopeAfter scope ↔ n ∉ scope ∧ ∃ names, Crosses s names ∧ n ∉ names := by
  induction s using induct generalizing scope with
  | sequence m body idx ih =>
    rw [scopeAfter, notMem_scopeAfterAll fun s hm scope => ih s hm (hs.child hm)]
    refine and_congr_right fun _ => exists_congr fun names => and_congr_left fun _ => ⟨.sequence, ?_⟩
    rintro ⟨h⟩
    exact h
  | conditional m test thenS elseS chosen iha ihe =>
    have hthen : n ∉ thenS.scopeAfter scope ↔ _ := iha (hs.child List.mem_cons_self)
    have helse : n ∉ scopeAfterElse elseS scope ↔
        n ∉ scope ∧ (elseS = none ∨ ∃ s, elseS = some s ∧ ∃ names, Crosses s names ∧ n ∉ names) := by
      cases elseS with
      | none => simp [scopeAfterElse]
      | some s =>
        rw [scopeAfterElse, ihe s rfl (hs.child (List.mem_cons_of_mem _ List.mem_cons_self))]
        simp
    rw [scopeAfter]
    simp only [List.mem_filter, List.contains_iff_mem, not_and_or, hthen, helse, ← and_or_left]
    refine and_congr_right fun _ => ⟨?_, ?_⟩
    · rintro (⟨names, h, hn⟩ | rfl | ⟨s, rfl, names, h, hn⟩)
      · exact ⟨names, .onTrue h, hn⟩
      · exact ⟨[], .withoutElse, List.not_mem_nil⟩
      · exact ⟨names, .onFalse h, hn⟩
    · rintro ⟨names, h, hn⟩
      cases h with
      | onTrue h => exact .inl ⟨names, h, hn⟩
      | onFalse h => exact .inr (.inr ⟨_, rfl, names, h, hn⟩)
      | withoutElse => exact .inr (.inl rfl)
  | loop m test body ih =>
    -- the path that makes no iteration assigns nothing
    exact ⟨fun h => ⟨h, [], .loop 0 .nil, List.not_mem_nil⟩, fun h => h.1⟩
  | assign m name value =>
    rw [scopeAfter, List.mem_insert_iff, not_or, and_comm]
    refine and_congr_right fun _ => ⟨fun h => ⟨[name], .assign, by simpa using h⟩, ?_⟩
    rintro ⟨names, ⟨⟩, hn⟩
    simpa using hn
  | print m value => exact ⟨fun h => ⟨h, [], .print, List.not_mem_nil⟩, fun h => h.1⟩
  | action m kind target => exact ⟨fun h => ⟨h, [], .action, List.not_mem_nil⟩, fun h => h.1⟩
  | leave m => exact absurd rfl (hs [] m)

end Stmt

/-! ## Reads and their places -/

/-- a read of a variable: the statement whose expression it is part of, and which node of that expression it is -/
structure Occurrence where
  place : List Nat
  index : Nat
  span : Span
  name : String
  deriving DecidableEq, Repr

namespace Occurrence

/-- it stands before the other in the text; the expressions of a statement stand before the statements below it -/
def Before (a b : Occurrence) : Prop := a.place < b.place ∨ a.place = b.place ∧ a.index < b.index

/-- the same read, seen from the statement above -/
def under (i : Nat) (o : Occurrence) : Occurrence := { o with place := i :: o.place }

/-- what is reported if the read comes too early -/
def problem (o : Occurrence) : Problem := .unassigned o.span o.name

theorem before_under {a b : Occurrence} {i : Nat} : (a.under i).Before (b.under i) ↔ a.Before b := by
  simp [Before, under]

theorem before_under_of_lt {a b : Occurrence} {i j : Nat} (h : i < j) : (a.under i).Before (b.under j) :=
  .inl (List.cons_lt_cons_iff.2 (.inl h))

theorem before_under_of_nil {a b : Occurrence} {i : Nat} (h : a.place = []) : a.Before (b.under i) := by
  left
  rw [h]
  exact List.nil_lt_cons _ _

end Occurrence

/-- the problems are those of certain reads, each once, in the order of the text -/
def Listed (P : Occurrence → Prop) (problems : List Problem) : Prop :=
  ∃ os : List Occurrence, os.Pairwise Occurrence.Before ∧ (∀ o, o ∈ os ↔ P o) ∧ problems = os.map Occurrence.problem

namespace Listed

variable {P Q : Occurrence → Prop} {ps qs : List Problem}

theorem congr (h : Listed P ps) (hPQ : ∀ o, Q o ↔ P o) : Listed Q ps := by
  obtain ⟨os, hsorted, hmem, hps⟩ := h
  exact ⟨os, hsorted, fun o => (hmem o).trans (hPQ o).symm, hps⟩

theorem nil (h : ∀ o, ¬ P o) : Listed P [] := ⟨[], .nil, by simpa using h, rfl⟩

theorem append (h : Listed P ps) (h' : Listed Q qs) (hPQ : ∀ a b, P a → Q b → a.Before b) :
    Listed (fun o => P o ∨ Q o) (ps ++ qs) := by
  obtain ⟨os, hsorted, hmem, rfl⟩ := h
  obtain ⟨os', hsorted', hmem', rfl⟩ := h'
  refine ⟨os ++ os', List.pairwise_append.2 ⟨hsorted, hsorted', fun a ha b hb => ?_⟩, fun o => ?_, ?_⟩
  · exact hPQ a b ((hmem a).1 ha) ((hmem' b).1 hb)
  · rw [List.mem_append, hmem, hmem']
  · rw [List.map_append]

/-- the reads in a child -/
theorem under (h : Listed P ps) (i : Nat) : Listed (fun o => ∃ o', o = o'.under i ∧ P o') ps := by
  obtain ⟨os, hsorted, hmem, rfl⟩ := h
  refine ⟨os.map (·.under i), ?_, fun o => ?_, ?_⟩
  · exact List.pairwise_map.2 (hsorted.imp Occurrence.before_under.2)
  · simp only [List.mem_map, hmem]
    exact exists_congr fun o' => and_comm.trans (and_congr_left fun _ => eq_comm)
  · rw [List.map_map]
    rfl

/-- the reads in some children, which are numbered on from `k` -/
theorem flatten {cs : List Stmt} {R : Nat → Stmt → Occurrence → Prop} {f : Nat → Stmt → List Problem} (k : Nat)
    (h : ∀ i c, cs[i]? = some c → Listed (R i c) (f i c)) :
    Listed (fun o => ∃ i c o', cs[i]? = some c ∧ o = o'.under (k + i) ∧ R i c o') (cs.mapIdx f).flatten := by
  induction cs generalizing k R f with
  | nil => exact .nil fun o ⟨i, c, _, hc, _⟩ => by simp at hc
  | cons c rest ih =>
    have hfirst := (h 0 c rfl).under k
    have hrest := ih (R := fun i => R (i + 1)) (k + 1) fun i d hd => h (i + 1) d hd
    rw [List.mapIdx_cons, List.flatten_cons]
    refine (hfirst.append hrest ?_).congr fun o => ?_
    · rintro a b ⟨a, rfl, -⟩ ⟨i, d, b, -, rfl, -⟩
      exact Occurrence.before_under_of_lt (by omega)
    · constructor
      · rintro ⟨i, d, o', hd, rfl, ho'⟩
        cases i with
        | zero =>
          obtain rfl := Option.some.inj hd
          exact .inl ⟨o', rfl, ho'⟩
        | succ i => exact .inr ⟨i, d, o', hd, by rw [Nat.add_right_comm, Nat.add_assoc], ho'⟩
      · rintro (⟨o', rfl, ho'⟩ | ⟨i, d, o', hd, rfl, ho'⟩)
        · exact ⟨0, c, o', rfl, rfl, ho'⟩
        · exact ⟨i + 1, d, o', hd, by rw [Nat.add_right_comm, Nat.add_assoc], ho'⟩

end Listed

namespace Stmt

variable {scope : List String} {o : Occurrence}

/-- the read is a node of the expression of a statement of the tree -/
def Occurs (s : Stmt) (o : Occurrence) : Prop :=
  ∃ t, s.at? o.place = some t ∧ (t.expressions.flatMap Expr.nodes)[o.index]? = some (.var o.span o.name)

/-- some control path comes to the read, and the name is neither in scope at the beginning nor assigned on the way -/
def Early (s : Stmt) (scope : List String) (o : Occurrence) : Prop :=
  s.Occurs o ∧ o.name ∉ scope ∧ ∃ names, s.Arrives o.place names ∧ o.name ∉ names

/-- a read in the expression of the root -/
def Own (s : Stmt) (scope : List String) (o : Occurrence) : Prop := o.place = [] ∧ s.Occurs o ∧ o.name ∉ scope

/-- a statement is the beginning of every path to its own expression -/
theorem early_own {s : Stmt} (ho : o.place = []) : s.Early scope o ↔ s.Own scope o := by
  constructor
  · rintro ⟨hoccurs, hn, -⟩
    exact ⟨ho, hoccurs, hn⟩
  · rintro ⟨-, hoccurs, hn⟩
    refine ⟨hoccurs, hn, [], ho ▸ .here fun hnone => ?_, List.not_mem_nil⟩
    obtain ⟨t, hat, hvar⟩ := hoccurs
    rw [ho] at hat
    obtain rfl := Option.some.inj hat
    simp [hnone] at hvar

theorem occurs_under {s : Stmt} {i : Nat} : s.Occurs (o.under i) ↔ ∃ c, s.children[i]? = some c ∧ c.Occurs o := by
  simp only [Occurs, Occurrence.under, at?_cons]
  constructor
  · rintro ⟨t, ⟨c, hc, hat⟩, hvar⟩
    exact ⟨c, hc, t, hat, hvar⟩
  · rintro ⟨c, hc, t, hat, hvar⟩
    exact ⟨t, ⟨c, hc, hat⟩, hvar⟩

end Stmt

/-! ## The recursion of the check is one over places -/

def Expr.early? (scope : List String) : Expr → Option Problem
  | .var s n => if scope.contains n then none else some (.unassigned s n)
  | _ => none

theorem Expr.unassigned_eq (e : Expr) (scope : List String) :
    e.unassigned scope = e.nodes.filterMap (early? scope) := by
  unfold unassigned
  congr 1

theorem Expr.early?_eq_some {scope : List String} {e : Expr} {p : Problem} :
    e.early? scope = some p ↔ ∃ s n, e = .var s n ∧ n ∉ scope ∧ p = .unassigned s n := by
  cases e with
  | var s n =>
    by_cases hn : n ∈ scope
    · simp [early?, hn]
    · simp [early?, hn, eq_comm]
  | _ => simp [early?]

/-- one node is a read that is reported or is not -/
theorem listed_node (scope : List String) (x : Expr) (i : Nat) :
    Listed (fun o => o.place = [] ∧ o.index = i ∧ x = .var o.span o.name ∧ o.name ∉ scope)
      (x.early? scope).toList := by
  cases hx : x.early? scope with
  | none =>
    refine .nil fun o ⟨_, _, hvar, hn⟩ => ?_
    have hreported := Expr.early?_eq_some.2 ⟨o.span, o.name, hvar, hn, rfl⟩
    simp [hx] at hreported
  | some p =>
    obtain ⟨sp, n, rfl, hn, rfl⟩ := Expr.early?_eq_some.1 hx
    refine ⟨[⟨[], i, sp, n⟩], List.pairwise_singleton _ _, fun o => ?_, rfl⟩
    rw [List.mem_singleton]
    constructor
    · rintro rfl
      exact ⟨rfl, rfl, rfl, hn⟩
    · rintro ⟨hplace, hindex, hvar, -⟩
      obtain ⟨rfl, rfl⟩ := Expr.var.inj hvar
      cases o
      simp_all

theorem getElem?_append_singleton {α : Type} {xs : List α} {x y : α} {i : Nat} :
    (xs ++ [x])[i]? = some y ↔ xs[i]? = some y ∨ i = xs.length ∧ x = y := by
  rcases Nat.lt_trichotomy i xs.length with hi | rfl | hi
  · rw [List.getElem?_append_left hi]
    exact ⟨.inl, fun h => h.resolve_right fun h => hi.ne h.1⟩
  · simp
  · rw [List.getElem?_eq_none (by simpa using hi), List.getElem?_eq_none hi.le]
    simp [hi.ne']

theorem listed_nodes (scope : List String) (xs : List Expr) :
    Listed (fun o => o.place = [] ∧ xs[o.index]? = some (.var o.span o.name) ∧ o.name ∉ scope)
      (xs.filterMap (Expr.early? scope)) := by
  induction xs using List.reverseRecOn with
  | nil => exact .nil fun o h => by simp at h
  | append_singleton xs x ih =>
    have hlast : [x].filterMap (Expr.early? scope) = (x.early? scope).toList := by
      cases hx : x.early? scope <;> simp [hx]
    rw [List.filterMap_append, hlast]
    refine (ih.append (listed_node scope x xs.length) fun a b ⟨ha, hvar, _⟩ ⟨hb, hindex, _⟩ => ?_).congr fun o => ?_
    · obtain ⟨hlt, -⟩ := List.getElem?_eq_some_iff.1 hvar
      exact .inr ⟨ha.trans hb.symm, hindex ▸ hlt⟩
    · rw [getElem?_append_singleton]
      tauto

namespace Stmt

variable {scope : List String} {o : Occurrence}

/-- the scope in which a child is checked; in a sequence the children before it have been crossed -/
def scopeBefore (s : Stmt) (i : Nat) (scope : List String) : List String :=
  match s with
  | .sequence _ body _ => scopeAfterAll (body.take i) scope
  | _ => scope

theorem unassignedAll_eq (body : List Stmt) (scope : List String) :
    unassignedAll body scope =
      (body.mapIdx fun i c => c.unassigned (scopeAfterAll (body.take i) scope)).flatten := by
  induction body generalizing scope with
  | nil => rfl
  | cons s rest ih =>
    rw [unassignedAll, ih, List.mapIdx_cons, List.flatten_cons]
    rfl

/-- the check of a statement is that of its own expression, then that of its children -/
theorem unassigned_eq (s : Stmt) (scope : List String) :
    s.unassigned scope = s.expressions.flatMap (·.unassigned scope) ++
      (s.children.mapIdx fun i c => c.unassigned (s.scopeBefore i scope)).flatten := by
  cases s with
  | sequence m body idx => exact unassignedAll_eq body scope
  | conditional m test thenS elseS chosen =>
    cases elseS <;> simp [unassigned, unassignedElse, expressions, children, scopeBefore]
  | _ => simp [unassigned, expressions, children, scopeBefore]

/-- a path to a child comes there in the scope in which the child is checked -/
theorem arrives_child {s : Stmt} (hs : s.LeaveFree) (scope : List String) (i : Nat) (place : List Nat) (n : String) :
    (n ∉ scope ∧ ∃ names, s.Arrives (i :: place) names ∧ n ∉ names) ↔
      ∃ c, s.children[i]? = some c ∧ n ∉ s.scopeBefore i scope ∧ ∃ names, c.Arrives place names ∧ n ∉ names := by
  cases s with
  | sequence m body idx =>
    have hbefore : n ∉ scopeAfterAll (body.take i) scope ↔ _ := notMem_scopeAfterAll fun c hc scope =>
      notMem_scopeAfter (hs.child (List.mem_of_mem_take hc))
    simp only [children, scopeBefore, hbefore]
    constructor
    · rintro ⟨hscope, _, h, hn⟩
      cases h with
      | sequence he hi h =>
        rw [List.mem_append, not_or] at hn
        exact ⟨_, hi, ⟨hscope, _, he, hn.1⟩, _, h, hn.2⟩
    · rintro ⟨c, hi, ⟨hscope, earlier, he, hearlier⟩, names, h, hn⟩
      exact ⟨hscope, _, .sequence he hi h, by rw [List.mem_append, not_or]; exact ⟨hearlier, hn⟩⟩
  | conditional m test thenS elseS chosen =>
    simp only [children, scopeBefore, getElem?_arms]
    constructor
    · rintro ⟨hscope, names, h, hn⟩
      cases h with
      | onTrue h => exact ⟨thenS, .inl ⟨rfl, rfl⟩, hscope, names, h, hn⟩
      | onFalse h => exact ⟨_, .inr ⟨rfl, rfl⟩, hscope, names, h, hn⟩
    · rintro ⟨c, ⟨rfl, rfl⟩ | ⟨rfl, rfl⟩, hscope, names, h, hn⟩
      · exact ⟨hscope, names, .onTrue h, hn⟩
      · exact ⟨hscope, names, .onFalse h, hn⟩
  | loop m test body =>
    constructor
    · rintro ⟨hscope, _, h, hn⟩
      cases h with
      | iteration count he h =>
        rw [List.mem_append, not_or] at hn
        exact ⟨body, rfl, hscope, _, h, hn.2⟩
    · rintro ⟨c, hc, hscope, names, h, hn⟩
      obtain ⟨rfl, rfl⟩ := getElem?_body hc
      -- the first iteration comes there first
      exact ⟨hscope, _, .iteration 0 .nil h, hn⟩
  | _ =>
    constructor
    · rintro ⟨-, _, h, -⟩
      cases h
    · rintro ⟨c, hc, -⟩
      simp [children] at hc

theorem early_under {s : Stmt} (hs : s.LeaveFree) {i : Nat} :
    s.Early scope (o.under i) ↔ ∃ c, s.children[i]? = some c ∧ c.Early (s.scopeBefore i scope) o := by
  have harrives := arrives_child hs scope i o.place o.name
  constructor
  · rintro ⟨hoccurs, hearly⟩
    obtain ⟨c, hc, hoccurs⟩ := occurs_under.1 hoccurs
    obtain ⟨c', hc', hearly⟩ := harrives.1 hearly
    obtain rfl := Option.some.inj (hc.symm.trans hc')
    exact ⟨c, hc, hoccurs, hearly⟩
  · rintro ⟨c, hc, hoccurs, hearly⟩
    exact ⟨occurs_under.2 ⟨c, hc, hoccurs⟩, harrives.2 ⟨c, hc, hearly⟩⟩

theorem listed_own (s : Stmt) (scope : List String) :
    Listed (s.Own scope) (s.expressions.flatMap (·.unassigned scope)) := by
  have hnodes : s.expressions.flatMap (·.unassigned scope) =
      (s.expressions.flatMap Expr.nodes).filterMap (Expr.early? scope) := by
    simp only [Expr.unassigned_eq, List.filterMap_flatMap]
  rw [hnodes]
  refine (listed_nodes scope _).congr fun o => and_congr_right fun hplace => and_congr_left fun _ => ?_
  simp [Occurs, hplace, at?]

/-- **The check lists the early reads**, whatever is in scope at the beginning -/
theorem listed_unassigned {s : Stmt} (hs : s.LeaveFree) (scope : List String) :
    Listed (s.Early scope) (s.unassigned scope) := by
  induction s using children_induct generalizing scope with
  | h s ih =>
    have hchildren := Listed.flatten (R := fun i c => c.Early (s.scopeBefore i scope)) 0 fun i c hc =>
      ih c (List.mem_of_getElem? hc) (hs.child (List.mem_of_getElem? hc)) (s.scopeBefore i scope)
    rw [unassigned_eq]
    refine ((listed_own s scope).append hchildren ?_).congr fun o => ?_
    · rintro a b ⟨ha, -⟩ ⟨i, c, b, -, rfl, -⟩
      exact Occurrence.before_under_of_nil ha
    · obtain ⟨place, index, sp, n⟩ := o
      cases place with
      | nil =>
        rw [early_own rfl]
        refine ⟨.inl, fun h => h.resolve_right ?_⟩
        rintro ⟨i, c, o', -, ho, -⟩
        simp [Occurrence.under] at ho
      | cons i place =>
        have hunder : s.Early scope ⟨i :: place, index, sp, n⟩ ↔ _ := early_under (o := ⟨place, index, sp, n⟩) hs
        rw [hunder]
        constructor
        · rintro ⟨c, hc, h⟩
          exact .inr ⟨i, c, ⟨place, index, sp, n⟩, hc, by simp [Occurrence.under], h⟩
        · rintro (⟨hplace, -⟩ | ⟨j, c, o', hc, ho, h⟩)
          · simp at hplace
          · cases o'
            simp only [Occurrence.under, Occurrence.mk.injEq, List.cons.injEq, Nat.zero_add] at ho
            obtain ⟨⟨rfl, rfl⟩, rfl, rfl, rfl⟩ := ho
            exact ⟨c, hc, h⟩

/-- **The rule for variables is exact where no `leave` stands**: what it reports are just the reads that some control
path reaches with the name neither bound at the start nor assigned on the way, each once, in the order of the text -/
theorem unassigned_exact {s : Stmt} (hs : s.LeaveFree) (store : Store) (sel : Selection) :
    ∃ os : List Occurrence, os.Pairwise Occurrence.Before ∧
      (∀ o, o ∈ os ↔
        s.Occurs o ∧ store.isBound o.name = false ∧ ∃ names, s.Arrives o.place names ∧ o.name ∉ names) ∧
      s.problemsBy store sel .undefinedVariable = os.map fun o => .unassigned o.span o.name := by
  refine (listed_unassigned hs store.names).congr fun o => and_congr_right fun _ => and_congr_left fun _ => ?_
  rw [Store.mem_names, Bool.not_eq_true]

/-- sets the goal on either arm and the post in the loop only -/
def rounds : Stmt :=
  .sequence {} [
    .conditional {} (.boolean {} true) (.assign {} "goal" (.place {} .selected))
      (some (.assign {} "goal" (.var ⟨2, 8⟩ "home"))) none,
    .loop {} (.cubeTest {} .isPassable (.var ⟨3, 20⟩ "post"))
      (.sequence {} [.action {} .moveTo (.var ⟨4, 9⟩ "goal"), .assign {} "post" (.var ⟨5, 9⟩ "goal")] 0),
    .action {} .moveTo (.var ⟨7, 9⟩ "post")] 0

/-- the post is read too early by the test, and behind a loop without iterations; every path to the goal sets it -/
theorem unassigned_exact_rounds :
    let store := Store.ofList [("home", .position ⟨0, 0, 0⟩)]
    rounds.LeaveFree ∧
      rounds.problemsBy store {} .undefinedVariable =
        [.unassigned ⟨3, 20⟩ "post", .unassigned ⟨7, 9⟩ "post"] ∧
      (∃ o names, rounds.Occurs o ∧ o.span = ⟨7, 9⟩ ∧ rounds.Arrives o.place names ∧ "post" ∉ names) ∧
      ∀ names, rounds.Arrives [1, 0, 0] names → "goal" ∈ names := by
  intro store
  have hfree : rounds.LeaveFree := by simp [rounds]
  have hreports : rounds.problemsBy store {} .undefinedVariable =
      [.unassigned ⟨3, 20⟩ "post", .unassigned ⟨7, 9⟩ "post"] := by decide +kernel
  obtain ⟨os, -, hmem, hos⟩ := unassigned_exact hfree store {}
  have hgoal : ∀ names, rounds.Arrives [1, 0, 0] names → "goal" ∈ names := by
    by_contra! ⟨names, harrives, hn⟩
    have ho : ⟨[1, 0, 0], 0, ⟨4, 9⟩, "goal"⟩ ∈ os :=
      (hmem _).2 ⟨⟨_, rfl, rfl⟩, by decide +kernel, names, harrives, hn⟩
    have hp := List.mem_map_of_mem (f := fun o => Problem.unassigned o.span o.name) ho
    rw [← hos, hreports] at hp
    exact absurd hp (by decide)
  have hpost : ∃ o names, rounds.Occurs o ∧ o.span = ⟨7, 9⟩ ∧ rounds.Arrives o.place names ∧ "post" ∉ names := by
    have hp : Problem.unassigned ⟨7, 9⟩ "post" ∈ os.map fun o => .unassigned o.span o.name := by
      rw [← hos, hreports]
      decide
    obtain ⟨o, ho, heq⟩ := List.mem_map.1 hp
    obtain ⟨hspan, hname⟩ := Problem.unassigned.inj heq
    obtain ⟨hoccurs, -, names, harrives, hn⟩ := (hmem o).1 ho
    exact ⟨o, names, hoccurs, hspan, harrives, hname ▸ hn⟩
  exact ⟨hfree, hreports, hpost, hgoal⟩

end Stmt

end Errand
