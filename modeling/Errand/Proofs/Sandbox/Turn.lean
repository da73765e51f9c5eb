/-
Turns in a sandbox: what one unit does in a tick.

Time passes for the units one after the other, each in the sandbox that those before it have left. `turn` says once
what a unit can do in its turn; whatever is said of the passing of time is said of these seven cases. A unit has one
turn in a tick (`actors_of_split`), and the turns of the others do not concern it (`actors_advanceUnit_of_ne`).
-/
import Errand.Sandbox
import Mathlib.Tactic

namespace Errand

/-- it is alive and has an action under way -/
structure Actor.Busy (a : Actor) : Prop where
  alive : a.unit.alive = true
  status : a.status = .inProgress

namespace Sandbox

variable {w w' : Sandbox} {u v : UnitId} {a : Actor} {c target : Cube}

/-! ## One unit at a time -/

theorem actors_modifyActor (w : Sandbox) (u : UnitId) (f : Actor → Actor) (v : UnitId) :
    (w.modifyActor u f).actors[v]? = if u = v then w.actors[v]?.map f else w.actors[v]? := by
  rw [modifyActor, Std.ExtTreeMap.getElem?_modify]
  by_cases h : u = v
  · subst v
    simp
  · rw [if_neg (by simpa using h), if_neg h]

theorem actors_modifyActor_self (ha : w.actors[u]? = some a) (f : Actor → Actor) :
    (w.modifyActor u f).actors[u]? = some (f a) := by
  rw [actors_modifyActor, if_pos rfl, ha]
  rfl

theorem actors_modifyActor_of_ne (h : u ≠ v) (f : Actor → Actor) : (w.modifyActor u f).actors[v]? = w.actors[v]? := by
  rw [actors_modifyActor, if_neg h]

theorem actors_start (ha : w.actors[u]? = some a) (halive : a.unit.alive = true) (activity : Activity)
    (status : ActionStatus) : (w.start u activity status).actors[u]? = some { a with activity, status } := by
  rw [start, actors_modifyActor_self ha, if_pos halive]

/-! ## Steps -/

/-- the passable neighbours that are nearer to the goal -/
def closer (w : Sandbox) (c target : Cube) : List Cube :=
  c.adjacent.filter fun n => w.isPassable n && !(n.distance target ≥ c.distance target)

theorem mem_closer {n : Cube} : n ∈ w.closer c target ↔
    n ∈ c.adjacent ∧ w.isPassable n = true ∧ ¬ c.distance target ≤ n.distance target := by
  simp [closer]

/-- a step goes to one of them -/
theorem mem_of_stepToward? {n : Cube} (h : w.stepToward? c target = some n) : n ∈ w.closer c target := by
  suffices hbest : ∀ n, w.stepToward? c target = some n → n ∈ w.closer c target from hbest n h
  refine List.foldlRecOn (motive := fun best => ∀ n, best = some n → n ∈ w.closer c target) _ _ nofun ?_
  intro best ih n hn m hm
  cases best with
  | none => exact Option.some.inj hm ▸ hn
  | some b =>
    simp only [] at hm
    split at hm
    · exact ih m hm
    · exact Option.some.inj hm ▸ hn

/-- and there is a step as long as there is one of them -/
theorem closer_of_stepToward? (h : w.stepToward? c target = none) : w.closer c target = [] := by
  obtain hnil | ⟨before, n, hlast⟩ := (w.closer c target).eq_nil_or_concat
  · exact hnil
  · -- the last one of them is compared with the best so far, and one of the two is the step
    change (w.closer c target).foldl _ none = none at h
    rw [hlast, List.concat_eq_append, List.foldl_append, List.foldl_cons, List.foldl_nil] at h
    split at h
    · split at h <;> cases h
    · cases h

/-- a walk ends where it should, or where there is no step, or goes on by a step -/
theorem walk_cases (w : Sandbox) (a : Actor) (goal : Cube) (arrived : Cube → Bool) :
    (arrived a.unit.position = true ∧ w.walk a goal arrived = Actor.ended a .completed a.unit.position) ∨
    arrived a.unit.position = false ∧
      ((w.stepToward? a.unit.position goal = none ∧ w.walk a goal arrived = Actor.ended a .failed a.unit.position) ∨
      ∃ n, w.stepToward? a.unit.position goal = some n ∧
        ((arrived n = true ∧ w.walk a goal arrived = Actor.ended a .completed n) ∨
          (arrived n = false ∧ w.walk a goal arrived = { a with unit := { a.unit with position := n } }))) := by
  unfold walk
  simp only []
  cases hhere : arrived a.unit.position with
  | true => exact .inl ⟨rfl, rfl⟩
  | false =>
    refine .inr ⟨rfl, ?_⟩
    cases hn : w.stepToward? a.unit.position goal with
    | none => exact .inl ⟨rfl, rfl⟩
    | some n => cases hthere : arrived n <;> simp [hthere]

/-! ## Turns -/

/-- what the turn of a unit may make of the sandbox -/
inductive Turn (w : Sandbox) (u : UnitId) : Sandbox → Prop
  | absent (h : w.actors[u]? = none) : Turn w u w
  /-- time passes it by -/
  | rests {a : Actor} (ha : w.actors[u]? = some a) (h : a.Busy → a.activity = .idle) : Turn w u w
  | moves {a : Actor} {target : Cube} (ha : w.actors[u]? = some a) (hbusy : a.Busy)
      (h : a.activity = .moving target) : Turn w u (w.modifyActor u fun a => w.walk a target (· = target))
  | works {a : Actor} {target : Cube} {remaining : Nat} (ha : w.actors[u]? = some a) (hbusy : a.Busy)
      (h : a.activity = .working target remaining) (hmore : 1 < remaining) :
      Turn w u (w.modifyActor u ({ · with activity := .working target (remaining - 1) }))
  | finishes {a : Actor} {target : Cube} {remaining : Nat} (ha : w.actors[u]? = some a) (hbusy : a.Busy)
      (h : a.activity = .working target remaining) (hlast : remaining ≤ 1) :
      Turn w u ((w.completeWork u target).modifyActor u fun a => Actor.ended a .completed a.unit.position)
  | follows {a : Actor} {target : UnitId} {other : Resident} (ha : w.actors[u]? = some a) (hbusy : a.Busy)
      (h : a.activity = .following target) (hother : w.unit? target = some other) (halive : other.alive = true) :
      Turn w u (w.modifyActor u fun a => w.walk a other.position (·.touches other.position))
  /-- there is nobody left to follow -/
  | loses {a : Actor} {target : UnitId} (ha : w.actors[u]? = some a) (hbusy : a.Busy)
      (h : a.activity = .following target) (hlost : w.isAlive target = false) :
      Turn w u (w.modifyActor u fun a => Actor.ended a .failed a.unit.position)

theorem advanceUnit_of_none (h : w.actors[u]? = none) : w.advanceUnit u = w := by
  unfold advanceUnit
  rw [h]

theorem advanceUnit_of_busy (ha : w.actors[u]? = some a) (h : a.Busy) :
    w.advanceUnit u =
      match a.activity with
      | .idle => w
      | .moving target => w.modifyActor u fun a => w.walk a target (· = target)
      | .working target remaining =>
        if remaining > 1 then w.modifyActor u ({ · with activity := .working target (remaining - 1) })
        else (w.completeWork u target).modifyActor u fun a => Actor.ended a .completed a.unit.position
      | .following target =>
        match w.unit? target with
        | some other =>
          if other.alive then w.modifyActor u fun a => w.walk a other.position (·.touches other.position)
          else w.modifyActor u fun a => Actor.ended a .failed a.unit.position
        | none => w.modifyActor u fun a => Actor.ended a .failed a.unit.position := by
  unfold advanceUnit
  rw [ha]
  exact (if_neg (by simp [h.alive, h.status])).trans rfl

theorem advanceUnit_of_rests (ha : w.actors[u]? = some a) (h : a.Busy → a.activity = .idle) :
    w.advanceUnit u = w := by
  by_cases hbusy : a.Busy
  · rw [advanceUnit_of_busy ha hbusy, h hbusy]
  · unfold advanceUnit
    rw [ha]
    simp only []
    rw [if_pos]
    by_contra hpasses
    simp only [Bool.or_eq_true, Bool.not_eq_true', decide_eq_true_eq, not_or, Bool.not_eq_false, not_not] at hpasses
    exact hbusy ⟨hpasses.1, hpasses.2⟩

/-- **A turn is one of seven** -/
theorem turn (w : Sandbox) (u : UnitId) : Turn w u (w.advanceUnit u) := by
  cases ha : w.actors[u]? with
  | none =>
    rw [advanceUnit_of_none ha]
    exact .absent ha
  | some a =>
    by_cases hrests : a.Busy → a.activity = .idle
    · rw [advanceUnit_of_rests ha hrests]
      exact .rests ha hrests
    · obtain ⟨hbusy, hactive⟩ := Classical.not_imp.1 hrests
      rw [advanceUnit_of_busy ha hbusy]
      cases h : a.activity with
      | idle => exact absurd h hactive
      | moving target => exact .moves ha hbusy h
      | working target remaining =>
        simp only []
        split
        · exact .works ha hbusy h ‹_›
        · exact .finishes ha hbusy h (Nat.le_of_not_lt ‹_›)
      | following target =>
        simp only []
        split
        · rename_i other hother
          cases halive : other.alive with
          | true => exact .follows ha hbusy h hother halive
          | false => exact .loses ha hbusy h (by simp [isAlive, hother, halive])
        · exact .loses ha hbusy h (by simp [isAlive, *])

/-! ## Whom a turn concerns -/

/-- the work of a unit changes what it carries, and nothing else of it -/
theorem actors_completeWork (ha : w.actors[u]? = some a) (target : Cube) : ∃ item?,
    (w.completeWork u target).actors[u]? = some { a with unit := { a.unit with carrying? := item? } } := by
  unfold completeWork
  repeat' split
  all_goals exact ⟨_, actors_modifyActor_self ha _⟩

theorem actors_completeWork_of_ne (h : u ≠ v) (target : Cube) :
    (w.completeWork u target).actors[v]? = w.actors[v]? := by
  unfold completeWork
  repeat' split
  all_goals exact actors_modifyActor_of_ne h _

theorem Turn.actors_of_ne (hturn : Turn w u w') (h : u ≠ v) : w'.actors[v]? = w.actors[v]? := by
  cases hturn with
  | absent | rests => rfl
  | moves | works | follows | loses => exact actors_modifyActor_of_ne h _
  | finishes => exact (actors_modifyActor_of_ne h _).trans (actors_completeWork_of_ne h _)

/-- time passes for one unit at a time -/
theorem actors_advanceUnit_of_ne (h : u ≠ v) : (w.advanceUnit u).actors[v]? = w.actors[v]? :=
  (w.turn u).actors_of_ne h

theorem actors_foldl_advanceUnit {us : List UnitId} (h : u ∉ us) (w : Sandbox) :
    (us.foldl advanceUnit w).actors[u]? = w.actors[u]? :=
  List.foldlRecOn us advanceUnit (motive := fun w' => w'.actors[u]? = w.actors[u]?) rfl fun _ ih _ hv =>
    (actors_advanceUnit_of_ne (ne_of_mem_of_not_mem hv h)).trans ih

/-- **A unit has one turn in a tick**: those before it leave it as it was, and those after it leave it as it is then -/
theorem actors_of_split {before after : List UnitId} (h : w.actors.keys = before ++ u :: after) :
    (before.foldl advanceUnit w).actors[u]? = w.actors[u]? ∧
      w.advance.actors[u]? = ((before.foldl advanceUnit w).advanceUnit u).actors[u]? := by
  have hnodup : w.actors.keys.Nodup := Std.ExtTreeMap.nodup_keys
  rw [h, List.nodup_append] at hnodup
  constructor
  · exact actors_foldl_advanceUnit (fun hb => hnodup.2.2 u hb u List.mem_cons_self rfl) w
  · rw [advance, h, List.foldl_append, List.foldl_cons]
    exact actors_foldl_advanceUnit (List.nodup_cons.1 hnodup.2.1).1 _

theorem exists_split (ha : w.actors[u]? = some a) : ∃ before after, w.actors.keys = before ++ u :: after := by
  have hmem : u ∈ w.actors.keys := by
    rw [Std.ExtTreeMap.mem_keys, Std.ExtTreeMap.mem_iff_isSome_getElem?, ha]
    rfl
  exact List.append_of_mem hmem

theorem actors_advance (w : Sandbox) (u : UnitId) :
    ∃ w' : Sandbox, w'.actors[u]? = w.actors[u]? ∧ w.advance.actors[u]? = (w'.advanceUnit u).actors[u]? := by
  cases ha : w.actors[u]? with
  | some a =>
    obtain ⟨before, after, hkeys⟩ := exists_split ha
    obtain ⟨hbefore, hafter⟩ := actors_of_split hkeys
    exact ⟨_, hbefore.trans ha, hafter⟩
  | none =>
    have hu : u ∉ w.actors.keys := by simpa using ha
    exact ⟨w, ha, by rw [advanceUnit_of_none ha]; exact actors_foldl_advanceUnit hu w⟩

end Sandbox

end Errand
