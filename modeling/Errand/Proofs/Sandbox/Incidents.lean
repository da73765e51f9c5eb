/-
Incidents: what may happen to a sandbox while one of its units is left alone.

An incident is a change of the sandbox, or an item that somebody puts down. It spares a unit if it neither slays nor
frees it: the unit is not killed, commanded or aborted, and no new one takes its place. All the rest is allowed, to the
other units above all. A unit that is spared is changed by the passing of time only (`actors_undergo`), so what is said
of it may count the ticks (`undergone_induct`).
-/
import Errand.Proofs.Sandbox.Stuck

namespace Errand

inductive Incident where
  | change (x : Sandbox.Change)
  /-- an item is put down from outside -/
  | drop (i : Item) (c : Cube)
  deriving DecidableEq, Repr

namespace Incident

def tick : Incident := .change (.event .advance)

/-- the unit is neither slain nor freed -/
def Spares (w : Sandbox) (u : UnitId) : Incident → Prop
  | .change x => ¬ x.Slays w u ∧ ¬ x.Frees u
  | .drop .. => True

/-- a cube is filled from outside -/
def Fills : Incident → Prop
  | .change (.setTerrain ..) => True
  | _ => False

/-- how often time passes -/
def ticks (xs : List Incident) : Nat := xs.count tick

end Incident

namespace Sandbox

open Incident

variable {w : Sandbox} {u : UnitId} {x : Incident} {xs : List Incident}

def undergo (w : Sandbox) : Incident → Sandbox
  | .change x => w.change x
  | .drop i c => w.drop i c

def undergone (w : Sandbox) (xs : List Incident) : Sandbox := xs.foldl undergo w

def Spared (u : UnitId) : Sandbox → List Incident → Prop
  | _, [] => True
  | w, x :: xs => x.Spares w u ∧ Spared u (w.undergo x) xs

theorem actors_drop (w : Sandbox) (i : Item) (c : Cube) : (w.drop i c).actors = w.actors := by
  cases i <;> rfl

/-- a unit that is spared is changed by nothing but time -/
theorem actors_undergo (h : x.Spares w u) (hx : x ≠ tick) : (w.undergo x).actors[u]? = w.actors[u]? := by
  cases x with
  | change x =>
    obtain hsame | rfl := actors_change h.1 h.2
    · exact hsame
    · exact absurd rfl hx
  | drop i c => rw [undergo, actors_drop]

/-- **The ticks can be counted**: what outlasts every incident that spares the unit, and goes on by one with time, has
gone on by the number of ticks -/
theorem undergone_induct {Q : Incident → Prop} {P : Nat → Sandbox → Prop}
    (hother : ∀ k w x, P k w → Q x → x.Spares w u → x ≠ tick → P k (w.undergo x))
    (htick : ∀ k w, P k w → P (k + 1) w.advance) {k : Nat} (hxs : ∀ x ∈ xs, Q x) (hspared : Spared u w xs)
    (h : P k w) : P (k + ticks xs) (w.undergone xs) := by
  induction xs generalizing w k with
  | nil => exact h
  | cons x xs ih =>
    obtain ⟨hx, hrest⟩ := List.forall_mem_cons.1 hxs
    by_cases htime : x = tick
    · subst htime
      have hcount : k + ticks (tick :: xs) = k + 1 + ticks xs := by
        rw [ticks, List.count_cons_self, ← Nat.add_assoc, Nat.add_right_comm]
        rfl
      rw [hcount]
      exact ih hrest hspared.2 (htick k w h)
    · have hcount : ticks (x :: xs) = ticks xs := List.count_cons_of_ne htime
      rw [hcount]
      exact ih hrest hspared.2 (hother k w x h hx hspared.1 htime)

end Sandbox

end Errand
