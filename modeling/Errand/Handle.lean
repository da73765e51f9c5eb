/-
Handles: the numbers by which tasks, schedulers, units and factions are named.

Tasks and schedulers are numbered in the order they were added, so their handles are indices. Units and factions belong
to the world; their numbers are the world's own. Each kind is a type of its own, ordered by its number.
-/
import Std.Data.ExtTreeMap
import Std.Data.ExtTreeSet

namespace Errand

/-- index of a task in the arena that owns it -/
structure TaskId where
  index : Nat
  deriving DecidableEq, Repr, Inhabited

/-- index of a scheduler -/
structure SchedulerId where
  index : Nat
  deriving DecidableEq, Repr, Inhabited

/-- number of a unit of the world -/
structure UnitId where
  number : UInt32
  deriving DecidableEq, Repr, Inhabited

/-- number of a faction of the world -/
structure FactionId where
  number : UInt32
  deriving DecidableEq, Repr, Inhabited

instance : Ord SchedulerId := ⟨compareOn SchedulerId.index⟩
instance : Ord UnitId := ⟨compareOn UnitId.number⟩
instance : Ord FactionId := ⟨compareOn FactionId.number⟩

instance : Std.TransOrd SchedulerId := inferInstanceAs (Std.TransCmp (compareOn SchedulerId.index))
instance : Std.TransOrd UnitId := inferInstanceAs (Std.TransCmp (compareOn UnitId.number))
instance : Std.TransOrd FactionId := inferInstanceAs (Std.TransCmp (compareOn FactionId.number))

instance : Std.LawfulEqOrd SchedulerId where
  eq_of_compare {a b} h := by
    cases a; cases b; congr; exact Std.LawfulEqOrd.eq_of_compare h

instance : Std.LawfulEqOrd UnitId where
  eq_of_compare {a b} h := by
    cases a; cases b; congr; exact Std.LawfulEqOrd.eq_of_compare h

instance : Std.LawfulEqOrd FactionId where
  eq_of_compare {a b} h := by
    cases a; cases b; congr; exact Std.LawfulEqOrd.eq_of_compare h

def TaskId.text (t : TaskId) : String := s!"task#{t.index}"

def SchedulerId.text (s : SchedulerId) : String := s!"scheduler#{s.index}"

def UnitId.text (u : UnitId) : String := s!"unit#{u.number}"

def FactionId.text (f : FactionId) : String := s!"faction#{f.number}"

end Errand
