/-
Stores: the variables of a task, each with the value last assigned to it.
-/
import Errand.Value

namespace Errand

structure Store where
  entries : Std.ExtTreeMap String Value
  deriving DecidableEq

namespace Store

def empty : Store := ⟨∅⟩

instance : Inhabited Store := ⟨empty⟩

def get? (s : Store) (name : String) : Option Value := s.entries[name]?

/-- assigning replaces what the name held -/
def set (s : Store) (name : String) (v : Value) : Store := ⟨s.entries.insert name v⟩

def isBound (s : Store) (name : String) : Bool := s.entries.contains name

/-- the bound names, in order of their text -/
def names (s : Store) : List String := s.entries.keys

/-- how many names are bound -/
def size (s : Store) : Nat := s.entries.size

/-- the variables with their values, in order of the names -/
def toList (s : Store) : List (String × Value) := s.entries.toList

/-- of two values for one name, the later counts -/
def ofList (l : List (String × Value)) : Store := l.foldl (fun s nv => s.set nv.1 nv.2) empty

theorem get?_set (s : Store) (n m : String) (v : Value) :
    (s.set n v).get? m = if n = m then some v else s.get? m := by
  simp [get?, set, Std.ExtTreeMap.getElem?_insert]

theorem isBound_eq_isSome (s : Store) (n : String) : s.isBound n = (s.get? n).isSome := by
  simp [isBound, get?]

/-- an assignment binds its name and unbinds none -/
theorem isBound_set (s : Store) (n m : String) (v : Value) : (s.set n v).isBound m = (n == m || s.isBound m) := by
  rw [isBound_eq_isSome, get?_set, isBound_eq_isSome]
  by_cases h : n = m <;> simp [h]

theorem mem_names {s : Store} {n : String} : n ∈ s.names ↔ s.isBound n = true := by
  simp [names, isBound]

end Store

end Errand
