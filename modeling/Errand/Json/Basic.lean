/-
JSON values: the data that scenarios and trees are written in.

An integer literal of 64 bits, with or without a sign, is an `int`. Any other number is a `real` and is never taken for
an integer: one with a fraction or an exponent, a longer one, and the literal `-0`. Of a real only as many digits count
as fit a word of 64 bits, and its value is found with two roundings, as `realValue` says. Text can have the form of a
value and still stand for none: a number too large for a float, half of a surrogate pair, containers nested too deep.
Such a value is `flawed`; it may be skipped, but not used.
-/

namespace Errand

/-- a value, with the members of an object in the order of the text -/
inductive Json where
  | null
  | bool (b : Bool)
  | int (n : Int)
  /-- a natural number of 64 bits, to be scaled by a power of ten -/
  | real (negative : Bool) (significand : Nat) (exponent : Int)
  | str (s : String)
  | arr (items : List Json)
  | obj (members : List (String × Json))
  | flawed
  deriving Repr, Inhabited

namespace Json

/-! ## Numbers -/

def powerOfTen (n : Nat) : Float := Float.ofScientific 1 false n

/-- the greatest power of ten that is a float -/
def topPower : Nat := 308

/-- divides by the greatest power of ten until the rest of the exponent is in reach; three times leave nothing -/
def scaleDown : Nat → Float → Nat → Float
  | 0, _, _ => 0.0
  | fuel + 1, x, e =>
    if e ≤ topPower then x / powerOfTen e else scaleDown fuel (x / powerOfTen topPower) (e - topPower)

/-- the float that a significand and a power of ten make: the significand is rounded, then its product or quotient with
    the power -/
def realSize (significand : Nat) (exponent : Int) : Float :=
  let x := significand.toUInt64.toFloat
  if exponent < 0 then scaleDown 3 x exponent.natAbs
  else if significand = 0 then 0.0
  else if exponent ≤ topPower then x * powerOfTen exponent.toNat
  else 1.0 / 0.0

/-- the float that a real stands for; zero has a sign as well -/
def realValue (negative : Bool) (significand : Nat) (exponent : Int) : Float :=
  let x := realSize significand exponent
  if negative then -x else x

/-! ## Soundness -/

mutual

/-- there is no flaw in the value or anything in it -/
def isSound : Json → Bool
  | .flawed => false
  | .arr items => soundItems items
  | .obj members => soundMembers members
  | .null | .bool _ | .int _ | .real .. | .str _ => true

def soundItems : List Json → Bool
  | [] => true
  | j :: rest => j.isSound && soundItems rest

def soundMembers : List (String × Json) → Bool
  | [] => true
  | (_, j) :: rest => j.isSound && soundMembers rest

end

/-! ## Reading -/

/-- the integers from `lo` to below `hi` -/
def intIn? (lo hi : Int) : Json → Option Int
  | .int n => if lo ≤ n ∧ n < hi then some n else none
  | _ => none

def natBelow? (bound : Nat) (j : Json) : Option Nat := (j.intIn? 0 bound).map Int.toNat

/-- a signed number of 64 bits -/
def int64? (j : Json) : Option Int64 := (j.intIn? Int64.minValue.toInt (Int64.maxValue.toInt + 1)).map Int64.ofInt

def uint64? (j : Json) : Option UInt64 := (j.natBelow? UInt64.size).map UInt64.ofNat

def uint32? (j : Json) : Option UInt32 := (j.natBelow? UInt32.size).map UInt32.ofNat

/-- a number of 64 bits, kept as a natural number -/
def word? (j : Json) : Option Nat := j.natBelow? UInt64.size

def bool? : Json → Option Bool
  | .bool b => some b
  | _ => none

def str? : Json → Option String
  | .str s => some s
  | _ => none

def list? {α : Type} (read : Json → Option α) : Json → Option (List α)
  | .arr items => items.mapM read
  | _ => none

/-- `null` for nothing -/
def option? {α : Type} (read : Json → Option α) : Json → Option (Option α)
  | .null => some none
  | j => (read j).map some

/-- reading goes on only where a condition holds -/
def only? (b : Bool) : Option Unit := if b then some () else none

/-- the first member of a name -/
def member? (members : List (String × Json)) (name : String) : Option Json := members.lookup name

/-- none of the names occurs twice among the members; other names may -/
def unrepeated (names : List String) (members : List (String × Json)) : Bool :=
  names.all fun n => (members.countP fun m => m.1 == n) ≤ 1

/-- the fields of a record, written as an object in any order or as an array in the given order; members of other names
    are skipped, and fields may be missing -/
def fields? (names : List String) : Json → Option (List (Option Json))
  | .obj members => if unrepeated names members then some (names.map (member? members)) else none
  | .arr items =>
    if items.length ≤ names.length then
      some (items.map some ++ List.replicate (names.length - items.length) none)
    else none
  | _ => none

def orElse {α : Type} (read : Json → Option α) (fallback : α) : Option Json → Option α
  | none => some fallback
  | some j => read j

theorem lookup_mem {members : List (String × Json)} {name : String} {j : Json}
    (h : member? members name = some j) : (name, j) ∈ members := by
  unfold member? at h
  induction members with
  | nil => simp at h
  | cons m rest ih =>
    obtain ⟨k, v⟩ := m
    rw [List.lookup_cons] at h
    split at h
    · next hk =>
      cases h
      simp [eq_of_beq hk]
    · simp [ih h]

/-- a member is smaller than the object, so reading it ends -/
theorem sizeOf_member {members : List (String × Json)} {name : String} {j : Json}
    (h : member? members name = some j) : sizeOf j < sizeOf (Json.obj members) := by
  have h := List.sizeOf_lt_of_mem (lookup_mem h)
  simp only [Prod.mk.sizeOf_spec, Json.obj.sizeOf_spec] at h ⊢
  omega

/-- the value that a word stands for; the word may also be the name of an empty choice -/
def worded? {α : Type} (ofWord? : String → Option α) : Json → Option α
  | .str s => ofWord? s
  | .obj [(s, .null)] => ofWord? s
  | _ => none

/-- the value that a word stands for in what has been kept; there an empty choice may also hold no members -/
def keptWord? {α : Type} (ofWord? : String → Option α) : Json → Option α
  | .obj [(s, .obj [])] => ofWord? s
  | j => j.worded? ofWord?

end Json

end Errand
