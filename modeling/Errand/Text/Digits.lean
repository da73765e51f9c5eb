/-
Digits: numbers and characters that are written by their digits to a base.
-/

namespace Errand.Text

/-- the number a digit to base sixteen stands for -/
def hexValue? (c : Char) : Option Nat :=
  if '0' ≤ c ∧ c ≤ '9' then some (c.toNat - 48)
  else if 'a' ≤ c ∧ c ≤ 'f' then some (c.toNat - 87)
  else if 'A' ≤ c ∧ c ≤ 'F' then some (c.toNat - 55)
  else none

/-- the number a digit to a base of at most sixteen stands for -/
def digitValue? (base : Nat) (c : Char) : Option Nat := (hexValue? c).filter (· < base)

def numberIn (base : Nat) (ds : List Nat) : Nat := ds.foldl (fun n d => base * n + d) 0

/-- the number that text writes to a base; there is at least one digit and nothing else -/
def number? (base : Nat) (cs : List Char) : Option Nat :=
  if cs.isEmpty then none else (cs.mapM (digitValue? base)).map (numberIn base)

/-- the character with a number; halves of surrogate pairs are none -/
def character? (n : Nat) : Option Char :=
  if n < 0xD800 ∨ (0xE000 ≤ n ∧ n < 0x110000) then some (Char.ofNat n) else none

/-- the character whose number is written by the next digits to base sixteen, of which there is a fixed count -/
def hexCharacter? (count : Nat) (cs : List Char) : Option (Char × List Char) :=
  let ds := cs.take count
  if ds.length < count then none else do return (← character? (← number? 16 ds), cs.drop count)

end Errand.Text
