/-
Widths: the ranges of integers of 64 bits.
-/

namespace Errand

/-- the integer can be held with a sign in 64 bits -/
def fitsInt64 (n : Int) : Bool := Int64.minValue.toInt ≤ n && n ≤ Int64.maxValue.toInt

/-- the integer with a sign in 64 bits -/
def toInt64? (n : Int) : Option Int64 := if fitsInt64 n then some (Int64.ofInt n) else none

/-- the integer without a sign in 64 bits, as a natural number -/
def toWord? (n : Int) : Option Nat := if 0 ≤ n && n < UInt64.size then some n.toNat else none

end Errand
