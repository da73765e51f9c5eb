/-
Numbers as text, the way settings and arguments write them: decimal digits with an optional sign, and no blanks.
-/
import Errand.Decimal
import Errand.Width

namespace Errand.Decimal

/-- the number that decimal digits write; there is at least one digit -/
def natural? (cs : List Char) : Option Nat :=
  if !cs.isEmpty && cs.all Char.isDigit then some (cs.foldl (fun n c => 10 * n + (c.toNat - 48)) 0) else none

/-- a natural number of 64 bits; a plus sign may stand before it -/
def word? (s : String) : Option Nat := do
  let n ← match s.toList with
    | '+' :: cs => natural? cs
    | cs => natural? cs
  toWord? n

def int64? (s : String) : Option Int64 := do
  let n : Int ← match s.toList with
    | '-' :: cs => (natural? cs).map fun n => -(n : Int)
    | '+' :: cs => (natural? cs).map fun n => (n : Int)
    | cs => (natural? cs).map fun n => (n : Int)
  toInt64? n

def exponent? : List Char → Option Int
  | [] => some 0
  | 'e' :: cs | 'E' :: cs =>
    match cs with
    | '-' :: cs => (natural? cs).map fun n => -(n : Int)
    | '+' :: cs => (natural? cs).map fun n => (n : Int)
    | cs => (natural? cs).map fun n => (n : Int)
  | _ => none

/-- a float without its sign: digits with a point anywhere among them, and an exponent -/
def unsigned? (negative : Bool) (cs : List Char) : Option Float := do
  let (front, rest) := cs.span Char.isDigit
  let (fraction, rest) := match rest with
    | '.' :: rest => rest.span Char.isDigit
    | rest => ([], rest)
  let digits ← natural? (front ++ fraction)
  return toFloat negative digits ((← exponent? rest) - fraction.length)

/-- a float: a decimal number, or a word for infinity or for what is no number -/
def float? (s : String) : Option Float :=
  let (negative, cs) := match s.toList with
    | '-' :: cs => (true, cs)
    | '+' :: cs => (false, cs)
    | cs => (false, cs)
  match String.ofList (cs.map Char.toLower) with
  | "inf" | "infinity" => some (if negative then -1.0 / 0.0 else 1.0 / 0.0)
  | "nan" => some (0.0 / 0.0)
  | _ => unsigned? negative cs

end Errand.Decimal
