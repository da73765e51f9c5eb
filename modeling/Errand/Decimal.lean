/-
Floats as decimal text.

A float is written with the fewest digits that read back as the same float, nearest to its value among those and the
greater of two as near, and always positionally: whole numbers have no point. `toFloat` is the other way, rounding a
decimal to the nearest float.
-/

namespace Errand.Decimal

/-- the value of a finite float without its sign, mantissa times a power of two -/
structure Binary where
  mantissa : Nat
  exponent : Int
  deriving DecidableEq, Repr

/-- the weight of the leading bit of a mantissa, above the 52 bits that are stored -/
def leading : Nat := 4503599627370496

/-- mantissa and exponent that the bits of a float hold -/
def Binary.ofBits (bits : UInt64) : Binary :=
  let fraction := bits.toNat % leading
  let biased := bits.toNat / leading % 2048
  if biased = 0 then ⟨fraction, -1074⟩ else ⟨fraction + leading, biased - 1075⟩

/-- a positive fraction -/
structure Ratio where
  num : Nat
  den : Nat
  deriving Repr

namespace Ratio

/-- a natural number times a power of a base -/
def scaled (m base : Nat) (e : Int) : Ratio :=
  if 0 ≤ e then ⟨m * Nat.pow base e.toNat, 1⟩ else ⟨m, Nat.pow base (-e).toNat⟩

/-- comparison without division -/
def le (a b : Ratio) : Bool := a.num * b.den ≤ b.num * a.den

/-- comparison without division -/
def lt (a b : Ratio) : Bool := a.num * b.den < b.num * a.den

/-- twice the distance to a fraction is compared with that of another: `a` is no farther from `v` than `b` is -/
def noFarther (v a b : Ratio) : Bool :=
  let gap (x : Ratio) : Nat := (v.num * x.den : Int) - x.num * v.den |>.natAbs
  gap a * b.den ≤ gap b * a.den

/-- the least exponent of ten that reaches beyond the fraction, found by steps down -/
def magnitudeFrom (v : Ratio) : Nat → Int → Int
  | 0, e => e
  | fuel + 1, e => if (scaled 1 10 (e - 1)).le v then e else v.magnitudeFrom fuel (e - 1)

end Ratio

/-- digits, as a number, and the power of ten they are scaled by -/
structure Digits where
  digits : Nat
  exponent : Int
  deriving DecidableEq, Repr

/-- the values that round to a float: its end points belong to it exactly if the mantissa is even -/
def Binary.rounds (b : Binary) (r : Ratio) : Bool :=
  let narrow := b.mantissa = leading && b.exponent > -1074
  let low := if narrow then Ratio.scaled (4 * b.mantissa - 1) 2 (b.exponent - 2)
    else Ratio.scaled (2 * b.mantissa - 1) 2 (b.exponent - 1)
  let high := Ratio.scaled (2 * b.mantissa + 1) 2 (b.exponent - 1)
  if b.mantissa % 2 = 0 then low.le r && r.le high else low.lt r && r.lt high

/-- the neighbour of the value on the grid of a power of ten that rounds to the float: the nearer one of two, the upper
    one if it lies in the middle -/
def Binary.onGrid? (b : Binary) (k : Int) : Option Digits :=
  let v := Ratio.scaled b.mantissa 2 b.exponent
  let mesh := Ratio.scaled 1 10 k
  let below := v.num * mesh.den / (v.den * mesh.num)
  let point (d : Nat) := Ratio.scaled d 10 k
  let fits (d : Nat) := d ≠ 0 && b.rounds (point d)
  match fits below, fits (below + 1) with
  | true, true => some ⟨if Ratio.noFarther v (point (below + 1)) (point below) then below + 1 else below, k⟩
  | true, false => some ⟨below, k⟩
  | false, true => some ⟨below + 1, k⟩
  | false, false => none

/-- the coarsest grid on which a neighbour rounds to the float -/
def Binary.shortestFrom (b : Binary) : Nat → Int → Digits
  | 0, k => (b.onGrid? k).getD ⟨0, 0⟩
  | fuel + 1, k => (b.onGrid? k).getD (b.shortestFrom fuel (k - 1))

/-- the fewest digits that read back as the float -/
def Binary.shortest (b : Binary) : Digits :=
  if b.mantissa = 0 then ⟨0, 0⟩ else
  let top := (Ratio.scaled b.mantissa 2 b.exponent).magnitudeFrom 700 310
  b.shortestFrom 20 top

/-- digits written positionally -/
def Digits.text (d : Digits) : String :=
  let ds := Nat.toDigits 10 d.digits
  let zeros (n : Nat) : List Char := List.replicate n '0'
  if 0 ≤ d.exponent then
    String.ofList (if d.digits = 0 then ds else ds ++ zeros d.exponent.toNat)
  else
    let places := (-d.exponent).toNat
    let padded := zeros (places + 1 - ds.length) ++ ds
    String.ofList (padded.take (padded.length - places) ++ '.' :: padded.drop (padded.length - places))

def text (x : Float) : String :=
  let bits := x.toBits
  let sign := if bits ≥ 0x8000000000000000 then "-" else ""
  if x.isNaN then "NaN"
  else if x.isInf then sign ++ "inf"
  else sign ++ (Binary.ofBits bits).shortest.text

/-- the float nearest to a decimal; what is out of range is infinite or zero -/
def toFloat (negative : Bool) (digits : Nat) (exponent : Int) : Float :=
  let size : Int := (Nat.toDigits 10 digits).length + exponent
  let x :=
    if digits = 0 || size < -330 then 0.0
    else if size > 310 then 1.0 / 0.0
    else Float.ofScientific digits (exponent < 0) exponent.natAbs
  if negative then -x else x

end Errand.Decimal
