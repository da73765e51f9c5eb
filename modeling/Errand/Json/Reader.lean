/-
Reading JSON text.

The grammar is the strict one: no comments, no trailing commas, no leading zeros, no raw control characters in strings,
nothing but blanks around the value. Containers may be nested 127 deep.
-/
import Errand.Json.Basic
import Errand.Text.Digits

namespace Errand.Json.Reader

def isBlank (c : Char) : Bool := c = ' ' || c = '\n' || c = '\t' || c = '\r'

/-- text from its first character that is no blank -/
def skipBlanks (cs : List Char) : List Char := cs.dropWhile isBlank

def isDigit (c : Char) : Bool := '0' ≤ c && c ≤ '9'

def digitValue (c : Char) : Nat := c.toNat - 48

/-- the number that a run of digits writes -/
def natOf (ds : List Char) : Nat := ds.foldl (fun n d => 10 * n + digitValue d) 0

/-! ## Numbers -/

/-- the parts of a number as they are written -/
structure Numeral where
  negative : Bool
  whole : List Char
  fraction : List Char := []
  /-- sign and digits of the exponent -/
  exponent? : Option (Bool × List Char) := none

/-- digits, at least one -/
def digits? (cs : List Char) : Option (List Char × List Char) :=
  match cs.span isDigit with
  | ([], _) => none
  | (ds, rest) => some (ds, rest)

/-- digits without a leading zero -/
def whole? : List Char → Option (List Char × List Char)
  | '0' :: rest => if rest.head?.any isDigit then none else some (['0'], rest)
  | cs => digits? cs

/-- the fraction, empty if there is no point -/
def fraction? : List Char → Option (List Char × List Char)
  | '.' :: rest => digits? rest
  | cs => some ([], cs)

def exponent? : List Char → Option (Option (Bool × List Char) × List Char)
  | 'e' :: '+' :: rest | 'E' :: '+' :: rest => (digits? rest).map fun (ds, rest) => (some (false, ds), rest)
  | 'e' :: '-' :: rest | 'E' :: '-' :: rest => (digits? rest).map fun (ds, rest) => (some (true, ds), rest)
  | 'e' :: rest | 'E' :: rest => (digits? rest).map fun (ds, rest) => (some (false, ds), rest)
  | cs => some (none, cs)

/-- the longest number that a text begins with -/
def numeral? (cs : List Char) : Option (Numeral × List Char) := do
  let (negative, cs) := match cs with
    | '-' :: rest => (true, rest)
    | _ => (false, cs)
  let (whole, cs) ← whole? cs
  let (fraction, cs) ← fraction? cs
  let (exponent?, cs) ← exponent? cs
  return ({ negative, whole, fraction, exponent? }, cs)

namespace Numeral

/-- the power of ten that the numeral is scaled by -/
def exponentValue (n : Numeral) : Int :=
  match n.exponent? with
  | none => 0
  | some (negative, ds) => if negative then -(natOf ds : Int) else natOf ds

/-- the digits that fit a 64-bit word, and the power of ten they are to be scaled by -/
def significand (n : Numeral) : Nat × Int :=
  let take (acc : Nat × Nat × Bool) (d : Char) : Nat × Nat × Bool :=
    let (m, dropped, full) := acc
    let m' := 10 * m + digitValue d
    if full || m' ≥ UInt64.size then (m, dropped + 1, true) else (m', dropped, false)
  let (m, dropped, _) := n.whole.foldl take (0, 0, false)
  let (m, dropped', _) := n.fraction.foldl take (m, 0, false)
  (m, n.exponentValue + dropped - (n.fraction.length - dropped' : Nat))

def real (n : Numeral) : Json :=
  let (m, e) := n.significand
  if (realSize m e).isInf then .flawed else .real n.negative m e

/-- the value of a numeral; only a literal of 64 bits without fraction and exponent is an integer, and `-0` is none -/
def value (n : Numeral) : Json :=
  let whole := natOf n.whole
  if !n.fraction.isEmpty || n.exponent?.isSome || whole ≥ UInt64.size then n.real
  else if !n.negative then .int whole
  else if whole = 0 || whole > 9223372036854775808 then n.real
  else .int (-whole)

end Numeral

/-! ## Strings -/

/-- a piece of a string: a character, or a 16-bit unit that was written as an escape -/
inductive Piece where
  | char (c : Char)
  | unit (n : Nat)
  deriving DecidableEq, Repr

def shortEscape? : Char → Option Char
  | '"' => some '"'
  | '\\' => some '\\'
  | '/' => some '/'
  | 'b' => some '\x08'
  | 'f' => some '\x0c'
  | 'n' => some '\n'
  | 'r' => some '\r'
  | 't' => some '\t'
  | _ => none

/-- the pieces up to the closing quote, and what follows it -/
def pieces? : List Char → Option (List Piece × List Char)
  | [] => none
  | '"' :: rest => some ([], rest)
  | '\\' :: 'u' :: a :: b :: c :: d :: rest => do
    let n ← Text.number? 16 [a, b, c, d]
    let (ps, rest) ← pieces? rest
    return (.unit n :: ps, rest)
  | '\\' :: e :: rest => do
    let c ← shortEscape? e
    let (ps, rest) ← pieces? rest
    return (.char c :: ps, rest)
  | c :: rest =>
    if c.toNat < 32 || c = '\\' then none else do
    let (ps, rest) ← pieces? rest
    return (.char c :: ps, rest)

/-- the characters that the pieces make up; halves of a surrogate pair must meet -/
def joined? : List Piece → Option (List Char)
  | [] => some []
  | .char c :: rest => (joined? rest).map (c :: ·)
  | .unit n :: .unit m :: rest =>
    if 0xD800 ≤ n ∧ n < 0xDC00 then
      if 0xDC00 ≤ m ∧ m < 0xE000 then
        (joined? rest).map (Char.ofNat (0x10000 + (n - 0xD800) * 0x400 + (m - 0xDC00)) :: ·)
      else none
    else if 0xDC00 ≤ n ∧ n < 0xE000 then none
    else (joined? (.unit m :: rest)).map (Char.ofNat n :: ·)
  | .unit n :: rest =>
    if 0xD800 ≤ n ∧ n < 0xE000 then none else (joined? rest).map (Char.ofNat n :: ·)

/-- the string after an opening quote; no string if its pieces make up none -/
def string? (cs : List Char) : Option (Option String × List Char) := do
  let (ps, rest) ← pieces? cs
  return ((joined? ps).map String.ofList, rest)

/-! ## Values -/

def word? (w : String) (cs : List Char) : Option (List Char) :=
  if w.toList.isPrefixOf cs then some (cs.drop w.length) else none

/-- a container is flawed when there is no room left for it -/
def within (room : Nat) (j : Json) : Json := if room = 0 then .flawed else j

mutual

/-- a value at the start of the text; `room` counts the containers that may still be opened -/
def value? : Nat → Nat → List Char → Option (Json × List Char)
  | 0, _, _ => none
  | fuel + 1, room, cs =>
    match cs with
    | '"' :: rest => do
      let (s?, rest) ← string? rest
      return (s?.elim .flawed .str, rest)
    | '[' :: rest => do
      let (items, rest) ← items? fuel (room - 1) (skipBlanks rest)
      return (within room (.arr items), rest)
    | '{' :: rest => do
      let (members?, rest) ← members? fuel (room - 1) (skipBlanks rest)
      return (within room (members?.elim .flawed .obj), rest)
    | 'n' :: _ => (word? "null" cs).map fun rest => (.null, rest)
    | 't' :: _ => (word? "true" cs).map fun rest => (.bool true, rest)
    | 'f' :: _ => (word? "false" cs).map fun rest => (.bool false, rest)
    | _ => (numeral? cs).map fun (n, rest) => (n.value, rest)

def items? : Nat → Nat → List Char → Option (List Json × List Char)
  | 0, _, _ => none
  | fuel + 1, room, cs =>
    match cs with
    | ']' :: rest => some ([], rest)
    | _ => do
      let (j, rest) ← value? fuel room cs
      let (more, rest) ← moreItems? fuel room (skipBlanks rest)
      return (j :: more, rest)

/-- the end of an array, or a comma and further items -/
def moreItems? : Nat → Nat → List Char → Option (List Json × List Char)
  | 0, _, _ => none
  | fuel + 1, room, cs =>
    match cs with
    | ']' :: rest => some ([], rest)
    | ',' :: rest => do
      let (j, rest) ← value? fuel room (skipBlanks rest)
      let (more, rest) ← moreItems? fuel room (skipBlanks rest)
      return (j :: more, rest)
    | _ => none

/-- the members of an object up to its end; no members if a name is flawed -/
def members? : Nat → Nat → List Char → Option (Option (List (String × Json)) × List Char)
  | 0, _, _ => none
  | fuel + 1, room, cs =>
    match cs with
    | '}' :: rest => some (some [], rest)
    | _ => do
      let ((k?, j), rest) ← member? fuel room cs
      let (more?, rest) ← moreMembers? fuel room (skipBlanks rest)
      return (do return (← k?, j) :: (← more?), rest)

/-- the end of an object, or a comma and further members -/
def moreMembers? : Nat → Nat → List Char → Option (Option (List (String × Json)) × List Char)
  | 0, _, _ => none
  | fuel + 1, room, cs =>
    match cs with
    | '}' :: rest => some (some [], rest)
    | ',' :: rest => do
      let ((k?, j), rest) ← member? fuel room (skipBlanks rest)
      let (more?, rest) ← moreMembers? fuel room (skipBlanks rest)
      return (do return (← k?, j) :: (← more?), rest)
    | _ => none

def member? : Nat → Nat → List Char → Option ((Option String × Json) × List Char)
  | 0, _, _ => none
  | fuel + 1, room, cs =>
    match cs with
    | '"' :: rest => do
      let (k?, rest) ← string? rest
      match skipBlanks rest with
      | ':' :: rest => do
        let (j, rest) ← value? fuel room (skipBlanks rest)
        return ((k?, j), rest)
      | _ => none
    | _ => none

end

end Errand.Json.Reader

namespace Errand.Json

def maxDepth : Nat := 127

/-- the value that a whole text writes, with containers nested as deep as `room` allows -/
def parseWithin? (room : Nat) (s : String) : Option Json :=
  let cs := Reader.skipBlanks s.toList
  match Reader.value? (2 * cs.length + 2) room cs with
  | some (j, rest) => if (Reader.skipBlanks rest).isEmpty then some j else none
  | none => none

/-- the value that a whole text writes -/
def parse? (s : String) : Option Json := parseWithin? maxDepth s

end Errand.Json
