/-
JSON5 texts: JSON with comments, commas at the end, names without quotes, strings in either quotes, and more ways to write
a number.

A number without point and exponent is an integer of 64 bits, to base sixteen a natural number of 32 bits without a sign.
Of members with one name the last counts.
-/
import Errand.Datum
import Errand.Decimal.Reader
import Errand.Json.Reader
import Errand.Text.Letter

namespace Errand.Json5

open Json.Reader (Piece joined?)

/-! ## Blanks -/

def isLineEnd (c : Char) : Bool := c = '\n' || c = '\r' || c = '\u2028' || c = '\u2029'

def isBlank (c : Char) : Bool :=
  let n := c.toNat
  isLineEnd c || n = 9 || n = 11 || n = 12 || n = 0x20 || n = 0xA0 || n = 0x1680 || (0x2000 ≤ n && n ≤ 0x200A)
    || n = 0x202F || n = 0x205F || n = 0x3000 || n = 0xFEFF

/-- what follows the end of a comment over several lines -/
def afterComment? : List Char → Option (List Char)
  | [] => none
  | '*' :: '/' :: rest => some rest
  | _ :: rest => afterComment? rest

/-- text without the blanks and comments it begins with; a comment that does not end is none -/
def skip : Nat → List Char → List Char
  | 0, cs => cs
  | fuel + 1, cs =>
    match cs.dropWhile isBlank with
    | '/' :: '/' :: rest => skip fuel (rest.dropWhile (!isLineEnd ·))
    | '/' :: '*' :: rest =>
      match afterComment? rest with
      | some rest => skip fuel rest
      | none => '/' :: '*' :: rest
    | cs => cs

/-- text without the blanks and comments it begins with -/
def skipBlanks (cs : List Char) : List Char := skip (cs.length + 1) cs

/-! ## Strings and names -/

/-- the character that an escape with one letter stands for -/
def shortEscape : Char → Char
  | 'b' => '\x08'
  | 'f' => '\x0c'
  | 'n' => '\n'
  | 'r' => '\r'
  | 't' => '\t'
  | 'v' => '\x0b'
  | c => c

/-- the pieces of a string up to its closing quote, and what follows it -/
def pieces? (quote : Char) : List Char → Option (List Piece × List Char)
  | [] => none
  | '\\' :: 'u' :: a :: b :: c :: d :: rest => do
    let n ← Text.number? 16 [a, b, c, d]
    (pieces? quote rest).map fun (ps, rest) => (.unit n :: ps, rest)
  | '\\' :: 'x' :: a :: b :: rest => do
    let n ← Text.number? 16 [a, b]
    (pieces? quote rest).map fun (ps, rest) => (.char (Char.ofNat n) :: ps, rest)
  | '\\' :: '\r' :: '\n' :: rest => pieces? quote rest
  | '\\' :: e :: rest =>
    if isLineEnd e then pieces? quote rest
    else if e = '0' then (pieces? quote rest).map fun (ps, rest) => (.char '\x00' :: ps, rest)
    else if e.isDigit || e = 'x' || e = 'u' then none
    else (pieces? quote rest).map fun (ps, rest) => (.char (shortEscape e) :: ps, rest)
  | c :: rest =>
    if c = quote then some ([], rest)
    else if c = '\\' || isLineEnd c then none
    else (pieces? quote rest).map fun (ps, rest) => (.char c :: ps, rest)

def string? (quote : Char) (cs : List Char) : Option (String × List Char) := do
  let (ps, rest) ← pieces? quote cs
  return (String.ofList (← joined? ps), rest)

/-- characters that a name without quotes begins with -/
def isNameStart (c : Char) : Bool := Text.isLetter c || c = '$' || c = '_'

/-- characters that go on with a name without quotes -/
def isNamePart (c : Char) : Bool :=
  isNameStart c || Text.isMark c || Text.isDigit c || Text.isConnector c || c = '\u200C' || c = '\u200D'

/-- the pieces of a name without quotes; there any character may be written by its number -/
def namePieces (fits : Char → Bool) : List Char → List Piece × List Char
  | '\\' :: 'u' :: a :: b :: c :: d :: rest =>
    match Text.number? 16 [a, b, c, d] with
    | some n =>
      let (ps, rest) := namePieces isNamePart rest
      (.unit n :: ps, rest)
    | none => ([], '\\' :: 'u' :: a :: b :: c :: d :: rest)
  | c :: rest =>
    if fits c then
      let (ps, rest) := namePieces isNamePart rest
      (.char c :: ps, rest)
    else ([], c :: rest)
  | [] => ([], [])

def name? : List Char → Option (String × List Char)
  | '"' :: rest => string? '"' rest
  | '\'' :: rest => string? '\'' rest
  | cs =>
    match namePieces isNameStart cs with
    | ([], _) => none
    | (ps, rest) => (joined? ps).map fun s => (String.ofList s, rest)

/-! ## Numbers -/

/-- digits to base sixteen behind their sign -/
def hexDigits? : List Char → Option (List Char × List Char)
  | '0' :: x :: rest =>
    if x = 'x' || x = 'X' then
      match rest.span fun c => (Text.hexValue? c).isSome with
      | ([], _) => none
      | (ds, rest) => some (ds, rest)
    else none
  | _ => none

/-- the digits before the point: none, or a number without a leading zero -/
def front (cs : List Char) : List Char × List Char :=
  match cs with
  | '0' :: rest => (['0'], rest)
  | cs => cs.span Char.isDigit

/-- the sign and the digits of an exponent, empty if there is none -/
def exponent (cs : List Char) : List Char × List Char :=
  match cs with
  | e :: rest =>
    if e = 'e' || e = 'E' then
      let (sign, digits) := match rest with
        | '+' :: rest => (['+'], rest)
        | '-' :: rest => (['-'], rest)
        | rest => ([], rest)
      match digits.span Char.isDigit with
      | ([], _) => ([], cs)
      | (ds, rest) => (e :: (sign ++ ds), rest)
    else ([], cs)
  | [] => ([], [])

/-- a decimal number without its sign, as it is written; the flag says that it has a point or an exponent -/
def decimal? (cs : List Char) : Option (Bool × List Char × List Char) :=
  let (whole, rest) := front cs
  let (point, rest) := match rest with
    | '.' :: rest =>
      let (ds, rest) := rest.span Char.isDigit
      ('.' :: ds, rest)
    | rest => ([], rest)
  if whole.isEmpty && point.length ≤ 1 then none else
  let (exp, rest) := exponent rest
  some (!(point.isEmpty && exp.isEmpty), whole ++ point ++ exp, rest)

/-- the datum of a decimal number; no float is too large -/
def decimalDatum? (real : Bool) (written : String) : Option Datum :=
  if real then
    match Decimal.float? written with
    | some x => if x.isInf then none else some (.real x)
    | none => none
  else (Decimal.int64? written).map fun n => .int n.toInt

def sign : List Char → List Char × List Char
  | '+' :: rest => (['+'], rest)
  | '-' :: rest => (['-'], rest)
  | cs => ([], cs)

/-- a number; infinity has no plus sign, and digits to base sixteen have no sign -/
def number? (cs : List Char) : Option (Datum × List Char) :=
  let (signs, rest) := sign cs
  match Json.Reader.word? "Infinity" rest, Json.Reader.word? "NaN" rest, hexDigits? rest with
  | some rest, _, _ =>
    if signs = ['+'] then none else some (.real (if signs.isEmpty then 1.0 / 0.0 else -1.0 / 0.0), rest)
  | none, some rest, _ => if signs = ['+'] then none else some (.real (0.0 / 0.0), rest)
  | none, none, some (ds, rest) => do
    let n ← Text.number? 16 ds
    if signs.isEmpty && n < UInt32.size then some (.int n, rest) else none
  | none, none, none => do
    let (real, written, rest) ← decimal? rest
    return (← decimalDatum? real (String.ofList (signs ++ written)), rest)

/-! ## Values -/

mutual

def value? : Nat → List Char → Option (Datum × List Char)
  | 0, _ => none
  | fuel + 1, cs =>
    match cs with
    | '"' :: rest => (string? '"' rest).map fun (s, rest) => (.text s, rest)
    | '\'' :: rest => (string? '\'' rest).map fun (s, rest) => (.text s, rest)
    | '[' :: rest => (items? fuel (skipBlanks rest)).map fun (ds, rest) => (.list ds, rest)
    | '{' :: rest => (members? fuel (skipBlanks rest)).map fun (es, rest) => (.table es, rest)
    | 'n' :: _ => (Json.Reader.word? "null" cs).map fun rest => (.nothing, rest)
    | 't' :: _ => (Json.Reader.word? "true" cs).map fun rest => (.bool true, rest)
    | 'f' :: _ => (Json.Reader.word? "false" cs).map fun rest => (.bool false, rest)
    | _ => number? cs

def items? : Nat → List Char → Option (List Datum × List Char)
  | 0, _ => none
  | fuel + 1, cs =>
    match cs with
    | ']' :: rest => some ([], rest)
    | _ => do
      let (d, rest) ← value? fuel cs
      match skipBlanks rest with
      | ',' :: rest => (items? fuel (skipBlanks rest)).map fun (ds, rest) => (d :: ds, rest)
      | ']' :: rest => return ([d], rest)
      | _ => none

def members? : Nat → List Char → Option (List (String × Datum) × List Char)
  | 0, _ => none
  | fuel + 1, cs =>
    match cs with
    | '}' :: rest => some ([], rest)
    | _ => do
      let (name, rest) ← name? cs
      let ':' :: rest := skipBlanks rest | none
      let (d, rest) ← value? fuel (skipBlanks rest)
      let add (es : List (String × Datum)) : List (String × Datum) :=
        if (es.lookup name).isSome then es else (name, d) :: es
      match skipBlanks rest with
      | ',' :: rest => (members? fuel (skipBlanks rest)).map fun (es, rest) => (add es, rest)
      | '}' :: rest => return (add [], rest)
      | _ => none

end

/-- the datum that a whole text writes -/
def parse? (s : String) : Option Datum :=
  let cs := skipBlanks s.toList
  match value? (2 * cs.length + 2) cs with
  | some (d, rest) => if (skipBlanks rest).isEmpty then some d else none
  | none => none

end Errand.Json5
