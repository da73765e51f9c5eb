/-
RON texts: lists in brackets, maps in braces, records and tuples in parentheses.

A record, with or without a name before it, is a table, and so is a map whose keys are strings or characters. A tuple
is a list. A name alone, a pair of empty parentheses and `None` are nothing; `Some` is left out. An integer has 64 bits,
with or without a sign; digits that do not fit write a float. At most 128 values may stand inside each other.
-/
import Errand.Datum
import Errand.Decimal.Reader
import Errand.Text.Digits

namespace Errand.Ron

open Text (hexValue? character? hexCharacter? numberIn)

/-! ## Blanks -/

def isBlank (c : Char) : Bool := c = ' ' || c = '\n' || c = '\t' || c = '\r'

/-- what follows the end of a comment, with other comments in it -/
def afterComment? : Nat → List Char → Option (List Char)
  | _, [] => none
  | depth, '/' :: '*' :: rest => afterComment? (depth + 1) rest
  | depth, '*' :: '/' :: rest => if depth = 0 then some rest else afterComment? (depth - 1) rest
  | depth, _ :: rest => afterComment? depth rest

/-- text without the blanks and comments it begins with -/
def skipFrom? : Nat → List Char → Option (List Char)
  | 0, cs => some cs
  | fuel + 1, cs =>
    match cs.dropWhile isBlank with
    | '/' :: '/' :: rest => skipFrom? fuel (rest.dropWhile (· ≠ '\n'))
    | '/' :: '*' :: rest => afterComment? 0 rest >>= skipFrom? fuel
    | '/' :: _ => none
    | cs => some cs

/-- text without the blanks and comments it begins with -/
def skip? (cs : List Char) : Option (List Char) := skipFrom? (cs.length + 1) cs

/-- a comma with the blanks around it, if there is one -/
def comma? (cs : List Char) : Option (Bool × List Char) := do
  match ← skip? cs with
  | ',' :: rest => return (true, ← skip? rest)
  | rest => return (false, rest)

/-! ## Names -/

def isNameStart (c : Char) : Bool := c.isAlpha || c = '_'

def isNamePart (c : Char) : Bool := c.isAlphanum || c = '_'

def isMarkedPart (c : Char) : Bool := isNamePart c || c = '.' || c = '+' || c = '-'

/-- a name, or a marked name; the quotes of a raw string make none -/
def name? (cs : List Char) : Option (List Char × List Char) :=
  match cs with
  | 'r' :: '"' :: _ => none
  | 'r' :: '#' :: rest =>
    match rest.span isMarkedPart with
    | ([], _) => none
    | found => some found
  | c :: _ =>
    let (name, rest) := cs.span isNamePart
    if isNameStart c && !rest.head?.any isMarkedPart then some (name, rest) else none
  | [] => none

def word? (w : String) (cs : List Char) : Option (List Char) :=
  let rest := cs.drop w.length
  if w.toList.isPrefixOf cs && !rest.head?.any isNamePart then some rest else none

/-! ## Strings and characters -/

/-- the character of an escape, after the backslash -/
def escape? : List Char → Option (Char × List Char)
  | '\'' :: rest => some ('\'', rest)
  | '"' :: rest => some ('"', rest)
  | '\\' :: rest => some ('\\', rest)
  | 'n' :: rest => some ('\n', rest)
  | 'r' :: rest => some ('\r', rest)
  | 't' :: rest => some ('\t', rest)
  | '0' :: rest => some ('\x00', rest)
  | 'x' :: rest => hexCharacter? 2 rest
  | 'u' :: '{' :: rest => do
    let ds := (rest.takeWhile (· ≠ '}')).take 6
    let '}' :: after := rest.drop ds.length | none
    return (← character? (← Text.number? 16 ds), after)
  | _ => none

def quoted? : Nat → List Char → Option (List Char × List Char)
  | 0, _ => none
  | _, [] => none
  | fuel + 1, c :: rest => do
    if c = '"' then return ([], rest)
    let (c, rest) ← if c = '\\' then escape? rest else some (c, rest)
    let (s, rest) ← quoted? fuel rest
    return (c :: s, rest)

def upTo? (ending : List Char) : List Char → Option (List Char × List Char)
  | [] => none
  | c :: rest =>
    if ending.isPrefixOf (c :: rest) then some ([], (c :: rest).drop ending.length)
    else (upTo? ending rest).map fun (s, rest) => (c :: s, rest)

/-- the rest of a raw string, which as many signs end as begin it -/
def raw? (cs : List Char) : Option (List Char × List Char) :=
  let (signs, rest) := cs.span (· = '#')
  match rest with
  | '"' :: rest => upTo? ('"' :: signs) rest
  | _ => none

def single? : List Char → Option (List Char × List Char)
  | '\\' :: rest => do
    let (c, rest) ← escape? rest
    let '\'' :: rest := rest | none
    return ([c], rest)
  | '\'' :: _ => none
  | c :: '\'' :: rest => some ([c], rest)
  | _ => none

def text? : List Char → Option (String × List Char)
  | '"' :: rest => (quoted? (rest.length + 1) rest).map fun (s, rest) => (String.ofList s, rest)
  | 'r' :: rest => (raw? rest).map fun (s, rest) => (String.ofList s, rest)
  | '\'' :: rest => (single? rest).map fun (s, rest) => (String.ofList s, rest)
  | _ => none

/-! ## Numbers -/

def isFloatChar (c : Char) : Bool := c.isDigit || c = 'e' || c = 'E' || c = '.' || c = '+' || c = '-' || c = '_'

def isIntegerChar (c : Char) : Bool := (hexValue? c).isSome || c = '_'

def floatWords : List (String × Float) :=
  [("inf", 1.0 / 0.0), ("+inf", 1.0 / 0.0), ("-inf", -1.0 / 0.0), ("NaN", 0.0 / 0.0), ("+NaN", 0.0 / 0.0),
   ("-NaN", 0.0 / 0.0)]

def float? (cs : List Char) : Option (Datum × List Char) :=
  match floatWords.findSome? fun (w, x) => (word? w cs).map (x, ·) with
  | some (x, rest) => some (.real x, rest)
  | none =>
    let (written, rest) := cs.span isFloatChar
    if written.contains '_' then none
    else (Decimal.float? (String.ofList written)).map fun x => (.real x, rest)

/-- the digits of a natural number with their base; underscores may stand behind the first digit -/
def natural? (cs : List Char) : Option (Nat × List Char) :=
  let (base, cs) := match cs with
    | '0' :: 'x' :: rest => (16, rest)
    | '0' :: 'b' :: rest => (2, rest)
    | '0' :: 'o' :: rest => (8, rest)
    | cs => (10, cs)
  let (written, rest) := cs.span isIntegerChar
  if written.head? = some '_' then none
  else (Text.number? base (written.filter (· ≠ '_'))).map (·, rest)

/-- an integer; one without a sign may be greater than any with a sign, and is a float then -/
def integer? (cs : List Char) : Option (Datum × List Char) :=
  match cs with
  | '-' :: rest => do
    let (n, rest) ← natural? rest
    return (.int (← toInt64? (-(n : Int))).toInt, rest)
  | '+' :: rest => do
    let (n, rest) ← natural? rest
    return (.int (← toInt64? n).toInt, rest)
  | _ => do
    let (n, rest) ← natural? cs
    let n ← toWord? n
    return (if fitsInt64 n then .int n else .real (Decimal.toFloat false n 0), rest)

/-- a number; what could be both is an integer if it can be read as one -/
def number? (cs : List Char) : Option (Datum × List Char) :=
  let digits := match cs with
    | '+' :: rest => rest
    | '-' :: rest => rest
    | rest => rest
  if (digits.takeWhile isFloatChar).length > (digits.takeWhile isIntegerChar).length then float? cs
  else integer? cs <|> float? cs

/-! ## Values -/

/-- words with a value of their own -/
def words : List (String × Datum) :=
  [("true", .bool true), ("false", .bool false), ("None", .nothing), ("inf", .real (1.0 / 0.0)),
   ("-inf", .real (-1.0 / 0.0)), ("NaN", .real (0.0 / 0.0))]

/-- what stands in parentheses is a record, which begins with a name and a colon -/
def isRecord? (cs : List Char) : Option Bool := do
  match name? (← skip? cs) with
  | none => return false
  | some (_, rest) => return (← (← skip? rest).head?) = ':'

/-- an entry before others; of entries with one name the last counts -/
def addFirst (name : String) (d : Datum) (es : List (String × Datum)) : List (String × Datum) :=
  if (es.lookup name).isSome then es else (name, d) :: es

mutual

/-- a value at the start of the text; `room` counts the values that may still stand around another -/
def value? : Nat → Nat → List Char → Option (Datum × List Char)
  | 0, _, _ => none
  | fuel + 1, room, cs =>
    match words.findSome? fun (w, d) => (word? w cs).map (d, ·) with
    | some found => some found
    | none =>
      match word? "Some" cs with
      | some rest => do
        let '(' :: rest := ← skip? rest | none
        let (d, rest) ← inner? fuel room (← skip? rest)
        let (_, ')' :: rest) ← comma? rest | none
        return (d, rest)
      | none =>
        match name? cs with
        | some (_, rest) => do
          match ← skip? rest with
          | '(' :: rest => group? fuel room rest
          | rest => return (.nothing, rest)
        | none =>
          match cs with
          | '(' :: ')' :: rest => some (.nothing, rest)
          | '(' :: rest => group? fuel room rest
          | '[' :: rest => (items? fuel room ']' rest).map fun (ds, rest) => (.list ds, rest)
          | '{' :: rest => (members? fuel room text? '}' rest).map fun (es, rest) => (.table es, rest)
          | '"' :: _ | 'r' :: _ | '\'' :: _ => (text? cs).map fun (s, rest) => (.text s, rest)
          | '.' :: _ => float? cs
          | c :: _ => if c.isDigit || c = '+' || c = '-' then number? cs else none
          | [] => none

/-- a value inside another -/
def inner? : Nat → Nat → List Char → Option (Datum × List Char)
  | 0, _, _ => none
  | _, 0, _ => none
  | fuel + 1, room + 1, cs => value? fuel room cs

/-- the rest of what stands in parentheses -/
def group? : Nat → Nat → List Char → Option (Datum × List Char)
  | 0, _, _ => none
  | fuel + 1, room, cs => do
    if ← isRecord? cs then
      let name? (cs : List Char) : Option (String × List Char) := (name? cs).map fun (s, rest) => (String.ofList s, rest)
      let (es, rest) ← members? fuel room name? ')' cs
      return (.table es, rest)
    else
      let (ds, rest) ← items? fuel room ')' cs
      return (.list ds, rest)

/-- the items of a list up to its end; a comma may follow the last -/
def items? : Nat → Nat → Char → List Char → Option (List Datum × List Char)
  | 0, _, _, _ => none
  | fuel + 1, room, ending, cs => do
    let c :: rest ← skip? cs | none
    if c = ending then return ([], rest)
    let (d, rest) ← inner? fuel room (c :: rest)
    match ← comma? rest with
    | (true, rest) =>
      let (ds, rest) ← items? fuel room ending rest
      return (d :: ds, rest)
    | (false, c :: rest) => if c = ending then return ([d], rest) else none
    | (false, []) => none

/-- the members of a record or map up to its end, with a reader for their names -/
def members? : Nat → Nat → (List Char → Option (String × List Char)) → Char → List Char →
    Option (List (String × Datum) × List Char)
  | 0, _, _, _, _ => none
  | fuel + 1, room, key?, ending, cs => do
    let c :: rest ← skip? cs | none
    if c = ending then return ([], rest)
    let (key, rest) ← key? (c :: rest)
    let ':' :: rest := ← skip? rest | none
    let (d, rest) ← inner? fuel room (← skip? rest)
    match ← comma? rest with
    | (true, rest) =>
      let (es, rest) ← members? fuel room key? ending rest
      return (addFirst key d es, rest)
    | (false, c :: rest) => if c = ending then return ([(key, d)], rest) else none
    | (false, []) => none

end

/-! ## Texts -/

/-- what may be switched on before the value; it has no bearing on what data a text can write -/
def switches : List String := ["unwrap_newtypes", "implicit_some", "unwrap_variant_newtypes"]

/-- tokens in a row, with the blanks behind each -/
def tokens? (cs : List Char) : List String → Option (List Char)
  | [] => some cs
  | w :: more => if w.toList.isPrefixOf cs then do tokens? (← skip? (cs.drop w.length)) more else none

/-- the names of switches; a comma may follow the last -/
def switches? : Nat → List Char → Option (List Char)
  | 0, _ => none
  | fuel + 1, cs => do
    let (name, rest) ← name? cs
    guard (switches.contains (String.ofList name))
    match ← comma? rest with
    | (true, c :: rest) => if isNamePart c then switches? fuel (c :: rest) else return c :: rest
    | (_, rest) => return rest

/-- text without the attributes it begins with -/
def attributes? : Nat → List Char → Option (List Char)
  | 0, cs => some cs
  | fuel + 1, cs => do
    match ← skip? cs with
    | '#' :: rest =>
      let rest ← tokens? ('#' :: rest) ["#", "!", "[", "enable", "("]
      attributes? fuel (← tokens? (← switches? (rest.length + 1) rest) [")", "]"])
    | rest => return rest

/-- the datum that a whole text writes -/
def parse? (s : String) : Option Datum := do
  let cs ← attributes? (s.length + 1) s.toList
  let (d, rest) ← value? (4 * cs.length + 4) 128 cs
  if (← skip? rest).isEmpty then some d else none

end Errand.Ron
