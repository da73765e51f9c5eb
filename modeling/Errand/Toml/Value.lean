/-
TOML values: strings of the four kinds, numbers, truth values, dates, arrays and inline tables.

A date or time is kept as its text in normal form. An inline table is closed once it is read: its dotted keys may share
the tables they create, and no key is given twice.
-/
import Errand.Datum
import Errand.Decimal
import Errand.Text.Digits
import Errand.Width

namespace Errand.Toml

open Text (digitValue? hexCharacter? numberIn)

/-! ## Characters -/

def isBlank (c : Char) : Bool := c = ' ' || c = '\t'

/-- text from its first character that is no blank -/
def skipBlanks (cs : List Char) : List Char := cs.dropWhile isBlank

def lineEnd? : List Char → Option (List Char)
  | '\n' :: rest => some rest
  | '\r' :: '\n' :: rest => some rest
  | _ => none

/-- control characters other than the tab may stand nowhere -/
def isForbidden (c : Char) : Bool := (c.toNat < 32 && c ≠ '\t') || c.toNat = 127

def comment? : List Char → Option (List Char)
  | [] => some []
  | cs@('\n' :: _) => some cs
  | cs@('\r' :: '\n' :: _) => some cs
  | c :: rest => if isForbidden c then none else comment? rest

/-- blanks and a comment up to the end of the line -/
def trailing? (cs : List Char) : Option (List Char) :=
  match skipBlanks cs with
  | '#' :: rest => comment? rest
  | cs => some cs

/-- blanks, comments and line ends, as they may stand between the items of an array -/
def skipLines? : Nat → List Char → Option (List Char)
  | 0, _ => none
  | fuel + 1, cs => do
    let cs ← trailing? cs
    match lineEnd? cs with
    | some rest => skipLines? fuel rest
    | none => some cs

/-! ## Strings -/

/-- the character of an escape, after the backslash -/
def escape? : List Char → Option (Char × List Char)
  | 'b' :: rest => some ('\x08', rest)
  | 't' :: rest => some ('\t', rest)
  | 'n' :: rest => some ('\n', rest)
  | 'f' :: rest => some ('\x0c', rest)
  | 'r' :: rest => some ('\r', rest)
  | '"' :: rest => some ('"', rest)
  | '\\' :: rest => some ('\\', rest)
  | 'u' :: rest => hexCharacter? 4 rest
  | 'U' :: rest => hexCharacter? 8 rest
  | _ => none

def basic? : Nat → List Char → Option (List Char × List Char)
  | 0, _ => none
  | _ + 1, [] => none
  | fuel + 1, c :: rest =>
    if c = '"' then some ([], rest)
    else if c = '\\' then do
      let (e, rest) ← escape? rest
      let (s, rest) ← basic? fuel rest
      return (e :: s, rest)
    else if isForbidden c then none
    else do
      let (s, rest) ← basic? fuel rest
      return (c :: s, rest)

def literal? : List Char → Option (List Char × List Char)
  | [] => none
  | c :: rest =>
    if c = '\'' then some ([], rest)
    else if isForbidden c then none
    else (literal? rest).map fun (s, rest) => (c :: s, rest)

/-- the end of a string over several lines, where its quotes begin: up to two of them still belong to it -/
def closing? (quote : Char) (cs : List Char) : Option (List Char × List Char) :=
  let n := (cs.takeWhile (· = quote)).length
  if 3 ≤ n ∧ n ≤ 5 then some (List.replicate (n - 3) quote, cs.drop n) else none

/-- text without the blanks and line ends that it begins with -/
def skipFolded : List Char → List Char
  | '\r' :: '\n' :: rest => skipFolded rest
  | c :: rest => if isBlank c || c = '\n' then skipFolded rest else c :: rest
  | [] => []

/-- the blanks and lines that a backslash at the end of a line takes away -/
def folded? (cs : List Char) : Option (List Char) := (lineEnd? (skipBlanks cs)).map skipFolded

/-- the rest of a string over several lines; only a basic one has escapes -/
def lines? (quote : Char) : Nat → List Char → Option (List Char × List Char)
  | 0, _ => none
  | _ + 1, [] => none
  | fuel + 1, cs@(c :: rest) =>
    if c = quote then
      let n := (cs.takeWhile (· = quote)).length
      if n < 3 then do
        let (s, rest) ← lines? quote fuel (cs.drop n)
        return (List.replicate n quote ++ s, rest)
      else closing? quote cs
    else if c = '\\' && quote = '"' then
      match folded? rest with
      | some rest => lines? quote fuel rest
      | none => do
        let (e, rest) ← escape? rest
        let (s, rest) ← lines? quote fuel rest
        return (e :: s, rest)
    else
      match lineEnd? cs with
      | some rest => do
        let (s, rest) ← lines? quote fuel rest
        return ('\n' :: s, rest)
      | none =>
        if isForbidden c then none else do
        let (s, rest) ← lines? quote fuel rest
        return (c :: s, rest)

def string? : List Char → Option (List Char × List Char)
  | '"' :: '"' :: '"' :: rest => lines? '"' (rest.length + 1) ((lineEnd? rest).getD rest)
  | '\'' :: '\'' :: '\'' :: rest => lines? '\'' (rest.length + 1) ((lineEnd? rest).getD rest)
  | '"' :: rest => basic? (rest.length + 1) rest
  | '\'' :: rest => literal? rest
  | _ => none

/-! ## Keys -/

/-- characters of a name without quotes -/
def isBare (c : Char) : Bool := c.isAlphanum || c = '_' || c = '-'

/-- one part of a key: bare, or a string on one line -/
def keyPart? (cs : List Char) : Option (String × List Char) :=
  match cs with
  | '"' :: rest => (basic? (rest.length + 1) rest).map fun (s, rest) => (String.ofList s, rest)
  | '\'' :: rest => (literal? rest).map fun (s, rest) => (String.ofList s, rest)
  | _ =>
    match cs.span isBare with
    | ([], _) => none
    | (s, rest) => some (String.ofList s, rest)

/-- the least number that is too great for the parts of a key, and for the arrays and tables around a value -/
def maxDepth : Nat := 80

/-- a dotted key, with the blanks around it, of at most as many parts as a number says -/
def keyWithin? : Nat → List Char → Option (List String × List Char)
  | 0, _ => none
  | most + 1, cs => do
    let (part, rest) ← keyPart? (skipBlanks cs)
    match skipBlanks rest with
    | '.' :: rest => do
      let (more, rest) ← keyWithin? most rest
      return (part :: more, rest)
    | rest => return ([part], rest)

/-- a dotted key, with the blanks around it -/
def key? : List Char → Option (List String × List Char) := keyWithin? (maxDepth - 1)

/-! ## Numbers -/

/-- digits to a base, with underscores between digits only -/
def digits? (base : Nat) (cs : List Char) : Option (List Nat) :=
  let groups := cs.splitOnP (· = '_')
  if groups.any (·.isEmpty) then none else
  groups.flatten.mapM (digitValue? base)

/-- decimal digits without a leading zero -/
def whole? (cs : List Char) : Option (List Nat) := do
  let ds ← digits? 10 cs
  if ds.length > 1 && ds.head? = some 0 then none else some ds

def signed : List Char → Bool × List Char
  | '-' :: rest => (true, rest)
  | '+' :: rest => (false, rest)
  | cs => (false, cs)

/-- integers are those of 64 bits -/
def integer? (n : Int) : Option Datum := if fitsInt64 n then some (.int n) else none

/-- a float: a whole part with a fraction, an exponent or both; it may be too far below zero, not above -/
def float? (negative : Bool) (cs : List Char) : Option Datum := do
  let (mantissa, exponent) := cs.span fun c => c ≠ 'e' && c ≠ 'E'
  let (front, fraction) := mantissa.span (· ≠ '.')
  let ds ← whole? front
  let fs ← match fraction with
    | [] => some []
    | _ :: fs => digits? 10 fs
  let e ← match exponent with
    | [] => if fraction.isEmpty then none else some 0
    | _ :: e =>
      let (down, e) := signed e
      (digits? 10 e).map fun e => if down then -(numberIn 10 e : Int) else numberIn 10 e
  let x := Decimal.toFloat negative (numberIn 10 (ds ++ fs)) (e - fs.length)
  if x.isInf && !negative then none else some (.real x)

def number? (word : List Char) : Option Datum :=
  match word with
  | '0' :: 'x' :: rest => digits? 16 rest >>= fun ds => integer? (numberIn 16 ds)
  | '0' :: 'o' :: rest => digits? 8 rest >>= fun ds => integer? (numberIn 8 ds)
  | '0' :: 'b' :: rest => digits? 2 rest >>= fun ds => integer? (numberIn 2 ds)
  | _ =>
    let (negative, rest) := signed word
    match rest with
    | ['i', 'n', 'f'] => some (.real (if negative then -1.0 / 0.0 else 1.0 / 0.0))
    | ['n', 'a', 'n'] => some (.real (0.0 / 0.0))
    | _ =>
      match whole? rest with
      | some ds => integer? (if negative then -(numberIn 10 ds : Int) else numberIn 10 ds)
      | none => float? negative rest

/-! ## Dates and times -/

/-- a number of exactly some decimal digits, and what follows -/
def fixed? (n : Nat) (cs : List Char) : Option (Nat × List Char) :=
  let ds := cs.take n
  if ds.length = n && ds.all Char.isDigit then (digits? 10 ds).map fun ds => (numberIn 10 ds, cs.drop n) else none

def after? (c : Char) : List Char → Option (List Char)
  | d :: rest => if c = d then some rest else none
  | [] => none

/-- the year has a 29th of February -/
def isLeap (y : Nat) : Bool := y % 4 = 0 && (y % 100 ≠ 0 || y % 400 = 0)

def monthDays (y m : Nat) : Nat :=
  if m = 2 then (if isLeap y then 29 else 28) else if m = 4 || m = 6 || m = 9 || m = 11 then 30 else 31

def date? (cs : List Char) : Option (List Char) := do
  let (y, cs) ← fixed? 4 cs
  let (m, cs) ← fixed? 2 (← after? '-' cs)
  let (d, cs) ← fixed? 2 (← after? '-' cs)
  guard (1 ≤ m && m ≤ 12 && 1 ≤ d && d ≤ monthDays y m)
  return cs

/-- a time of day: its fraction without zeros at the end, and what follows -/
def time? (cs : List Char) : Option (List Char × List Char) := do
  let (h, cs) ← fixed? 2 cs
  let (m, cs) ← fixed? 2 (← after? ':' cs)
  let (s, cs) ← fixed? 2 (← after? ':' cs)
  guard (h ≤ 23 && m ≤ 59 && s ≤ 60)
  match cs with
  | '.' :: rest =>
    let (f, rest) := rest.span Char.isDigit
    guard !f.isEmpty
    let f := ((f.take 9).reverse.dropWhile (· = '0')).reverse
    return (if f.isEmpty then [] else '.' :: f, rest)
  | _ => return ([], cs)

/-- an offset from universal time in normal form; none has no minus sign -/
def offset? : List Char → Option (List Char)
  | [] => some []
  | ['Z'] | ['z'] => some ['Z']
  | cs@(c :: rest) => do
    guard (c = '+' || c = '-')
    let (h, rest) ← fixed? 2 rest
    let (m, rest) ← fixed? 2 (← after? ':' rest)
    guard (rest.isEmpty && h ≤ 23 && m ≤ 59)
    return if h = 0 && m = 0 then '+' :: cs.tail else cs

/-- a date, a time, or both, in normal form -/
def moment? (word : List Char) : Option (List Char) :=
  match date? word with
  | some [] => some word
  | some (c :: rest) => do
    guard (c = 'T' || c = 't' || c = ' ')
    let (fraction, zone) ← time? rest
    let zone ← offset? zone
    return word.take 10 ++ 'T' :: rest.take 8 ++ fraction ++ zone
  | none => do
    let (fraction, rest) ← time? word
    guard rest.isEmpty
    return word.take 8 ++ fraction

/-! ## Values -/

/-- characters of numbers and dates -/
def isWordChar (c : Char) : Bool := c.isAlphanum || c = '+' || c = '-' || c = '_' || c = '.' || c = ':'

/-- the word at the start; a blank inside belongs to it between a date and a time -/
def word (cs : List Char) : List Char × List Char :=
  let (w, rest) := cs.span isWordChar
  match date? w, rest with
  | some [], ' ' :: after =>
    if after.head?.any Char.isDigit then
      let (time, rest) := after.span isWordChar
      (w ++ ' ' :: time, rest)
    else (w, rest)
  | _, _ => (w, rest)

def wordValue? (w : List Char) : Option Datum :=
  match String.ofList w with
  | "true" => some (.bool true)
  | "false" => some (.bool false)
  | _ =>
    match number? w with
    | some d => some d
    | none => (moment? w).map fun s => .text (String.ofList s)

/-! ## Tables under construction -/

/-- what a key stands for while a document is read -/
inductive Node where
  | value (d : Datum)
  /-- `implicit`: no header has defined the table; `dotted`: dotted keys created it -/
  | table (implicit dotted : Bool) (members : List (String × Node))
  /-- the tables of an array, the latest last -/
  | tables (ts : List Node)
  deriving Inhabited

namespace Node

/-- the node in the place of the one with its name, or at the end -/
def put (name : String) (n : Node) : List (String × Node) → List (String × Node)
  | [] => [(name, n)]
  | (m, old) :: rest => if m = name then (name, n) :: rest else (m, old) :: put name n rest

/-- changes the table at the end of a path, creating what is missing; dotted keys do not enter tables that a header has
    defined, and headers do not enter values -/
def at? (dotted : Bool) (change : Node → Option Node) : List String → Node → Option Node
  | [], n => change n
  | name :: rest, .table implicit d members =>
    match members.lookup name with
    | none => do return .table implicit d (put name (← at? dotted change rest (.table true dotted [])) members)
    | some (.value _) => none
    | some (.tables ts) => do
      let last ← ts.getLast?
      return .table implicit d (put name (.tables (ts.dropLast ++ [← at? dotted change rest last])) members)
    | some (.table i d' ms) =>
      if dotted && !i then none else do
      return .table implicit d (put name (← at? dotted change rest (.table i d' ms)) members)
  | _ :: _, _ => none

/-- adds a value under a dotted key; no key is given twice, and dotted keys do not add to tables of another making -/
def insert? (key : List String) (d : Datum) (n : Node) : Option Node := do
  let name ← key.getLast?
  let path := key.dropLast
  let add : Node → Option Node
    | .table implicit dotted members =>
      if dotted == path.isEmpty then none
      else if (members.lookup name).isSome then none
      else some (.table implicit dotted (members ++ [(name, .value d)]))
    | _ => none
  at? true add path n

mutual

def datum : Node → Datum
  | .value d => d
  | .table _ _ members => .table (memberData members)
  | .tables ts => .list (data ts)

def memberData : List (String × Node) → List (String × Datum)
  | [] => []
  | (k, n) :: rest => (k, n.datum) :: memberData rest

/-- the items of an array of tables -/
def data : List Node → List Datum
  | [] => []
  | n :: rest => n.datum :: data rest

end

end Node

/-! ## Arrays and inline tables -/

mutual

/-- a value at the start of the text; `room` counts the arrays and tables that may still be opened -/
def valueWithin? : Nat → Nat → List Char → Option (Datum × List Char)
  | 0, _, _ => none
  | fuel + 1, room, cs =>
    match cs, room with
    | '"' :: _, _ | '\'' :: _, _ => (string? cs).map fun (s, rest) => (.text (String.ofList s), rest)
    | '[' :: _, 0 | '{' :: _, 0 => none
    | '[' :: rest, room + 1 => (items? fuel room rest).map fun (ds, rest) => (.list ds, rest)
    | '{' :: rest, room + 1 =>
      match skipBlanks rest with
      | '}' :: rest => some (.table [], rest)
      | rest => (entries? fuel room (.table false false []) rest).map fun (n, rest) => (n.datum, rest)
    | _, _ => do
      let (w, rest) := word cs
      return (← wordValue? w, rest)

/-- the items of an array up to its end; a comma may follow the last -/
def items? : Nat → Nat → List Char → Option (List Datum × List Char)
  | 0, _, _ => none
  | fuel + 1, room, cs => do
    match ← skipLines? (cs.length + 1) cs with
    | ']' :: rest => return ([], rest)
    | cs =>
      let (d, rest) ← valueWithin? fuel room cs
      match ← skipLines? (rest.length + 1) rest with
      | ']' :: rest => return ([d], rest)
      | ',' :: rest =>
        let (ds, rest) ← items? fuel room rest
        return (d :: ds, rest)
      | _ => none

/-- the entries of an inline table up to its end, on one line -/
def entries? : Nat → Nat → Node → List Char → Option (Node × List Char)
  | 0, _, _, _ => none
  | fuel + 1, room, n, cs => do
    let (key, rest) ← key? cs
    let '=' :: rest := rest | none
    let (d, rest) ← valueWithin? fuel room (skipBlanks rest)
    let n ← n.insert? key d
    match skipBlanks rest with
    | '}' :: rest => return (n, rest)
    | ',' :: rest => entries? fuel room n rest
    | _ => none

end

def value? (cs : List Char) : Option (Datum × List Char) := valueWithin? (2 * cs.length + 1) (maxDepth - 1) cs

end Errand.Toml
