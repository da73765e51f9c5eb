/-
Scalars: text in the five styles of YAML.

Lines of a plain or quoted scalar are joined: a line end becomes a space, and of several the first is left out. A block
scalar keeps its line ends, or has them joined, and its header says what becomes of those at its end.
-/
import Errand.Text.Digits
import Errand.Yaml.Cursor

namespace Errand.Yaml

/-! ## Gaps between words -/

structure Gap where
  /-- the blanks, if the gap is within a line -/
  blanks : List Char := []
  /-- how many line ends it has -/
  breaks : Nat := 0
  /-- an escaped line end has begun it -/
  escaped : Bool := false

namespace Gap

/-- the gap reaches to another line -/
def isFold (g : Gap) : Bool := g.escaped || g.breaks > 0

def text (g : Gap) : List Char :=
  if g.escaped then List.replicate g.breaks '\n'
  else match g.breaks with
    | 0 => g.blanks
    | 1 => [' ']
    | n + 2 => List.replicate (n + 1) '\n'

/-- passes a gap; `tab?` passes a tab that stands left of the indentation -/
def read? (indent : Int) (tab? : Cursor → Option Cursor) : Nat → Gap → Cursor → Option (Gap × Cursor)
  | 0, _, _ => none
  | fuel + 1, g, c =>
    if isBlank c.head then
      if !g.isFold then read? indent tab? fuel { g with blanks := g.blanks ++ [c.head] } c.skipBlank
      else if c.head = '\t' && c.column < indent then do read? indent tab? fuel g (← tab? c)
      else read? indent tab? fuel g c.skipBlank
    else if isBreak c.head then read? indent tab? fuel { g with blanks := [], breaks := g.breaks + 1 } c.skipBreak
    else some (g, c)

end Gap

/-! ## Plain scalars -/

/-- the characters of a word: a colon with a gap behind it ends it, and so do the signs of flow collections inside one -/
def plainWord (flow : Bool) : List Char → List Char
  | [] => []
  | c :: rest =>
    let next := rest.headD '\x00'
    if isGap c || (flow && isFlow c) || (c = ':' && (isGap next || (flow && isFlow next))) then []
    else c :: plainWord flow rest

/-- a tab left of the indentation may stand on an empty line only -/
def emptyLine? (c : Cursor) : Option Cursor := do
  let (_, c) ← c.trailing?
  if isEnding c.head then some c else none

/-- the words of a plain scalar, after what has been read -/
def plainFrom? (flow : Bool) (indent : Int) : Nat → List Char → Cursor → Option (List Char × Cursor)
  | 0, _, _ => none
  | fuel + 1, gap, c => do
    if c.atMarker || c.head = '#' then return ([], c)
    if flow && c.head = '-' && isFlow (c.look 1) then none
    let word := plainWord flow c.rest
    if word.isEmpty then return ([], c)
    let c := c.skip word.length
    let (next, c) ← Gap.read? indent emptyLine? (c.rest.length + 1) {} c
    if !flow && c.column < indent then return (gap ++ word, c)
    let (more, c) ← plainFrom? flow indent fuel next.text c
    return (gap ++ word ++ more, c)

/-- a plain scalar, which is not empty -/
def plain? (flow : Bool) (indent : Int) (c : Cursor) : Option (String × Cursor) := do
  let (text, c) ← plainFrom? flow indent (c.rest.length + 1) [] c
  if text.isEmpty then none else some (String.ofList text, c)

/-! ## Quoted scalars -/

/-- the character that an escape with one letter stands for -/
def shortEscape? : Char → Option Char
  | '0' => some '\x00'
  | 'a' => some '\x07'
  | 'b' => some '\x08'
  | 't' => some '\t'
  | '\t' => some '\t'
  | 'n' => some '\n'
  | 'v' => some '\x0b'
  | 'f' => some '\x0c'
  | 'r' => some '\r'
  | 'e' => some '\x1b'
  | ' ' => some ' '
  | '"' => some '"'
  | '/' => some '/'
  | '\\' => some '\\'
  | 'N' => some '\u0085'
  | '_' => some '\u00A0'
  | 'L' => some '\u2028'
  | 'P' => some '\u2029'
  | _ => none

/-- how many digits an escape with a number has -/
def digitCount? : Char → Option Nat
  | 'x' => some 2
  | 'u' => some 4
  | 'U' => some 8
  | _ => none

/-- the character of an escape, with how many characters write it -/
def escape? : List Char → Option (Char × Nat)
  | '\\' :: e :: rest =>
    match digitCount? e with
    | some n => (Text.hexCharacter? n rest).map fun (c, _) => (c, n + 2)
    | none => (shortEscape? e).map (·, 2)
  | _ => none

/-- the characters up to a gap or the closing quote; the flag says that an escaped line end has been passed -/
def quotedWord? (single : Bool) : Nat → Cursor → Option (List Char × Bool × Cursor)
  | 0, _ => none
  | fuel + 1, c => do
    let ch := c.head
    if isGap ch then return ([], false, c)
    if single then
      if ch = '\'' && c.look 1 ≠ '\'' then return ([], false, c)
      let (more, escaped, c) ← quotedWord? single fuel (c.skip (if ch = '\'' then 2 else 1))
      return (ch :: more, escaped, c)
    else
      if ch = '"' then return ([], false, c)
      if ch = '\\' && isBreak (c.look 1) then return ([], true, (c.skip 1).skipBreak)
      let (ch, n) ← if ch = '\\' then escape? c.rest else some (ch, 1)
      let (more, escaped, c) ← quotedWord? single fuel (c.skip n)
      return (ch :: more, escaped, c)

/-- the rest of a quoted scalar up to its closing quote; its lines are indented, and no document ends in it -/
def quotedFrom? (single : Bool) (indent : Int) : Nat → Cursor → Option (List Char × Cursor)
  | 0, _ => none
  | fuel + 1, c => do
    if c.atMarker || c.rest.isEmpty || c.column < indent then none
    let (word, escaped, c) ← quotedWord? single (c.rest.length + 1) c
    if c.head = (if single then '\'' else '"') then return (word, c)
    let (gap, c) ← Gap.read? indent (fun _ => none) (c.rest.length + 1) { escaped } c
    let (more, c) ← quotedFrom? single indent fuel c
    return (word ++ gap.text ++ more, c)

/-- a quoted scalar; behind it may stand what ends a line, or a sign that goes on with the collection it is in -/
def quoted? (single flow : Bool) (indent : Int) (start : Cursor) : Option (String × Cursor) := do
  let c := start.skip 1
  let (text, c) ← quotedFrom? single indent (c.rest.length + 1) c
  let (_, c) ← (c.skip 1).trailing?
  let ch := c.head
  let goesOn := if flow then ch = ',' || ch = '}' || ch = ']' || ch = ':' else ch = ':' && start.line = c.line
  if isEnding ch || goesOn then some (String.ofList text, c) else none

/-! ## Block scalars -/

/-- what becomes of the line ends behind a block scalar -/
inductive Chomping where
  | strip
  | clip
  | keep
  deriving DecidableEq, Repr

def Chomping.ofChar? (c : Char) : Option Chomping := if c = '+' then some .keep else if c = '-' then some .strip else none

/-- chomping and depth of the indentation, in either order; a depth of zero is none -/
def blockHeader? (c : Cursor) : Option (Chomping × Nat × Cursor) := do
  let depth? (c : Cursor) : Option (Nat × Cursor) :=
    if c.head = '0' then none
    else if c.head.isDigit then some (c.head.toNat - 48, c.skip 1)
    else some (0, c)
  match Chomping.ofChar? c.head with
  | some chomping =>
    let (n, c) ← depth? (c.skip 1)
    return (chomping, n, c)
  | none =>
    let (n, c) ← depth? c
    if n = 0 then return (.clip, 0, c)
    match Chomping.ofChar? c.head with
    | some chomping => return (chomping, n, c.skip 1)
    | none => return (.clip, n, c)

/-- passes empty lines and indentation up to a column; counts the lines -/
def skipIndent (column : Nat) : Nat → Nat → Cursor → Nat × Cursor
  | 0, n, c => (n, c)
  | fuel + 1, n, c =>
    if c.column < column && c.head = ' ' then skipIndent column fuel n c.skipBlank
    else if isBreak c.head then skipIndent column fuel (n + 1) c.skipBreak
    else (n, c)

/-- passes empty lines and the indentation of the first line with text; counts the lines, and gives the rightmost column
    that has been reached -/
def findIndent : Nat → Nat → Nat → Cursor → Nat × Nat × Cursor
  | 0, n, column, c => (n, column, c)
  | fuel + 1, n, column, c =>
    if c.head = ' ' then findIndent fuel n column c.skipBlank
    else
      let column := max column c.column
      if isBreak c.head then findIndent fuel (n + 1) column c.skipBreak else (n, column, c)

structure Block where
  text : List Char := []
  /-- there is a line end behind the last line -/
  ended : Bool := false
  /-- how many empty lines follow it -/
  empty : Nat := 0
  /-- the last line began with a blank -/
  indented : Bool := false

/-- the text with the next line, of which it is known whether it begins with a blank -/
def Block.join (b : Block) (literal indented : Bool) : List Char :=
  let breaks := List.replicate b.empty '\n'
  if !literal && b.ended && !b.indented && !indented then b.text ++ (if b.empty = 0 then [' '] else breaks)
  else b.text ++ (if b.ended then ['\n'] else []) ++ breaks

/-- the lines of a block scalar, all indented to a column -/
def blockLines (literal : Bool) (column : Nat) : Nat → Block → Cursor → Block × Cursor
  | 0, b, c => (b, c)
  | fuel + 1, b, c =>
    if c.column ≠ column || c.rest.isEmpty || (column = 0 && c.atEnd) then (b, c)
    else
      let indented := isBlank c.head
      let line := c.rest.takeWhile (!isEnding ·)
      let text := b.join literal indented ++ line
      let c := c.skip line.length
      if c.rest.isEmpty then ({ text, indented }, c)
      else
        let (empty, c) := skipIndent column c.rest.length 0 c.skipBreak
        blockLines literal column fuel { text, ended := true, empty, indented } c

/-- a block scalar without any line: the line ends are all there is -/
def emptyBlock (chomping : Chomping) (headerEnded : Bool) (empty : Nat) : List Char :=
  match chomping with
  | .strip => []
  | .clip => if headerEnded then ['\n'] else []
  | .keep => if headerEnded then List.replicate (max empty 1) '\n' else []

/-- a block scalar inside an indentation; at the end of the text the line that is begun there ends as well -/
def block? (literal : Bool) (indent : Int) (start : Cursor) : Option (String × Cursor) := do
  let (chomping, depth, c) ← blockHeader? (start.skip 1)
  let (_, c) ← c.trailing?
  if !isEnding c.head then none
  let c := c.skipBreak
  if c.head = '\t' then none
  let (empty, column, c) :=
    if depth > 0 then
      let column := (max indent 0).toNat + depth
      let (empty, c) := skipIndent column (c.rest.length + 1) 0 c
      (empty, column, c)
    else
      let (empty, column, c) := findIndent (c.rest.length + 1) 0 0 c
      (empty, max column (indent + 1).toNat, c)
  if c.rest.isEmpty then return (String.ofList (emptyBlock chomping (c.line ≠ start.line) empty), c)
  if c.column < column && c.column > indent then none
  let (b, c) := blockLines literal column (c.rest.length + 1) { empty } c
  let unended := c.rest.isEmpty && c.column ≥ max column 1
  let ends := List.replicate (b.ended.toNat + unended.toNat) '\n'
  let tail := match chomping with
    | .strip => []
    | .clip => ends
    | .keep => ends ++ List.replicate b.empty '\n'
  return (String.ofList (b.text ++ tail), c)

end Errand.Yaml
