/-
Files of variables: lines that give a name a value.

A value may be quoted, and then go on over several lines. Single quotes hold everything as it is; elsewhere a backslash
escapes and a dollar sign puts in the value of another variable. The first line that cannot be read ends the file.
-/
import Errand.Environment
import Errand.Text.Letter
import Errand.Text.Space

namespace Errand.Environment

open Text (isSpace isAlphanumeric trimStart trimEnd)

/-! ## Lines -/

/-- where a line stands at its end, as far as that decides whether the next one belongs to it -/
inductive Position where
  | plain
  | blank
  | escaped
  | strong
  | strongEscaped
  | weak
  | weakEscaped
  | comment
  deriving DecidableEq, Repr

/-- what a character does outside quotes -/
def Position.opened (c : Char) (other : Position) : Position :=
  if c = '\\' then .escaped else if c = '"' then .weak else if c = '\'' then .strong else other

/-- where the reader is behind a character -/
def Position.next (c : Char) : Position → Position
  | .plain => .opened c (if isSpace c && c ≠ '\n' && c ≠ '\r' then .blank else .plain)
  | .blank => if c = '#' then .comment else .opened c .plain
  | .escaped => .plain
  | .strong => if c = '\\' then .strongEscaped else if c = '\'' then .plain else .strong
  | .strongEscaped => .strong
  | .weak => if c = '\\' then .weakEscaped else if c = '"' then .plain else .weak
  | .weakEscaped => .weak
  | .comment => .comment

/-- what stands before a comment, and the position at the end or at the comment -/
def Position.scan (p : Position) : List Char → List Char × Position
  | [] => ([], p)
  | c :: rest =>
    match p.next c with
    | .comment => ([], .comment)
    | q =>
      let (kept, last) := q.scan rest
      (c :: kept, last)

/-- the lines of a text, with their ends -/
def physicalLines : List Char → List (List Char)
  | [] => []
  | c :: rest =>
    if c = '\n' then [c] :: physicalLines rest
    else match physicalLines rest with
      | [] => [[c]]
      | line :: more => (c :: line) :: more

/-- joins the lines that quotes hold together; an unfinished one at the end is dropped -/
def joinLines (p : Position) (sofar : List Char) : List (List Char) → List (List Char)
  | [] => []
  | line :: rest =>
    if (trimStart (sofar ++ line)).head? = some '#' then joinLines .plain [] rest
    else
      match p.scan line with
      | (_, .plain) => (sofar ++ line) :: joinLines .plain [] rest
      | (kept, .comment) => (sofar ++ kept) :: joinLines .plain [] rest
      | (_, q) => joinLines q (sofar ++ line) rest

/-! ## Values -/

/-- what a character of a value belongs to; `quoted` tells whether double quotes are open -/
inductive Part where
  | text (quoted : Bool)
  | escape (quoted : Bool)
  | literal
  /-- a name after a dollar sign -/
  | name (quoted : Bool) (read : List Char)
  /-- a name in braces -/
  | braced (quoted : Bool) (read : List Char)
  /-- after a blank only a comment may follow -/
  | ended
  deriving DecidableEq, Repr

/-- the value of the variable with a name, empty if there is none -/
def substitute (e : Environment) (name : List Char) : List Char := ((e.get? (String.ofList name)).getD "").toList

def escaped? (c : Char) : Option Char :=
  if c = 'n' then some '\n'
  else if c = '\\' || c = '\'' || c = '"' || c = '$' || c = ' ' then some c
  else none

def value? (e : Environment) : Part → List Char → Option (List Char)
  | .text false, [] | .escape false, [] | .ended, [] => some []
  | .name false read, [] => some (e.substitute read)
  | _, [] => none
  | .ended, c :: rest =>
    if c = ' ' || c = '\t' then e.value? .ended rest
    else if c = '#' then some []
    else none
  | .escape quoted, c :: rest => do return (← escaped? c) :: (← e.value? (.text quoted) rest)
  | .literal, c :: rest =>
    if c = '\'' then e.value? (.text false) rest else (e.value? .literal rest).map (c :: ·)
  | .name quoted read, c :: rest =>
    if isAlphanumeric c then e.value? (.name quoted (read ++ [c])) rest
    else if c = '{' && read.isEmpty then e.value? (.braced quoted []) rest
    else if c = '$' then (e.value? (.name quoted []) rest).map (e.substitute read ++ ·)
    else (e.value? (.text quoted) rest).map (e.substitute read ++ c :: ·)
  | .braced quoted read, c :: rest =>
    if c = '}' then (e.value? (.text quoted) rest).map (e.substitute read ++ ·)
    else e.value? (.braced quoted (read ++ [c])) rest
  | .text quoted, c :: rest =>
    if c = '$' then e.value? (.name quoted []) rest
    else if c = '\\' then e.value? (.escape quoted) rest
    else if c = '"' then e.value? (.text !quoted) rest
    else if quoted then (e.value? (.text quoted) rest).map (c :: ·)
    else if c = '\'' then e.value? .literal rest
    else if c = ' ' || c = '\t' then e.value? .ended rest
    else (e.value? (.text quoted) rest).map (c :: ·)

/-! ## Assignments -/

/-- a name at the start of text, without the blanks after it -/
def name? : List Char → Option (String × List Char)
  | [] => none
  | c :: rest =>
    if c.isAlpha || c = '_' then
      let (more, rest) := rest.span fun c => c.isAlphanum || c = '_' || c = '.'
      some (String.ofList (c :: more), trimStart rest)
    else none

/-- the name that a line assigns to, with what follows the sign; the word `export` may stand before the name -/
def target? (cs : List Char) : Option (String × List Char) := do
  let (name, rest) ← name? cs
  match rest with
  | '=' :: rest => return (name, trimStart rest)
  | _ =>
    guard (name = "export")
    let (name, rest) ← name? rest
    let '=' :: rest := rest | none
    return (name, trimStart rest)

/-- takes over the variable that a line assigns; there may be none on it -/
def takeLine? (e : Environment) (line : List Char) : Option Environment :=
  match trimStart (trimEnd line) with
  | [] | '#' :: _ => some e
  | cs => do
    let (name, rest) ← target? cs
    match rest with
    | [] | '#' :: _ => return e.add name ""
    | rest => return e.add name (String.ofList (← e.value? (.text false) rest))

/-- takes over lines up to the first that cannot be read -/
def takeLines (e : Environment) : List (List Char) → Environment
  | [] => e
  | line :: rest =>
    match e.takeLine? line with
    | some e => e.takeLines rest
    | none => e

/-- takes over the variables of a file; those that are there keep their values -/
def takeFile (e : Environment) (text : String) : Environment :=
  let cs := match text.toList with
    | '\uFEFF' :: rest => rest
    | cs => cs
  e.takeLines (joinLines .plain [] (physicalLines cs))

end Errand.Environment
