/-
Cursors: places in a YAML text, with the classes of its characters and the ways over blanks and line ends.

A text ends at its first zero character, so that the zero character stands for the end.
-/

namespace Errand.Yaml

/-! ## Characters -/

def isBlank (c : Char) : Bool := c = ' ' || c = '\t'

/-- characters that end a line -/
def isBreak (c : Char) : Bool := c = '\n' || c = '\r'

def isEnding (c : Char) : Bool := isBreak c || c = '\x00'

/-- what parts words: a blank or an ending -/
def isGap (c : Char) : Bool := isBlank c || isEnding c

def isFlow (c : Char) : Bool := c = ',' || c = '[' || c = ']' || c = '{' || c = '}'

/-- characters of the names of directives and tag handles -/
def isWord (c : Char) : Bool := c.isAlphanum || c = '_' || c = '-'

def isAnchorChar (c : Char) : Bool := !isGap c && !isFlow c && c ≠ '\uFEFF'

/-- characters of a tag that is written in full -/
def isUriChar (c : Char) : Bool := isWord c || "#;/?:@&=+$,.!~*'()[]%".contains c

/-- characters of a tag that is written with a handle -/
def isTagChar (c : Char) : Bool := isUriChar c && !isFlow c && c ≠ '!'

/-! ## Cursors -/

structure Cursor where
  rest : List Char
  line : Nat := 0
  column : Nat := 0
  /-- how many characters have been passed -/
  passed : Nat := 0
  /-- only blanks have been passed on the line -/
  fresh : Bool := true
  deriving Repr

namespace Cursor

def ofString (s : String) : Cursor := { rest := s.toList.takeWhile (· ≠ '\x00') }

def look (c : Cursor) (n : Nat) : Char := (c.rest.drop n).headD '\x00'

def head (c : Cursor) : Char := c.rest.headD '\x00'

def skipBlank (c : Cursor) : Cursor := { c with rest := c.rest.tail, column := c.column + 1, passed := c.passed + 1 }

/-- passes characters that are not all blanks -/
def skip (c : Cursor) (n : Nat) : Cursor :=
  { c with rest := c.rest.drop n, column := c.column + n, passed := c.passed + n, fresh := false }

/-- passes the end of a line -/
def skipBreak (c : Cursor) : Cursor :=
  let pass (rest : List Char) (n : Nat) : Cursor :=
    { rest, line := c.line + 1, column := 0, passed := c.passed + n, fresh := true }
  match c.rest with
  | '\r' :: '\n' :: rest => pass rest 2
  | '\n' :: rest => pass rest 1
  | '\r' :: rest => pass rest 1
  | _ => c

def skipLine (c : Cursor) : Cursor := c.skip (c.rest.takeWhile (!isEnding ·)).length

/-- passes characters as long as they fit, and gives them -/
def span (c : Cursor) (fits : Char → Bool) : List Char × Cursor :=
  let cs := c.rest.takeWhile fits
  (cs, c.skip cs.length)

/-- three signs of a kind at the start of a line, with a gap behind them -/
def atSigns (c : Cursor) (sign : Char) : Bool :=
  c.column = 0 && c.look 0 = sign && c.look 1 = sign && c.look 2 = sign && isGap (c.look 3)

/-- the start of a document is marked here -/
def atStart (c : Cursor) : Bool := c.atSigns '-'

/-- the end of a document is marked here -/
def atEnd (c : Cursor) : Bool := c.atSigns '.'

def atMarker (c : Cursor) : Bool := c.atStart || c.atEnd

structure Blanks where
  space : Bool := false
  tab : Bool := false

/-- passes blanks; the text is long enough to count them -/
def blanksFrom : Nat → Blanks → Cursor → Blanks × Cursor
  | 0, b, c => (b, c)
  | fuel + 1, b, c =>
    if c.head = ' ' then blanksFrom fuel { b with space := true } c.skipBlank
    else if c.head = '\t' then blanksFrom fuel { b with tab := true } c.skipBlank
    else (b, c)

/-- passes blanks and a comment; without a blank before it there is no comment -/
def trailing? (c : Cursor) : Option (Blanks × Cursor) :=
  let (b, c) := blanksFrom c.rest.length {} c
  if c.head = '#' then
    if b.space || b.tab then some (b, c.skipLine) else none
  else some (b, c)

end Cursor

end Errand.Yaml
