/-
Tokens of YAML texts.

Indentation shows where block collections begin and end, so tokens are set for both. Whether something is the key of a
mapping shows only at the colon behind it: until then it is a candidate, and where it stands decides where the tokens for
the mapping and its key are put in. Inside the brackets of a flow collection, indentation counts only as a lower bound.
-/
import Errand.Yaml.Scalar

namespace Errand.Yaml

inductive Token where
  | streamEnd
  | version
  /-- what a handle of tags stands for -/
  | handle (name meaning : String)
  | documentStart
  | documentEnd
  | sequenceStart
  | mappingStart
  /-- the end of a block collection -/
  | blockEnd
  | flowSequenceStart
  | flowSequenceEnd
  | flowMappingStart
  | flowMappingEnd
  | blockEntry
  | flowEntry
  | key
  | value
  | reference (name : String)
  | anchor (name : String)
  | tag (handle suffix : String)
  | scalar (plain : Bool) (text : String)
  deriving DecidableEq, Repr, Inhabited

/-! ## State -/

/-- what may turn out to be a key -/
structure Candidate where
  /-- nothing else can stand here -/
  required : Bool
  /-- how many tokens are before it -/
  index : Nat
  line : Nat
  column : Nat
  passed : Nat

structure Indent where
  /-- the indentation around it -/
  outer : Int
  /-- it belongs to a block collection; others are one column only, and no token ends them -/
  block : Bool

/-- a text as far as it has been read -/
structure Scan where
  cursor : Cursor
  tokens : Array Token := #[]
  indent : Int := -1
  /-- the innermost first -/
  indents : List Indent := []
  /-- how many flow collections are open -/
  flow : Nat := 0
  keysAllowed : Bool := true
  /-- the candidate for a key on each level of flow collections, the innermost first -/
  candidates : List (Option Candidate) := [none]
  /-- where a value may follow its colon without a gap -/
  adjacent : Nat := 0
  /-- a flow mapping has been opened -/
  mapped : Bool := false
  /-- for each open flow sequence whether it holds a mapping without braces at the moment -/
  implicit : List Bool := []
  /-- the last token is an anchor or a tag that begins a line -/
  propertyFirst : Bool := false

namespace Scan

def push (s : Scan) (t : Token) : Scan := { s with tokens := s.tokens.push t, propertyFirst := false }

/-- puts a token between others -/
def insert (s : Scan) (i : Nat) (t : Token) : Scan := { s with tokens := s.tokens.insertIdxIfInBounds i t }

def goOn (s : Scan) (c : Cursor) : Scan := { s with cursor := c }

/-- a character that is no blank is passed -/
def pass (s : Scan) (n : Nat) : Scan := s.goOn (s.cursor.skip n)

/-- passes blanks and a comment -/
def passTrailing? (s : Scan) : Option Scan := s.cursor.trailing?.map fun (_, c) => s.goOn c

/-! ## Candidates -/

/-- drops the candidate of this level, unless it has to be a key -/
def dropCandidate? (s : Scan) : Option Scan :=
  match s.candidates with
  | some k :: rest => if k.required then none else some { s with candidates := none :: rest }
  | _ => some s

/-- takes what begins here for a candidate, if a key may stand here -/
def addCandidate? (s : Scan) : Option Scan := do
  if !s.keysAllowed then return s
  let c := s.cursor
  let required := s.flow = 0 && s.indent = c.column && s.indents.head?.any (·.block)
  let s ← s.dropCandidate?
  let candidate : Candidate :=
    { required, index := s.tokens.size, line := c.line, column := c.column, passed := c.passed }
  return { s with candidates := some candidate :: s.candidates.tail }

/-- drops candidates that are too far away: outside of flow collections a key is on one line, and not too long -/
def dropStale? (s : Scan) : Option Scan := do
  if s.flow > 0 then return s
  let stale (k : Candidate) : Bool := k.line < s.cursor.line || k.passed + 1024 < s.cursor.passed
  let candidates ← s.candidates.mapM fun k? =>
    match k? with
    | some k => if !stale k then some (some k) else if k.required then none else some none
    | none => some none
  return { s with candidates }

/-! ## Indentation -/

/-- leaves indentations, listed from the innermost, as long as they are beyond a column -/
def leaveFrom (column : Int) : List Indent → Scan → Scan
  | [], s => { s with indents := [] }
  | i :: rest, s =>
    if s.indent ≤ column then { s with indents := i :: rest }
    else
      let s := { s with indent := i.outer }
      leaveFrom column rest (if i.block then s.push .blockEnd else s)

def leaveIndents (s : Scan) (column : Int) : Scan := if s.flow > 0 then s else leaveFrom column s.indents s

/-- enters an indentation of one column, if the last one belongs to a block collection -/
def enterColumn (s : Scan) : Scan :=
  if s.flow = 0 && s.indents.head?.any (·.block) then
    { s with indents := ⟨s.indent, false⟩ :: s.indents, indent := s.indent + 1 }
  else s

def leaveColumns (s : Scan) : Scan :=
  let columns := s.indents.takeWhile (!·.block)
  { s with
    indent := (columns.getLast?.map (·.outer)).getD s.indent
    indents := s.indents.drop columns.length }

/-- enters the indentation of a block collection, unless it has been entered; `at?` says before which token it begins -/
def enterBlock (s : Scan) (column : Nat) (at? : Option Nat) (t : Token) : Scan :=
  if s.flow > 0 then s else
  let s : Scan := match s.indents with
    | i :: rest => if s.indent ≤ (column : Int) && !i.block then { s with indent := i.outer, indents := rest } else s
    | [] => s
  if s.indent < (column : Int) then
    let s : Scan := { s with indents := ⟨s.indent, true⟩ :: s.indents, indent := (column : Int) }
    match at? with
    | some i => s.insert i t
    | none => s.push t
  else s

/-! ## Gaps between tokens -/

/-- passes blanks, comments and line ends up to the next token; a line of a block that begins with a tab left of the
    indentation has to be empty -/
def toToken? : Nat → Scan → Option Scan
  | 0, _ => none
  | fuel + 1, s => do
    let c := s.cursor
    if c.head = '\t' && !s.indents.isEmpty && c.fresh && c.column < s.indent then
      let (_, c) ← c.trailing?
      if isEnding c.head then toToken? fuel (s.goOn c) else none
    else if isBlank c.head then toToken? fuel (s.goOn c.skipBlank)
    else if isBreak c.head then
      toToken? fuel { s with cursor := c.skipBreak, keysAllowed := s.keysAllowed || s.flow = 0 }
    else if c.head = '#' then toToken? fuel (s.goOn c.skipLine)
    else return s

/-- passes blanks, comments and line ends up to the next token -/
def skipGap? (s : Scan) : Option Scan := toToken? (2 * s.cursor.rest.length + 2) s

/-! ## Directives and markers -/

/-- a number of at most nine digits -/
def versionNumber? (c : Cursor) : Option Cursor :=
  let (ds, c) := c.span Char.isDigit
  if ds.isEmpty || ds.length > 9 then none else some c

def skipBlanks (c : Cursor) : Cursor := (c.blanksFrom c.rest.length {}).2

/-- the handle of a tag; in a directive it has a sign at its end or is a sign alone -/
def tagHandle? (directive : Bool) (c : Cursor) : Option (List Char × Cursor) := do
  if c.head ≠ '!' then none
  let (word, c) := (c.skip 1).span isWord
  if c.head = '!' then return ('!' :: (word ++ ['!']), c.skip 1)
  if directive && !word.isEmpty then none
  return ('!' :: word, c)

/-- the character that bytes in an escaped form make up: they are put together as one number -/
def uriEscape? : Nat → Nat → Cursor → Option (Char × Cursor)
  | 0, code, c => (Text.character? code).map (·, c)
  | more + 1, code, c => do
    if c.head ≠ '%' then none
    let byte ← Text.number? 16 [c.look 1, c.look 2]
    if byte / 64 ≠ 2 then none
    uriEscape? more (256 * code + byte) (c.skip 3)

/-- the first byte of an escaped character tells how many there are -/
def uriCharacter? (c : Cursor) : Option (Char × Cursor) := do
  let byte ← Text.number? 16 [c.look 1, c.look 2]
  let more ←
    if byte / 128 = 0 then some 0
    else if byte / 32 = 6 then some 1
    else if byte / 16 = 14 then some 2
    else if byte / 8 = 30 then some 3
    else none
  uriEscape? more byte (c.skip 3)

def tagText? (fits : Char → Bool) : Nat → Cursor → Option (List Char × Cursor)
  | 0, _ => none
  | fuel + 1, c => do
    if !fits c.head then return ([], c)
    let (ch, c) ← if c.head = '%' then uriCharacter? c else some (c.head, c.skip 1)
    let (more, c) ← tagText? fits fuel c
    return (ch :: more, c)

def tagMeaning? (c : Cursor) : Option (List Char × Cursor) := do
  if c.head = '!' then
    let (text, c) ← tagText? isUriChar (c.rest.length + 1) (c.skip 1)
    return ('!' :: text, c)
  if !isTagChar c.head then none
  tagText? isUriChar (c.rest.length + 1) c

/-- a directive; one of an unknown name says nothing -/
def directive? (c : Cursor) : Option (Token × Cursor) := do
  let (name, c) := (c.skip 1).span isWord
  if name.isEmpty || !isGap c.head then none
  match String.ofList name with
  | "YAML" =>
    let c ← versionNumber? (skipBlanks c)
    if c.head ≠ '.' then none
    return (.version, ← versionNumber? (c.skip 1))
  | "TAG" =>
    let (handle, c) ← tagHandle? true (skipBlanks c)
    let (meaning, c) ← tagMeaning? (skipBlanks c)
    if !isGap c.head then none
    return (.handle (String.ofList handle) (String.ofList meaning), c)
  | _ => return (.handle "" "", c.skipLine)

/-- what stands at the start of a line outside of all blocks -/
def atMargin? (s : Scan) : Option Scan := do
  let s ← (s.leaveIndents (-1)).dropCandidate?
  return { s with keysAllowed := false }

/-- reads a directive, which has a line of its own -/
def takeDirective? (s : Scan) : Option Scan := do
  let s ← s.atMargin?
  let (t, c) ← directive? s.cursor
  let (_, c) ← c.trailing?
  if isEnding c.head then some ((s.goOn c.skipBreak).push t) else none

def takeStart? (s : Scan) : Option Scan := do return ((← s.atMargin?).pass 3).push .documentStart

/-- reads a marker for the end of a document, which has a line of its own -/
def takeEnd? (s : Scan) : Option Scan := do
  let s ← (((← s.atMargin?).pass 3).push .documentEnd).passTrailing?
  if isEnding s.cursor.head then some s else none

def takeStreamEnd? (s : Scan) : Option Scan := do
  if s.candidates.any fun k? => k?.any (·.required) then none
  return (s.leaveIndents (-1)).push .streamEnd

/-! ## Collections -/

def openFlow? (s : Scan) (t : Token) : Option Scan := do
  let s := (← s.addCandidate?).enterColumn
  if s.flow = 255 then none
  let s := { s with candidates := none :: s.candidates, flow := s.flow + 1, keysAllowed := true }
  let s := if t = .flowMappingStart then { s with mapped := true } else { s with implicit := false :: s.implicit }
  return (← (s.pass 1).passTrailing?).push t

/-- ends a mapping without braces -/
def endImplicit (s : Scan) : Scan :=
  match s.implicit with
  | true :: rest => { s with mapped := false, implicit := false :: rest }.push .flowMappingEnd
  | _ => s

def closeFlow? (s : Scan) (t : Token) : Option Scan := do
  let s ← s.dropCandidate?
  let s := { s with candidates := if s.flow > 0 then s.candidates.tail else s.candidates, flow := s.flow - 1,
                    keysAllowed := false }
  let s := if t = .flowSequenceEnd then { s.endImplicit with implicit := s.implicit.tail } else s
  let s ← (s.pass 1).passTrailing?
  return { s with adjacent := if s.flow > 0 then s.cursor.passed else s.adjacent }.push t

/-- a comma between the items of a flow collection -/
def takeComma? (s : Scan) : Option Scan := do
  let s := { ← s.dropCandidate? with keysAllowed := true }.endImplicit
  return (← (s.pass 1).passTrailing?).push .flowEntry

/-- the sign of an item of a block sequence -/
def takeEntry? (s : Scan) : Option Scan := do
  let c := s.cursor
  if s.flow > 0 || !s.keysAllowed then none
  if s.propertyFirst && c.column = 0 && s.indent > -1 then none
  let s := (s.pass 1).enterBlock c.column none .sequenceStart
  let (blanks, c) ← s.cursor.trailing?
  if blanks.tab && c.head = '-' && isGap (c.look 1) then none
  let s := s.goOn c
  let s := if isBreak c.head || isFlow c.head then s.enterColumn else s
  return { ← s.dropCandidate? with keysAllowed := true }.push .blockEntry

/-- passes spaces, comments and line ends; the flag says whether there is any space or line end -/
def toContent : Nat → Bool → Scan → Bool × Scan
  | 0, found, s => (found, s)
  | fuel + 1, found, s =>
    let c := s.cursor
    if c.head = ' ' then toContent fuel true (s.goOn c.skipBlank)
    else if isBreak c.head then
      toContent fuel true { s with cursor := c.skipBreak, keysAllowed := s.keysAllowed || s.flow = 0 }
    else if c.head = '#' then toContent fuel found (s.goOn c.skipLine)
    else (found, s)

/-- the sign of a key that may be any node -/
def takeKey? (s : Scan) : Option Scan := do
  let column := s.cursor.column
  if s.flow = 0 && !s.keysAllowed then none
  let s := if s.flow = 0 then s.enterBlock column none .mappingStart else { s with mapped := true }
  let s := { ← s.dropCandidate? with keysAllowed := s.flow = 0 }
  let (found, s) := toContent (2 * s.cursor.rest.length + 2) false (s.pass 1)
  if !found || s.cursor.head = '\t' then none
  return s.push .key

/-- the colon before a value: the candidate of this level becomes a key -/
def takeValue? (s : Scan) : Option Scan := do
  let start := s.cursor
  let implicit := !s.implicit.isEmpty && !s.mapped
  let s := if implicit then { s with implicit := true :: s.implicit.tail } else s
  let s := s.pass 1
  let s ←
    if s.cursor.head = '\t' then do
      let (blanks, c) ← s.cursor.trailing?
      if !blanks.space && isWord c.head then none else some (s.goOn c)
    else some s
  match s.candidates with
  | some k :: rest =>
    let s := s.insert k.index .key
    if implicit && k.line < start.line then none
    let s := if implicit then s.insert k.index .flowMappingStart else s
    let s := (s.enterBlock k.column (some k.index) .mappingStart).enterColumn
    return { s with candidates := none :: rest, keysAllowed := false }.push .value
  | _ =>
    let s := if implicit then s.push .flowMappingStart else s
    if s.flow = 0 && !s.keysAllowed then none
    let s := (if s.flow = 0 then s.enterBlock start.column none .mappingStart else s).enterColumn
    return { s with keysAllowed := s.flow = 0 }.push .value

/-! ## Properties and scalars -/

/-- begins a token that may be a key, and behind which none may stand -/
def beginNode? (s : Scan) : Option Scan := do return { ← s.addCandidate? with keysAllowed := false }

def takeAnchor? (s : Scan) : Option Scan := do
  let first := s.cursor.column = 0
  let reference := s.cursor.head = '*'
  let s ← s.beginNode?
  let (name, c) := (s.cursor.skip 1).span isAnchorChar
  if name.isEmpty then none
  let name := String.ofList name
  if reference then return (s.goOn c).push (.reference name)
  return { (s.goOn c).push (.anchor name) with propertyFirst := first }

/-- a tag in full or with a handle -/
def tag? (c : Cursor) : Option (Token × Cursor) := do
  if c.look 1 = '<' then
    let (text, c) ← tagText? isUriChar (c.rest.length + 1) (c.skip 2)
    if c.head ≠ '>' then none
    return (.tag "" (String.ofList text), c.skip 1)
  let (handle, c) ← tagHandle? false c
  let (text, c) ← tagText? isTagChar (c.rest.length + 1) c
  if handle.length ≥ 2 && handle.getLast? = some '!' then
    if text.isEmpty then none
    return (.tag (String.ofList handle) (String.ofList text), c)
  let suffix := handle.tail ++ text
  if suffix.isEmpty then return (.tag "" "!", c)
  return (.tag "!" (String.ofList suffix), c)

def takeTag? (s : Scan) : Option Scan := do
  let first := s.cursor.column = 0
  let s ← s.beginNode?
  let (t, c) ← tag? s.cursor
  if !(isGap c.head || (s.flow > 0 && isFlow c.head)) then none
  return { (s.goOn c).push t with propertyFirst := first }

def takeBlock? (s : Scan) : Option Scan := do
  let literal := s.cursor.head = '|'
  let s := { ← s.addCandidate? with keysAllowed := true }.leaveColumns
  let (text, c) ← block? literal s.indent s.cursor
  return (s.goOn c).push (.scalar false text)

/-- a quoted scalar; a value may follow its colon at once -/
def takeQuoted? (s : Scan) : Option Scan := do
  let single := s.cursor.head = '\''
  let s ← s.beginNode?
  let (text, c) ← quoted? single (s.flow > 0) s.indent s.cursor
  let s ← (s.goOn c).skipGap?
  return { s with adjacent := s.cursor.passed }.push (.scalar false text)

/-- a plain scalar; behind its last line a key may stand again -/
def takePlain? (s : Scan) : Option Scan := do
  let s := (← s.beginNode?).leaveColumns
  let indent := s.indent + 1
  if s.flow > 0 && s.cursor.column < indent then none
  let (text, c) ← plain? (s.flow > 0) indent s.cursor
  return { s with cursor := c, keysAllowed := c.fresh }.push (.scalar true text)

/-! ## Texts -/

/-- reads the token that its first characters tell -/
def takeToken? (s : Scan) : Option Scan :=
  let c := s.cursor
  let next := c.look 1
  match c.head with
  | '[' => s.openFlow? .flowSequenceStart
  | '{' => s.openFlow? .flowMappingStart
  | ']' => s.closeFlow? .flowSequenceEnd
  | '}' => s.closeFlow? .flowMappingEnd
  | ',' => s.takeComma?
  | '-' => if isGap next then s.takeEntry? else s.takePlain?
  | '?' => if isGap next then s.takeKey? else s.takePlain?
  | ':' =>
    if isGap next || (s.flow > 0 && (isFlow next || c.passed = s.adjacent)) then s.takeValue? else s.takePlain?
  | '*' | '&' => s.takeAnchor?
  | '!' => s.takeTag?
  | '|' | '>' => if s.flow = 0 then s.takeBlock? else s.takePlain?
  | '\'' | '"' => s.takeQuoted?
  | '%' | '@' | '\x60' => none
  | _ => s.takePlain?

def toEnd? : Nat → Scan → Option Scan
  | 0, _ => none
  | fuel + 1, s => do
    let s ← s.skipGap? >>= dropStale?
    let s := s.leaveIndents s.cursor.column
    let c := s.cursor
    if c.rest.isEmpty then s.takeStreamEnd?
    else if c.column = 0 && c.head = '%' then s.takeDirective? >>= toEnd? fuel
    else if c.atStart then s.takeStart? >>= toEnd? fuel
    else if c.atEnd then s.takeEnd? >>= toEnd? fuel
    else if c.column < s.indent then none
    else s.takeToken? >>= toEnd? fuel

end Scan

def Token.ofText? (text : String) : Option (List Token) :=
  let c := Cursor.ofString text
  (Scan.toEnd? (c.rest.length + 1) { cursor := c }).map fun s => s.tokens.toList

end Errand.Yaml
