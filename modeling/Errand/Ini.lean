/-
INI files: sections of keys with values.

All values are text. A comment begins at the start of a line; elsewhere its sign belongs to a value, or is an error. What
stands before the first section belongs to the root. A section that comes again takes the place of the one before, and so
does a key within its section.
-/
import Errand.Datum
import Errand.Text.Digits
import Errand.Text.Space

namespace Errand.Ini

open Text (isSpace trim trimEnd)

inductive Item where
  | header (name : String)
  | entry (key value : String)
  deriving DecidableEq, Repr

/-! ## Text -/

/-- the character that an escape stands for; an escaped line end is left out -/
def escape : Char → List Char
  | '0' => ['\x00']
  | 'a' => ['\x07']
  | 'b' => ['\x08']
  | 't' => ['\t']
  | 'r' => ['\r']
  | 'n' => ['\n']
  | '\n' => []
  | c => [c]

/-- the character with a number of four digits to base sixteen; a plus sign may take the place of the first -/
def escapedNumber? : List Char → Option Char
  | '+' :: ds => Text.number? 16 ds >>= Text.character?
  | ds => Text.number? 16 ds >>= Text.character?

/-- text without its escapes, up to a character that stops it and is not taken; `atEnd` says that the end of the file
    stops it too -/
def until? (stop : Char → Bool) (atEnd : Bool) : List Char → Option (List Char × List Char)
  | [] => if atEnd then some ([], []) else none
  | '\\' :: 'x' :: a :: b :: c :: d :: rest => do
    let e ← escapedNumber? [a, b, c, d]
    let (text, rest) ← until? stop atEnd rest
    return (e :: text, rest)
  | '\\' :: c :: rest =>
    if c = 'x' then none
    else (until? stop atEnd rest).map fun (text, rest) => (escape c ++ text, rest)
  | c :: rest =>
    if stop c then some ([], c :: rest)
    else if c = '\\' then none
    else (until? stop atEnd rest).map fun (text, rest) => (c :: text, rest)

def isLineEnd (c : Char) : Bool := c = '\n' || c = '\r'

/-- a value up to the end of its line: parts in quotes are kept as they are, and the text behind them is the last part -/
def value? : Nat → Bool → List Char → Option (List Char × List Char)
  | 0, _, _ => none
  | _, _, [] => some ([], [])
  | fuel + 1, first, c :: rest =>
    if c = '"' || c = '\'' then do
      let (text, rest) ← until? (· = c) false rest
      let (more, rest) ← value? fuel false (rest.drop 1)
      return (text ++ more, rest)
    else
      (until? isLineEnd true (c :: rest)).map fun (text, rest) => (if first then trim text else trimEnd text, rest)

/-! ## Items -/

/-- text from its first character that is no space; the flag says that the text begins a line -/
def skipSpace (fresh : Bool) : List Char → Bool × List Char
  | [] => (fresh, [])
  | c :: rest => if isSpace c then skipSpace (c = '\n') rest else (fresh, c :: rest)

def items? : Nat → Bool → List Char → Option (List Item)
  | 0, _, _ => none
  | fuel + 1, fresh, cs =>
    match skipSpace fresh cs with
    | (_, []) => some []
    | (fresh, c :: rest) =>
      if c = ';' || c = '#' then
        if fresh then items? fuel true ((rest.dropWhile (· ≠ '\n')).drop 1) else none
      else if c = '[' then do
        let (name, rest) ← until? (· = ']') false rest
        return .header (String.ofList (trim name)) :: (← items? fuel false (rest.drop 1))
      else do
        let (key, rest) ← until? (fun c => c = '=' || c = ':') false (c :: rest)
        if (trim key).isEmpty then none
        let rest := (rest.drop 1).dropWhile fun c => isSpace c && !isLineEnd c
        let (value, rest) ← value? (rest.length + 1) true rest
        return .entry (String.ofList (trim key)) (String.ofList value) :: (← items? fuel false rest)

/-! ## Data -/

/-- the entries of the root, and the section that is open -/
structure Draft where
  entries : List (String × Datum) := []
  header? : Option String := none

def Draft.add (d : Draft) : Item → Draft
  | .header name => ⟨Datum.put name (.table []) d.entries, some name⟩
  | .entry key value =>
    match d.header? with
    | none => { d with entries := Datum.put key (.text value) d.entries }
    | some name =>
      let old := ((d.entries.lookup name).getD .nothing).entries
      { d with entries := Datum.put name (.table (Datum.put key (.text value) old)) d.entries }

def parse? (s : String) : Option Datum :=
  (items? (s.length + 1) true s.toList).map fun items => .table (items.foldl Draft.add {}).entries

end Errand.Ini
