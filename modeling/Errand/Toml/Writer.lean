/-
TOML text of strings.

A string is written in the plainest quotes that need no escape: double quotes, then single ones, then triple ones. A
string that none of these can hold is escaped, in triple quotes if it has several lines. Tabs are escaped wherever
escapes count.
-/

namespace Errand.Toml

inductive Quoting where
  | basic
  | literal
  | basicLines
  | literalLines
  deriving DecidableEq, Repr

/-- control characters that no quotes hold as they are -/
def isControl (c : Char) : Bool := (c.toNat < 32 && c ≠ '\t' && c ≠ '\n') || c.toNat = 127

def longestRun (c : Char) (cs : List Char) : Nat :=
  (cs.foldl (fun (acc : Nat × Nat) d => let n := if d = c then acc.1 + 1 else 0; (n, max acc.2 n)) (0, 0)).2

def quoting (cs : List Char) : Quoting :=
  let control := cs.any isControl
  let plain := !control && !cs.contains '\\'
  let lines := cs.contains '\n'
  if plain && !cs.contains '"' && !lines then .basic
  else if !control && !cs.contains '\'' && !lines then .literal
  else if plain && longestRun '"' cs ≤ 2 then .basicLines
  else if !control && longestRun '\'' cs ≤ 2 then .literalLines
  else if lines then .basicLines
  else .basic

def hexDigit (n : Nat) : Char := if n < 10 then Char.ofNat (48 + n) else Char.ofNat (55 + n)

/-- the letter that stands for a character behind a backslash; double quotes and line ends are looked after elsewhere -/
def escapeLetter? : Char → Option Char
  | '\\' => some '\\'
  | '\x08' => some 'b'
  | '\t' => some 't'
  | '\x0c' => some 'f'
  | '\r' => some 'r'
  | _ => none

/-- a character where escapes count -/
def escape (c : Char) : List Char :=
  match escapeLetter? c with
  | some letter => ['\\', letter]
  | none => if isControl c then ['\\', 'u', '0', '0', hexDigit (c.toNat / 16), hexDigit (c.toNat % 16)] else [c]

/-- the text between double quotes -/
def basicText (c : Char) : List Char :=
  if c = '"' then ['\\', '"'] else if c = '\n' then ['\\', 'n'] else escape c

/-- the text between triple double quotes, after some double quotes in a row; every third one is escaped -/
def basicLinesText : Nat → List Char → List Char
  | _, [] => []
  | run, c :: rest =>
    if c = '"' then
      if run = 2 then '\\' :: '"' :: basicLinesText 0 rest else '"' :: basicLinesText (run + 1) rest
    else if c = '\n' then '\n' :: basicLinesText 0 rest
    else escape c ++ basicLinesText 0 rest

/-- text in quotes of three; text of several lines begins on a line of its own -/
def tripled (quote : Char) (several : Bool) (text : List Char) : List Char :=
  let quotes := List.replicate 3 quote
  quotes ++ (if several then ['\n'] else []) ++ text ++ quotes

/-- a string in the quotes that suit it best -/
def quoted (s : String) : String :=
  let cs := s.toList
  let several := cs.contains '\n'
  String.ofList <| match quoting cs with
    | .basic => '"' :: (cs.flatMap basicText ++ ['"'])
    | .literal => '\'' :: (cs ++ ['\''])
    | .basicLines => tripled '"' several (basicLinesText 0 cs)
    | .literalLines => tripled '\'' several cs

end Errand.Toml
