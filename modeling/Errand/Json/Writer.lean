/-
JSON text of values, without blanks.

Strings keep every character but the quote, the backslash and the control characters, which are escaped.
-/
import Errand.Json.Basic

namespace Errand.Json

def hexDigit (n : Nat) : Char := if n < 10 then Char.ofNat (48 + n) else Char.ofNat (87 + n)

/-- the letter that stands for a character behind a backslash -/
def escapeLetter? : Char → Option Char
  | '"' => some '"'
  | '\\' => some '\\'
  | '\x08' => some 'b'
  | '\x0c' => some 'f'
  | '\n' => some 'n'
  | '\r' => some 'r'
  | '\t' => some 't'
  | _ => none

/-- a character as it stands in a string -/
def escape (c : Char) : List Char :=
  match escapeLetter? c with
  | some letter => ['\\', letter]
  | none =>
    if c.toNat < 32 then ['\\', 'u', '0', '0', hexDigit (c.toNat / 16), hexDigit (c.toNat % 16)] else [c]

def quoted (s : String) : List Char := '"' :: (s.toList.flatMap escape ++ ['"'])

mutual

/-- the characters of a value's text -/
def chars : Json → List Char
  | .null => "null".toList
  | .bool true => "true".toList
  | .bool false => "false".toList
  | .int n => (toString n).toList
  | .real negative m e => (if negative then ['-'] else []) ++ (toString m).toList ++ 'e' :: (toString e).toList
  | .str s => quoted s
  | .arr [] => ['[', ']']
  | .arr (j :: rest) => '[' :: (j.chars ++ itemChars rest)
  | .obj [] => ['{', '}']
  | .obj ((k, j) :: rest) => '{' :: (quoted k ++ ':' :: (j.chars ++ memberChars rest))
  | .flawed => "null".toList

/-- the further items of an array and its end -/
def itemChars : List Json → List Char
  | [] => [']']
  | j :: rest => ',' :: (j.chars ++ itemChars rest)

/-- the further members of an object and its end -/
def memberChars : List (String × Json) → List Char
  | [] => ['}']
  | (k, j) :: rest => ',' :: (quoted k ++ ':' :: (j.chars ++ memberChars rest))

end

def text (j : Json) : String := String.ofList j.chars

end Errand.Json
