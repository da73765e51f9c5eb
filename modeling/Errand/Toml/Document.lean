/-
TOML documents: lines of headers and of keys with values, gathered into one table.

A header defines a table once. An array of tables grows by one with each of its headers, and later lines mean its last
table.
-/
import Errand.Toml.Value

namespace Errand.Toml

/-- the table of a header, which no header has defined before and no dotted key has created -/
def Node.define? (name : String) : Node → Option Node
  | .table implicit dotted members =>
    match members.lookup name with
    | none => some (.table implicit dotted (put name (.table false false []) members))
    | some (.table true false ms) => some (.table implicit dotted (put name (.table false false ms) members))
    | some _ => none
  | _ => none

/-- one more table of an array of tables -/
def Node.grow? (name : String) : Node → Option Node
  | .table implicit dotted members =>
    let new : Node := .table false false []
    match members.lookup name with
    | none => some (.table implicit dotted (put name (.tables [new]) members))
    | some (.tables ts) => some (.table implicit dotted (put name (.tables (ts ++ [new])) members))
    | some _ => none
  | _ => none

/-- a document as far as it has been read: everything so far, and the path of the last header -/
structure Draft where
  root : Node := .table false false []
  header : List String := []

def line? (d : Draft) (cs : List Char) : Option (Draft × List Char) :=
  match cs with
  | '[' :: '[' :: rest => do
    let (path, rest) ← key? rest
    let ']' :: ']' :: rest := rest | none
    let root ← d.root.at? false (Node.grow? (← path.getLast?)) path.dropLast
    return ({ root, header := path }, rest)
  | '[' :: rest => do
    let (path, rest) ← key? rest
    let ']' :: rest := rest | none
    let root ← d.root.at? false (Node.define? (← path.getLast?)) path.dropLast
    return ({ root, header := path }, rest)
  | _ => do
    let (key, rest) ← key? cs
    let '=' :: rest := rest | none
    let (v, rest) ← value? (skipBlanks rest)
    let root ← d.root.at? false (Node.insert? key v) d.header
    return ({ d with root }, rest)

def lines : Nat → Draft → List Char → Option Draft
  | 0, _, _ => none
  | fuel + 1, d, cs => do
    match ← trailing? cs with
    | [] => some d
    | cs =>
      match lineEnd? cs with
      | some rest => lines fuel d rest
      | none =>
        let (d, rest) ← line? d cs
        match ← trailing? rest with
        | [] => some d
        | rest => lines fuel d (← lineEnd? rest)

/-- the table that a document writes; a byte order mark at its start is skipped -/
def parse? (s : String) : Option Datum :=
  let cs := match s.toList with
    | '\uFEFF' :: rest => rest
    | cs => cs
  (lines (cs.length + 1) {} cs).map fun d => d.root.datum

end Errand.Toml
