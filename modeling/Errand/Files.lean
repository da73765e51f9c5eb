/-
Files: what can be read by path.

`Files m` lets computations in `m` read files. A `Folder` is a set of files that are known beforehand, with paths taken
relative to it.
-/

namespace Errand

inductive ReadError where
  | missing
  | isFolder
  /-- the path goes on behind a file -/
  | notFolder
  /-- any other cause, in the words of the system -/
  | other (cause : String)
  deriving DecidableEq, Repr

def ReadError.text : ReadError → String
  | .missing => "No such file or directory (os error 2)"
  | .isFolder => "Is a directory (os error 21)"
  | .notFolder => "Not a directory (os error 20)"
  | .other cause => cause

/-- computations in `m` can read files -/
class Files (m : Type → Type) where
  /-- the text of the file at a path -/
  read : String → m (Except ReadError String)

/-- files known beforehand -/
structure Folder where
  /-- texts by path -/
  files : List (String × String) := []
  deriving DecidableEq, Repr

namespace Folder

/-- the names on a path that lead on -/
def names (path : String) : List String := (path.splitOn "/").filter fun n => !n.isEmpty && n ≠ "."

def text? (f : Folder) (place : List String) : Option String :=
  (f.files.find? fun file => names file.1 == place).map (·.2)

/-- there is a file below -/
def isFolder (f : Folder) (place : List String) : Bool :=
  place.isEmpty || f.files.any fun file => place.isPrefixOf (names file.1) && names file.1 ≠ place

/-- follows the parts of a path, each from a folder; a path does not lead out -/
def follow (f : Folder) : List String → List String → Except ReadError (List String)
  | here, [] => .ok here
  | here, part :: rest =>
    if f.isFolder here then
      if part.isEmpty || part = "." then f.follow here rest
      else if part = ".." then
        if here.isEmpty then .error .missing else f.follow here.dropLast rest
      else f.follow (here ++ [part]) rest
    else if (f.text? here).isSome then .error .notFolder
    else .error .missing

def read (f : Folder) (path : String) : Except ReadError String := do
  if path.isEmpty || path.startsWith "/" then
    throw .missing
  let here ← f.follow [] (path.splitOn "/")
  match f.text? here with
  | some text => return text
  | none => throw (if f.isFolder here then .isFolder else .missing)

instance : Files (ReaderM Folder) where
  read path := do return (← MonadReader.read).read path

end Folder

end Errand
