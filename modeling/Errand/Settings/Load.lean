/-
Settings loaded from a file and the environment, each laid over the defaults.

A file that is named must exist; without a name `taskforce.toml` is read if it exists. A name without the ending of a
format is tried with each of them.
-/
import Errand.Environment.File
import Errand.Files
import Errand.Form.Datum
import Errand.Ini
import Errand.Json.Reader
import Errand.Json5
import Errand.Ron
import Errand.Settings.Decode
import Errand.Toml.Document
import Errand.Yaml.Node

namespace Errand

inductive SettingsError where
  /-- a file is missing or does not follow its format -/
  | unreadable
  /-- a setting has a value of the wrong kind or range -/
  | invalid
  deriving DecidableEq, Repr

def SettingsError.text : SettingsError → String
  | .unreadable => "Failed to read configuration"
  | .invalid => "Invalid configuration"

inductive Format where
  | toml
  | json
  | yaml
  | ini
  | ron
  | json5
  deriving DecidableEq, Repr

namespace Format

/-- the formats, the one that is tried first in front -/
def all : List Format := [.toml, .json, .yaml, .ini, .ron, .json5]

/-- what the name of a file in the format may end in, after the point -/
def endings : Format → List String
  | .toml => ["toml"]
  | .json => ["json"]
  | .yaml => ["yaml", "yml"]
  | .ini => ["ini"]
  | .ron => ["ron"]
  | .json5 => ["json5"]

def named : List (Format × String) := all.flatMap fun f => f.endings.map (f, ·)

/-- the format that the ending of a path tells; a point that begins the name is no sign of an ending -/
def ofPath? (path : String) : Option Format :=
  let name := ((path.splitOn "/").filter (!·.isEmpty)).getLastD ""
  match (name.splitOn ".").reverse with
  | ending :: stem :: more =>
    if stem.isEmpty && more.isEmpty then none else all.find? (·.endings.contains ending)
  | _ => none

def datum? (text : String) : Format → Option Datum
  | .toml => Toml.parse? text
  | .json => do
    let j ← Json.parse? text
    if j.isSound then some (.ofJson j) else none
  | .yaml => Yaml.parse? text
  | .ini => Ini.parse? text
  | .ron => Ron.parse? text
  | .json5 => Json5.parse? text

/-- the table that a text writes; settings are never in a datum of another kind -/
def parse? (text : String) (f : Format) : Option Datum := do
  match ← f.datum? text with
  | .table entries => some (.table entries)
  | _ => none

end Format

namespace Settings

variable {m : Type → Type} [Monad m] [Files m]

/-- the text of the first file that can be found under a name with an ending -/
def findWith (path : String) : List (Format × String) → m (Option (Format × String))
  | [] => return none
  | (f, ending) :: rest => do
    match ← Files.read (path ++ "." ++ ending) with
    | .ok text => return some (f, text)
    | .error _ => findWith path rest

/-- the text of the file that a name stands for; a file of that very name shuts out all others -/
def find (path : String) : m (Option (Format × String)) := do
  match ← Files.read path with
  | .ok text => return (Format.ofPath? path).map (·, text)
  | .error _ =>
    let stem := path.dropEndWhile (· = '/') |>.toString
    if stem.isEmpty then return none else findWith stem Format.named

/-- what the file holds that a name stands for; nothing if no name is given and there is no file -/
def fileData (path? : Option String) : m (Option Datum) := do
  match ← find (path?.getD "taskforce.toml") with
  | some (f, text) => return f.parse? text
  | none => return if path?.isSome then none else some (.table [])

/-- the settings from a file, or from the usual one, and from an environment -/
def read (path? : Option String) (e : Environment) : m (Except SettingsError Settings) := do
  match ← fileData path? with
  | none => return .error .unreadable
  | some file =>
    let base := file.entries.foldl (fun d nv => d.layAt (Datum.pathOf nv.1) nv.2) (Datum.table [])
    match ofDatum? (e.overlay base) with
    | none => return .error .invalid
    | some s => return .ok s

/-- the variable that names the settings file -/
def pathVariable : String := "TASKFORCE_CONFIG_PATH"

/-- the environment with the variables of the file `.env` -/
def fullEnvironment (e : Environment) : m Environment := do
  match ← Files.read ".env" with
  | .ok text => return e.takeFile text
  | .error _ => return e

def load (e : Environment) : m (Except SettingsError Settings) := do
  let e ← fullEnvironment e
  read (e.get? pathVariable) e

end Settings

end Errand
