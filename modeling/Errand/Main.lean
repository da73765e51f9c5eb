/-
The command line: reads arguments, variables and files, and prints what the invocation has to say.
-/
import Errand.Invocation.Outcome

namespace Errand

/-- an error number without its sign; some calls give it negated -/
def errorNumber (code : UInt32) : UInt32 := min code (0 - code)

def ReadError.ofSystem : IO.Error → ReadError
  | .noFileOrDirectory .. => .missing
  | .inappropriateType _ code details =>
    if errorNumber code = 20 then .notFolder
    else if errorNumber code = 21 then .isFolder
    else .other s!"{details} (os error {errorNumber code})"
  | .permissionDenied _ code _ => .other s!"Permission denied (os error {errorNumber code})"
  | .userError _ => .other "stream did not contain valid UTF-8"
  | e => .other (toString e)

instance : Files IO where
  read path := do
    try
      return .ok (← IO.FS.readFile path)
    catch e =>
      return .error (.ofSystem e)

def usage : String :=
  "Usage: taskforce [--config FILE] <COMMAND>\n\nCommands:\n" ++
  "  run <SCENARIO> [-t|--ticks N] [--seed N]  Run a scenario in the sandbox world\n" ++
  "  check <SCENARIO>                          Report well-formedness problems for every task in a scenario\n" ++
  "  config                                    Print the effective configuration\n"

/-- the variables of this process -/
def ownEnvironment : IO Environment := do
  match ← Files.read "/proc/self/environ" with
  | .ok block => return .ofBlock block
  | .error _ => return {}

/-- a number that no one can foresee -/
def randomWord : IO Nat := do
  let bytes ← IO.getRandomBytes 8
  return bytes.foldl (fun n b => 256 * n + b.toNat) 0

end Errand

open Errand in
/-- the exit status is 2 for a command line that cannot be read and 1 for a failure -/
def main (args : List String) : IO UInt32 := do
  match Invocation.parse args with
  | .error .help =>
    IO.print usage
    return 0
  | .error .malformed =>
    IO.eprint usage
    return 2
  | .ok invocation =>
    let outcome ← invocation.run (← ownEnvironment) (← randomWord)
    IO.print outcome.output
    match outcome.failure? with
    | none => return 0
    | some cause =>
      IO.eprintln s!"Error: {cause}"
      return 1
