/-
Settings written as a TOML document: a header and its keys for each section, with blank lines between the sections.
-/
import Errand.Settings
import Errand.Toml.Writer
import Errand.Width

namespace Errand

/-- why settings cannot be written -/
inductive RenderError where
  /-- TOML has integers of 64 bits with a sign -/
  | tooLarge (n : Nat)
  deriving DecidableEq, Repr

def RenderError.text : RenderError → String
  | .tooLarge _ => "Failed to render configuration: out-of-range value for u64 type"

namespace Settings

def renderNat (key : String) (n : Nat) : Except RenderError String :=
  if fitsInt64 n then .ok s!"{key} = {n}\n" else .error (.tooLarge n)

/-- the document; a missing seed is left out -/
def render (s : Settings) : Except RenderError String := do
  let seed ← match s.seed? with
    | some n => renderNat "rng_seed" n
    | none => .ok ""
  let maxTicks ← renderNat "max_ticks" s.maxTicks
  let workTicks ← renderNat "work_ticks" s.workTicks
  return "[scheduler]\n" ++ s!"failure_priority_penalty = {s.failurePenalty.toInt}\n"
    ++ "\n[simulation]\n" ++ seed ++ maxTicks ++ workTicks
    ++ "\n[logging]\n" ++ s!"filter = {Toml.quoted s.logFilter}\n"

end Settings

end Errand
