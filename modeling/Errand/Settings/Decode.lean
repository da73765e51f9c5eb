/-
Settings read from data.

A setting takes any scalar that can be made into its type: text that writes an integer, a truth value as one or zero, a
float as the nearest integer. Keys that no setting has are passed over.
-/
import Errand.Datum
import Errand.Decimal.Reader
import Errand.Settings

namespace Errand

namespace Datum

/-- the truth value that a word stands for -/
def ofSwitch? (s : String) : Option Bool :=
  match String.ofList (s.toList.map Char.toLower) with
  | "true" | "on" | "yes" => some true
  | "false" | "off" | "no" => some false
  | _ => none

/-- an integer of 64 bits; what a float exceeds is cut off -/
def int64? : Datum → Option Int64
  | .bool b => some (if b then 1 else 0)
  | .int n => toInt64? n
  | .real x => some x.round.toInt64
  | .text s => ((ofSwitch? s).map fun b => if b then 1 else 0) <|> Decimal.int64? s
  | .nothing | .list _ | .table _ => none

/-- a natural number of 64 bits; what a float exceeds is cut off -/
def word? : Datum → Option Nat
  | .bool b => some b.toNat
  | .int n => toWord? n
  | .real x => some x.round.toUInt64.toNat
  | .text s => (ofSwitch? s).map Bool.toNat <|> Decimal.word? s
  | .nothing | .list _ | .table _ => none

/-- text, or a scalar as it is written -/
def text? : Datum → Option String
  | .bool b => some (toString b)
  | .int n => some (toString n)
  | .real x => some (Decimal.text x)
  | .text s => some s
  | .nothing | .list _ | .table _ => none

/-- nothing, or what a reader finds -/
def option? {α : Type} (read : Datum → Option α) : Datum → Option (Option α)
  | .nothing => some none
  | d => (read d).map some

/-- the values of a section by their names, or in order if it is a list -/
def section? (names : List String) : Datum → Option (List (Option Datum))
  | .table entries => some (names.map fun n => entries.lookup n)
  | .list items => some (names.zipIdx.map fun ni => items[ni.2]?)
  | _ => none

/-- what a reader finds, or the fallback where nothing is given -/
def orElse {α : Type} (read : Datum → Option α) (fallback : α) : Option Datum → Option α
  | none => some fallback
  | some d => read d

end Datum

namespace Settings

open Datum (orElse)

def withScheduler? (s : Settings) (d : Datum) : Option Settings := do
  let [penalty] ← d.section? ["failure_priority_penalty"] | none
  return { s with failurePenalty := ← orElse Datum.int64? s.failurePenalty penalty }

def withSimulation? (s : Settings) (d : Datum) : Option Settings := do
  let [seed, maxTicks, workTicks] ← d.section? ["rng_seed", "max_ticks", "work_ticks"] | none
  let workTicks ← orElse Datum.word? s.workTicks workTicks
  guard (workTicks < UInt32.size)
  return { s with
    seed? := ← orElse (Datum.option? Datum.word?) s.seed? seed
    maxTicks := ← orElse Datum.word? s.maxTicks maxTicks
    workTicks }

def withLogging? (s : Settings) (d : Datum) : Option Settings := do
  let [filter] ← d.section? ["filter"] | none
  return { s with logFilter := ← orElse Datum.text? s.logFilter filter }

/-- the settings that data hold, with defaults for what is missing -/
def ofDatum? (d : Datum) : Option Settings := do
  let s : Settings := {}
  let s ← orElse s.withScheduler? s (d.get? "scheduler")
  let s ← orElse s.withSimulation? s (d.get? "simulation")
  orElse s.withLogging? s (d.get? "logging")

end Settings

end Errand
