/-
JSON form of the settings: one object for each of the three sections, every key with a default.
-/
import Errand.Form.Values
import Errand.Settings

namespace Errand.Settings

open Json (fields? orElse)

def toJson (s : Settings) : Json :=
  .obj [
    ("scheduler", .obj [("failure_priority_penalty", .int s.failurePenalty.toInt)]),
    ("simulation", .obj [
      ("rng_seed", .ofOption (fun n : Nat => .int n) s.seed?),
      ("max_ticks", .int s.maxTicks),
      ("work_ticks", .int s.workTicks)]),
    ("logging", .obj [("filter", .str s.logFilter)])]

def readScheduler? (s : Settings) (j : Json) : Option Settings := do
  let [penalty] ← fields? ["failure_priority_penalty"] j | none
  return { s with failurePenalty := ← orElse Json.int64? s.failurePenalty penalty }

def readSimulation? (s : Settings) (j : Json) : Option Settings := do
  let [seed, maxTicks, workTicks] ← fields? ["rng_seed", "max_ticks", "work_ticks"] j | none
  return { s with
    seed? := ← orElse (Json.option? Json.word?) s.seed? seed
    maxTicks := ← orElse Json.word? s.maxTicks maxTicks
    workTicks := ← orElse (Json.natBelow? UInt32.size) s.workTicks workTicks }

def readLogging? (s : Settings) (j : Json) : Option Settings := do
  let [filter] ← fields? ["filter"] j | none
  return { s with logFilter := ← orElse Json.str? s.logFilter filter }

def ofJson? (j : Json) : Option Settings := do
  let [scheduler, simulation, logging] ← fields? ["scheduler", "simulation", "logging"] j | none
  let s : Settings := {}
  let s ← orElse s.readScheduler? s scheduler
  let s ← orElse s.readSimulation? s simulation
  orElse s.readLogging? s logging

end Errand.Settings
