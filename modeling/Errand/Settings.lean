/-
Settings: what can be configured, with the defaults.
-/
import Errand.Handle

namespace Errand

structure Settings where
  /-- taken from a task's priority each time it fails -/
  failurePenalty : Int64 := 0
  /-- starts the picker; without it the choice is not repeatable -/
  seed? : Option Nat := none
  /-- the longest run -/
  maxTicks : Nat := 1000
  /-- the length of one work action in the sandbox -/
  workTicks : Nat := 3
  /-- directive for the log -/
  logFilter : String := "taskforce_core=info"
  deriving DecidableEq, Repr, Inhabited

end Errand
