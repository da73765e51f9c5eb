/-
Pickers: where the choice among equally good candidates comes from.

A picker is asked for an index below a count that is never zero. Nothing forces it to stay below; whoever asks keeps the
answer in range.
-/

namespace Errand

/-- what indices are drawn from -/
class Picker (ρ : Type) where
  pick : Nat → ρ → Nat × ρ

/-- one of the candidates; an index beyond them means the last -/
def Picker.choose {ρ α : Type} [Picker ρ] (candidates : List α) : StateM ρ (Option α) := do
  if candidates.isEmpty then
    return none
  let i ← modifyGet (Picker.pick candidates.length)
  return candidates[min i (candidates.length - 1)]?

/-- replays given numbers, wrapped into range; after the last it picks the first candidate -/
structure Replay where
  picks : List Nat
  deriving DecidableEq, Repr, Inhabited

instance : Picker Replay where
  pick count r := (r.picks.headD 0 % count, ⟨r.picks.tail⟩)

end Errand
