/-
Logged hosts: any host together with the calls made on it.

With the log, "no call" and "one poll and nothing else" are facts about a list, whatever the host makes of its calls:
calls made one after the other (`HostCall.on`) are the calls that the log has gained (`calls_foldl_on`).
-/
import Errand.Host

namespace Errand

inductive HostCall where
  | command (unit : UnitId) (c : Command)
  | abort (unit : UnitId)
  | poll (unit : UnitId)
  deriving DecidableEq, Repr

/-- a host and the calls made on it, the latest last -/
structure Logged (σ : Type) where
  host : σ
  calls : List HostCall := []

instance {σ : Type} [Host σ] : Host (Logged σ) where
  world l := Host.world l.host
  command u c l := { host := Host.command u c l.host, calls := l.calls ++ [.command u c] }
  abort u l := { host := Host.abort u l.host, calls := l.calls ++ [.abort u] }
  poll u l :=
    let (status, host) := Host.poll u l.host
    (status, { host, calls := l.calls ++ [.poll u] })

/-- makes the call, and forgets what it answers -/
def HostCall.on {σ : Type} [Host σ] (call : HostCall) (host : σ) : σ :=
  match call with
  | .command u c => Host.command u c host
  | .abort u => Host.abort u host
  | .poll u => (Host.poll u host).2

theorem Logged.calls_foldl_on {σ : Type} [Host σ] (calls : List HostCall) (l : Logged σ) :
    (calls.foldl (fun host call => call.on host) l).calls = l.calls ++ calls := by
  induction calls generalizing l with
  | nil => simp
  | cons call rest ih =>
    have hon : (call.on l).calls = l.calls ++ [call] := by cases call <;> rfl
    rw [List.foldl_cons, ih, hon, List.append_assoc, List.singleton_append]

end Errand
