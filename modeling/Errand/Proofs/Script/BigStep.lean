/-
A reference semantics of scripts: whole runs of statements, without states on the nodes.

`Runs fr s env o env'` says that `s`, executed from `env`, ends with `o` and leaves `env'`. Children run in order, a
conditional decides once, a loop tests before every iteration, a `leave` ends the innermost loop, an action evaluates
its target once, gives one command and asks for its status until it is over; the first failure or error ends everything.
The rules read the program of a tree only, never how far its nodes have come. A test always has a truth value or ends in
an error (`Env.test_cases`), and every target has a command (`ActionKind.command?_of_kind`), so no rule is missing.
-/
import Errand.Proofs.Script.Evaluation
import Errand.Proofs.Script.Program
import Errand.Script.Step

namespace Errand

/-! ## Required values -/

theorem Expr.kind_of_evalRequired {ρ : Type} [Picker ρ] (cx : Context) {k : Kind} (e : Expr) {v : Value} (p : ρ)
    (h : ((e.evalRequired cx k : Eval ρ Value).run p).1 = .ok v) : v.kind = k :=
  (value_of_evalRequired (Prod.ext h rfl)).2

theorem ActionKind.command?_of_kind {kind : ActionKind} {v : Value} (h : v.kind = kind.targetKind) :
    ∃ c, kind.command? v = some c := by
  cases kind <;> cases v <;> first | exact ⟨_, rfl⟩ | cases h

/-! ## The rules -/

/-- what a run reaches: variables, host, picker and output -/
structure Env (σ ρ : Type) where
  store : Store
  host : σ
  picker : ρ
  output : List Printed := []

inductive Ending where
  | done
  | failed
  /-- a `leave` ends everything up to its loop -/
  | left
  | error (e : EvalError)
  deriving DecidableEq, Repr

/-- the answer of a tree that comes to this end; a `leave` is a finished statement -/
def Ending.result : Ending → Except EvalError ExecState
  | .done | .left => .ok .done
  | .failed => .ok .failed
  | .error e => .error e

namespace Env

variable {σ ρ : Type} [Host σ] [Picker ρ]

def context (env : Env σ ρ) (fr : Frame) : Context :=
  { unit? := some fr.unit, store := env.store, selection := fr.selection, world := Host.world env.host }

/-- evaluates with the picker at hand and keeps the picker that is left -/
def evaluate {α : Type} (env : Env σ ρ) (e : Eval ρ α) : Except EvalError α × Env σ ρ :=
  let (r, picker) := e.run env.picker
  (r, { env with picker })

/-- evaluates a test, which must have a truth value -/
def test (env : Env σ ρ) (fr : Frame) (test : Expr) : Except EvalError Value × Env σ ρ :=
  env.evaluate (test.evalRequired (env.context fr) .boolean)

theorem test_cases (env : Env σ ρ) (fr : Frame) (test : Expr) :
    ∃ env', (∃ e, env.test fr test = (.error e, env')) ∨ ∃ b, env.test fr test = (.ok (.boolean b), env') := by
  rcases hx : env.test fr test with ⟨e | v, env'⟩
  · exact ⟨env', .inl ⟨e, rfl⟩⟩
  · have hk : v.kind = .boolean :=
      Expr.kind_of_evalRequired (env.context fr) test env.picker (congrArg Prod.fst hx)
    cases v with
    | boolean b => exact ⟨env', .inr ⟨b, rfl⟩⟩
    | position | unit => cases hk

end Env

variable {σ ρ : Type} [Host σ] [Picker ρ]

/-- asks for the status of an action until it is over -/
inductive Polls (u : UnitId) : σ → Ending → σ → Prop
  | completed {host host' : σ} (h : Host.poll u host = (.completed, host')) : Polls u host .done host'
  | failed {host host' : σ} (h : Host.poll u host = (.failed, host')) : Polls u host .failed host'
  | again {host host₁ host' : σ} {o : Ending} (h : Host.poll u host = (.inProgress, host₁))
      (hp : Polls u host₁ o host') : Polls u host o host'

inductive Runs (fr : Frame) : Stmt → Env σ ρ → Ending → Env σ ρ → Prop
  | sequenceNil {m : Mark} {i : Nat} {env : Env σ ρ} : Runs fr (.sequence m [] i) env .done env
  | sequenceNext {m : Mark} {i : Nat} {s : Stmt} {rest : List Stmt} {env env₁ env' : Env σ ρ} {o : Ending}
      (hs : Runs fr s env .done env₁) (hrest : Runs fr (.sequence m rest i) env₁ o env') :
      Runs fr (.sequence m (s :: rest) i) env o env'
  | sequenceStop {m : Mark} {i : Nat} {s : Stmt} {rest : List Stmt} {env env' : Env σ ρ} {o : Ending}
      (hs : Runs fr s env o env') (ho : o ≠ .done) : Runs fr (.sequence m (s :: rest) i) env o env'
  | conditionalError {m : Mark} {test : Expr} {thenS : Stmt} {elseS : Option Stmt} {chosen : Option Branch}
      {env env' : Env σ ρ} {e : EvalError} (ht : env.test fr test = (.error e, env')) :
      Runs fr (.conditional m test thenS elseS chosen) env (.error e) env'
  | conditionalTrue {m : Mark} {test : Expr} {thenS : Stmt} {elseS : Option Stmt} {chosen : Option Branch}
      {env env₁ env' : Env σ ρ} {o : Ending} (ht : env.test fr test = (.ok (.boolean true), env₁))
      (hs : Runs fr thenS env₁ o env') : Runs fr (.conditional m test thenS elseS chosen) env o env'
  | conditionalFalse {m : Mark} {test : Expr} {thenS elseS : Stmt} {chosen : Option Branch}
      {env env₁ env' : Env σ ρ} {o : Ending} (ht : env.test fr test = (.ok (.boolean false), env₁))
      (hs : Runs fr elseS env₁ o env') : Runs fr (.conditional m test thenS (some elseS) chosen) env o env'
  | conditionalNone {m : Mark} {test : Expr} {thenS : Stmt} {chosen : Option Branch} {env env' : Env σ ρ}
      (ht : env.test fr test = (.ok (.boolean false), env')) :
      Runs fr (.conditional m test thenS none chosen) env .done env'
  | loopError {m : Mark} {test : Expr} {body : Stmt} {env env' : Env σ ρ} {e : EvalError}
      (ht : env.test fr test = (.error e, env')) : Runs fr (.loop m test body) env (.error e) env'
  | loopEnd {m : Mark} {test : Expr} {body : Stmt} {env env' : Env σ ρ}
      (ht : env.test fr test = (.ok (.boolean false), env')) : Runs fr (.loop m test body) env .done env'
  | loopAgain {m : Mark} {test : Expr} {body : Stmt} {env env₁ env₂ env' : Env σ ρ} {o : Ending}
      (ht : env.test fr test = (.ok (.boolean true), env₁)) (hs : Runs fr body env₁ .done env₂)
      (hrest : Runs fr (.loop m test body) env₂ o env') : Runs fr (.loop m test body) env o env'
  | loopLeft {m : Mark} {test : Expr} {body : Stmt} {env env₁ env' : Env σ ρ}
      (ht : env.test fr test = (.ok (.boolean true), env₁)) (hs : Runs fr body env₁ .left env') :
      Runs fr (.loop m test body) env .done env'
  | loopStop {m : Mark} {test : Expr} {body : Stmt} {env env₁ env' : Env σ ρ} {o : Ending}
      (ht : env.test fr test = (.ok (.boolean true), env₁)) (hs : Runs fr body env₁ o env') (hd : o ≠ .done)
      (hl : o ≠ .left) : Runs fr (.loop m test body) env o env'
  | assignError {m : Mark} {name : String} {value : Expr} {env env' : Env σ ρ} {e : EvalError}
      (hv : env.evaluate (value.evalSome (env.context fr)) = (.error e, env')) :
      Runs fr (.assign m name value) env (.error e) env'
  | assign {m : Mark} {name : String} {value : Expr} {env env' : Env σ ρ} {v : Value}
      (hv : env.evaluate (value.evalSome (env.context fr)) = (.ok v, env')) :
      Runs fr (.assign m name value) env .done { env' with store := env'.store.set name v }
  | printError {m : Mark} {value : Expr} {env env' : Env σ ρ} {e : EvalError}
      (hv : env.evaluate (value.evalSome (env.context fr)) = (.error e, env')) :
      Runs fr (.print m value) env (.error e) env'
  | print {m : Mark} {value : Expr} {env env' : Env σ ρ} {v : Value}
      (hv : env.evaluate (value.evalSome (env.context fr)) = (.ok v, env')) :
      Runs fr (.print m value) env .done { env' with output := env'.output ++ [{ task := fr.task, value := v }] }
  | actionError {m : Mark} {kind : ActionKind} {target : Expr} {env env' : Env σ ρ} {e : EvalError}
      (hv : env.evaluate (target.evalRequired (env.context fr) kind.targetKind) = (.error e, env')) :
      Runs fr (.action m kind target) env (.error e) env'
  | action {m : Mark} {kind : ActionKind} {target : Expr} {env env₁ : Env σ ρ} {v : Value} {c : Command} {o : Ending}
      {host : σ} (hv : env.evaluate (target.evalRequired (env.context fr) kind.targetKind) = (.ok v, env₁))
      (hc : kind.command? v = some c) (hp : Polls fr.unit (Host.command fr.unit c env₁.host) o host) :
      Runs fr (.action m kind target) env o { env₁ with host }
  | leave {m : Mark} {env : Env σ ρ} : Runs fr (.leave m) env .left env

end Errand
