/-
Outcomes: what an invocation prints and whether it fails.

A run advances the sandbox after each tick until every task is completed or the limit is reached. What the tasks print in
a tick comes before the report on it.
-/
import Errand.Form.Scenario
import Errand.Invocation
import Errand.Lottery
import Errand.Settings.Load
import Errand.Settings.Render
import Errand.Tick

namespace Errand

structure Outcome where
  /-- what is printed -/
  output : String := ""
  /-- why the invocation failed -/
  failure? : Option String := none
  deriving DecidableEq, Repr

namespace Outcome

def success (output : String) : Outcome := { output }

def failure (cause : String) : Outcome := { failure? := some cause }

end Outcome

/-- why a scenario cannot be had from a file -/
inductive ScenarioError where
  | unreadable (path : String) (cause : ReadError)
  | invalid (path : String)
  deriving DecidableEq, Repr

/-- an error with its causes, the outermost first -/
def ScenarioError.text : ScenarioError → String
  | .unreadable path cause => s!"Failed to read scenario {path}: {cause.text}"
  | .invalid path => s!"In scenario {path}: Invalid scenario"

def Scenario.load {m : Type → Type} [Monad m] [Files m] (path : String) : m (Except ScenarioError Scenario) := do
  match ← Files.read path with
  | .error cause => return .error (.unreadable path cause)
  | .ok text =>
    match Scenario.parse? text with
    | none => return .error (.invalid path)
    | some s => return .ok s

/-! ## Checking -/

/-- what is wrong with the tasks of an order; they share a script, so the first stands for all -/
def Order.problems (o : Order) : List Problem := ((o.template.instantiate o.selections).head?.map Task.problems).getD []

/-- the report on an order, which passes over an order without tasks -/
def Order.report (o : Order) : String :=
  match (o.template.instantiate o.selections).head? with
  | none => ""
  | some t =>
    let problems := t.problems
    if problems.isEmpty then s!"✓ {o.template.name}\n"
    else s!"✗ {o.template.name}\n" ++ String.join (problems.map fun p => s!"    {p.text}\n")

def Scenario.check (s : Scenario) : Outcome :=
  let count := (s.orders.flatMap Order.problems).length
  { output := String.join (s.orders.map Order.report)
    failure? := if count = 0 then none else some s!"{count} well-formedness problem(s) found" }

/-! ## Running -/

/-- a scenario under way -/
structure Playing (ρ : Type) where
  app : Application ρ
  sandbox : Sandbox
  output : String := ""
  completed : Nat := 0
  ticks : Nat := 0

/-- a run that is cut short, since there is no task to name -/
structure Cut where
  /-- what was printed before -/
  output : String
  cause : SchedulerError

namespace Playing

variable {ρ : Type}

/-- what one tick of a run prints: what the tasks printed, then what was reported -/
def lines (p : Playing ρ) (printed : List Printed) (r : Report) : List (Except SchedulerError String) :=
  printed.map (fun x => .ok s!"[{x.task}] {x.value.text}\n")
    ++ r.assigned.map (fun a => (p.app.name a.2).map fun n => s!"tick {p.ticks}: {a.1.text} claimed '{n}'\n")
    ++ r.completed.map (fun t => (p.app.name t).map fun n => s!"tick {p.ticks}: '{n}' completed\n")
    ++ r.failed.map (fun t => (p.app.name t).map fun n => s!"tick {p.ticks}: '{n}' failed\n")
    ++ r.errors.map (fun e => (p.app.name e.1).map fun n => s!"  {n}: {e.2.text}\n")

/-- prints line after line, up to the first that cannot be had -/
def print (output : String) : List (Except SchedulerError String) → Except Cut String
  | [] => .ok output
  | .ok line :: rest => print (output ++ line) rest
  | .error cause :: _ => .error { output, cause }

variable [Picker ρ]

/-- one tick, and the sandbox moved on -/
def step (p : Playing ρ) : Except Cut (Playing ρ) := do
  let r := p.app.tick p.sandbox []
  let next := { p with app := r.app, ticks := p.ticks + 1 }
  let output ← print p.output (next.lines r.output r.report)
  return { next with sandbox := r.host.advance, output, completed := p.completed + r.report.completed.length }

/-- steps until as many tasks as given are completed, up to a limit -/
def run (count : Nat) : Nat → Playing ρ → Except Cut (Playing ρ)
  | 0, p => .ok p
  | limit + 1, p => if p.completed < count then do run count limit (← p.step) else .ok p

end Playing

def Scenario.run {ρ : Type} [Picker ρ] (s : Scenario) (settings : Settings) (picker : ρ) (limit : Nat) :
    Except SetupError Outcome := do
  let (app, sandbox, ids) ← s.setup settings picker
  match Playing.run ids.length limit { app, sandbox } with
  | .error cut => return { output := cut.output, failure? := some cut.cause.text }
  | .ok p => return .success s!"{p.output}\n{p.completed} of {ids.length} tasks completed after {p.ticks} ticks\n"

/-! ## Invocations -/

namespace Invocation

variable {m : Type → Type} [Monad m] [Files m]

/-- carries out a subcommand under settings; `entropy` stands in for a seed where none is set -/
def carryOut (settings : Settings) (entropy : Nat) : Subcommand → m Outcome
  | .run path ticks? seed? => do
    match ← Scenario.load path with
    | .error e => return .failure e.text
    | .ok s =>
      let settings := { settings with seed? := seed? <|> settings.seed? }
      let picker := Lottery.ofSeed (settings.seed?.getD entropy)
      match s.run settings picker (ticks?.getD settings.maxTicks) with
      | .error e => return .failure s!"Failed to set up {path}: {e.text}"
      | .ok outcome => return outcome
  | .check path => do
    match ← Scenario.load path with
    | .error e => return .failure e.text
    | .ok s => return s.check
  | .config =>
    match settings.render with
    | .error e => return .failure e.text
    | .ok output => return .success output

/-- loads the settings and carries out the subcommand -/
def run (i : Invocation) (e : Environment) (entropy : Nat) : m Outcome := do
  let e := match i.config? with
    | some path => e.set Settings.pathVariable path
    | none => e
  match ← Settings.load e with
  | .error cause => return .failure cause.text
  | .ok settings => carryOut settings entropy i.subcommand

end Invocation

end Errand
