/-
Invocations: what a command line asks for.

Options stand anywhere behind the subcommand that has them; the settings file may also be named before it. A value is
the next argument or is attached to its option. An argument that begins with a dash is an option, but for a dash alone
and for all that follows two of them.
-/
import Errand.Decimal.Reader

namespace Errand

/-- why a command line cannot be carried out -/
inductive UsageError where
  /-- it is not one -/
  | malformed
  /-- it asks how command lines are written -/
  | help
  deriving DecidableEq, Repr

inductive Argument where
  | word (s : String)
  /-- what follows are words only -/
  | ending
  | long (name : String) (value? : Option String)
  | short (name : Char) (attached : List Char)
  deriving DecidableEq, Repr

namespace Argument

/-- takes the characters of an argument apart -/
def ofChars : List Char → Argument
  | ['-', '-'] => .ending
  | '-' :: '-' :: cs =>
    let (name, rest) := cs.span (· ≠ '=')
    .long (String.ofList name) (if rest.isEmpty then none else some (String.ofList rest.tail))
  | '-' :: c :: cs => .short c cs
  | cs => .word (String.ofList cs)

def ofString (s : String) : Argument := ofChars s.toList

/-- the argument can be the value of the option before it -/
def isWord : Argument → Bool
  | .word _ => true
  | _ => false

end Argument

inductive Flag where
  | config
  | ticks
  | seed
  deriving DecidableEq, Repr

namespace Flag

def ofName? (name : String) : Option Flag :=
  if name = "config" then some .config
  else if name = "ticks" then some .ticks
  else if name = "seed" then some .seed
  else none

def ofLetter? (c : Char) : Option Flag := if c = 't' then some .ticks else none

end Flag

/-- what has been read of a command line -/
structure Gathered where
  config? : Option String := none
  ticks? : Option Nat := none
  seed? : Option Nat := none
  words : List String := []
  deriving DecidableEq, Repr

namespace Gathered

/-- gives an option its value, which it has once only -/
def set? (g : Gathered) (value : String) : Flag → Option Gathered
  | .config => if g.config?.isSome then none else some { g with config? := some value }
  | .ticks => if g.ticks?.isSome then none else (Decimal.word? value).map fun n => { g with ticks? := some n }
  | .seed => if g.seed?.isSome then none else (Decimal.word? value).map fun n => { g with seed? := some n }

end Gathered

/-- what a subcommand takes: its options, and how many words -/
structure Grammar where
  flags : List Flag
  words : Nat
  deriving DecidableEq, Repr

namespace Grammar

def flag? (gr : Grammar) (found : Option Flag) : Option Flag := found.filter gr.flags.contains

/-- one more word, which is never empty -/
def takeWord (gr : Grammar) (g : Gathered) (s : String) : Except UsageError Gathered :=
  if g.words.length < gr.words && !s.isEmpty then .ok { g with words := g.words ++ [s] } else .error .malformed

def takeFlag (gr : Grammar) (g : Gathered) (found : Option Flag) (value : String) : Except UsageError Gathered :=
  match gr.flag? found >>= g.set? value with
  | some g => .ok g
  | none => .error .malformed

/-- the value that is attached to an option with one letter; an equals sign may stand between -/
def attachedValue : List Char → String
  | '=' :: cs => String.ofList cs
  | cs => String.ofList cs

def read (gr : Grammar) (g : Gathered) : List String → Except UsageError Gathered
  | [] => .ok g
  | arg :: rest =>
    let next (found : Option Flag) : Except UsageError Gathered :=
      match rest with
      | value :: rest =>
        if (Argument.ofString value).isWord then do gr.read (← gr.takeFlag g found value) rest
        else .error .malformed
      | [] => .error .malformed
    match Argument.ofString arg with
    | .ending => rest.foldlM gr.takeWord g
    | .word s => do gr.read (← gr.takeWord g s) rest
    | .long "help" none | .short 'h' _ => .error .help
    | .long name none => next (Flag.ofName? name)
    | .long name (some value) => do gr.read (← gr.takeFlag g (Flag.ofName? name) value) rest
    | .short c [] => next (Flag.ofLetter? c)
    | .short c cs => do gr.read (← gr.takeFlag g (Flag.ofLetter? c) (attachedValue cs)) rest

end Grammar

inductive Subcommand where
  /-- runs a scenario; the options go before the settings -/
  | run (scenario : String) (ticks? seed? : Option Nat)
  /-- reports what is wrong with the tasks of a scenario -/
  | check (scenario : String)
  /-- shows the settings -/
  | config
  deriving DecidableEq, Repr

/-- a command line that has been read -/
structure Invocation where
  subcommand : Subcommand
  /-- the settings file, if one is named -/
  config? : Option String := none
  deriving DecidableEq, Repr

namespace Invocation

/-- subcommands by name, with what they take -/
def grammar? (name : String) : Option Grammar :=
  if name = "run" then some ⟨[.config, .ticks, .seed], 1⟩
  else if name = "check" then some ⟨[.config], 1⟩
  else if name = "config" then some ⟨[.config], 0⟩
  else none

def subcommand? (name : String) (g : Gathered) : Option Subcommand :=
  match name, g.words with
  | "run", [scenario] => some (.run scenario g.ticks? g.seed?)
  | "check", [scenario] => some (.check scenario)
  | "config", [] => some .config
  | _, _ => none

/-- help can be asked for on any one subcommand, and on help itself -/
def helpOn : List String → UsageError
  | [] => .help
  | [name] => if name = "help" || (grammar? name).isSome then .help else .malformed
  | _ => .malformed

/-- reads what follows the name of a subcommand; a settings file that is named here goes before one named earlier -/
def parseRest (config? : Option String) (name : String) (rest : List String) : Except UsageError Invocation := do
  if name = "help" then
    throw (helpOn rest)
  let some grammar := grammar? name | throw .malformed
  let g ← grammar.read {} rest
  let some subcommand := subcommand? name g | throw .malformed
  return { subcommand, config? := g.config? <|> config? }

/-- reads a command line of which a settings file may have been read -/
def parseFrom (config? : Option String) : List String → Except UsageError Invocation
  | [] => .error .malformed
  | arg :: rest =>
    match Argument.ofString arg with
    | .word name => parseRest config? name rest
    | .long "help" none | .short 'h' _ => .error .help
    | .long "config" (some value) => if config?.isSome then .error .malformed else parseFrom (some value) rest
    | .long "config" none =>
      match rest with
      | value :: rest =>
        if config?.isSome || !(Argument.ofString value).isWord then .error .malformed else parseFrom (some value) rest
      | [] => .error .malformed
    | _ => .error .malformed

/-- reads a command line, without the name of the program -/
def parse (args : List String) : Except UsageError Invocation := parseFrom none args

end Invocation

end Errand
