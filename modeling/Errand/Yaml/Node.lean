/-
Nodes of YAML documents, and the data that they stand for.

A plain scalar is a truth value, a number or nothing if it is written like one, and its tag may ask for one of these; any
other scalar is text. An anchor names the node behind it for the rest of the document.
-/
import Errand.Datum
import Errand.Decimal.Reader
import Errand.Yaml.Token

namespace Errand.Yaml

/-! ## Scalars -/

inductive Node where
  /-- a value of another kind than its tag asks for; it is nothing, and no key -/
  | misfit
  | datum (d : Datum)
  deriving Inhabited

def Node.toDatum : Node → Datum
  | .misfit => .nothing
  | .datum d => d

def integer? (base : Nat) (cs : List Char) : Option Datum := do
  let n : Int ← match cs with
    | '-' :: cs => (Text.number? base cs).map fun n => -(n : Int)
    | '+' :: cs => (Text.number? base cs).map fun n => (n : Int)
    | cs => (Text.number? base cs).map fun n => (n : Int)
  return .int (← toInt64? n).toInt

def floatWords : List String :=
  [".inf", ".Inf", ".INF", "+.inf", "+.Inf", "+.INF", "-.inf", "-.Inf", "-.INF", ".nan", ".NAN"]

/-- an integer with a mark for its base, or with a plus sign before its own -/
def marked? : List Char → Option Datum
  | '0' :: 'x' :: cs => integer? 16 cs
  | '0' :: 'o' :: cs => integer? 8 cs
  | '+' :: cs => integer? 10 cs
  | _ => none

/-- a plain scalar without a tag; the words for floats are no data -/
def untagged? (s : String) : Option Node :=
  match marked? s.toList with
  | some d => some (.datum d)
  | none =>
    if s = "" || s = "~" || s = "null" then some (.datum .nothing)
    else if s = "true" then some (.datum (.bool true))
    else if s = "false" then some (.datum (.bool false))
    else if floatWords.contains s then none
    else match integer? 10 s.toList with
      | some d => some (.datum d)
      | none =>
        match Decimal.float? s with
        | some x => some (.datum (.real x))
        | none => some (.datum (.text s))

/-- a plain scalar of a kind that its tag asks for -/
def ofKind? (kind s : String) : Option Node :=
  match kind with
  | "bool" => some (if s = "true" then .datum (.bool true) else if s = "false" then .datum (.bool false) else .misfit)
  | "int" => some ((integer? 10 s.toList).elim .misfit .datum)
  | "float" => if floatWords.contains s then none else some ((Decimal.float? s).elim .misfit fun x => .datum (.real x))
  | "null" => some (if s = "~" || s = "null" then .datum .nothing else .misfit)
  | _ => some (.datum (.text s))

/-- what the tags of the usual kinds begin with -/
def usual : String := "tag:yaml.org,2002:"

def scalar? (plain : Bool) (tag? : Option (String × String)) (s : String) : Option Node :=
  if !plain then some (.datum (.text s)) else
  match tag? with
  | none => untagged? s
  | some (family, kind) => if family = usual then ofKind? kind s else some (.datum (.text s))

/-! ## Mappings -/

/-- the keys are the same; only text and integers are keys -/
def sameKey : Datum → Datum → Bool
  | .text s, .text t => s = t
  | .int m, .int n => m = n
  | _, _ => false

def keyName? : Datum → Option String
  | .text s => some s
  | .int n => some (toString n)
  | _ => none

/-- the entries of a mapping from its nodes in a row, behind those that are known and a key; no key comes twice -/
def entries? : Option Datum → List (Datum × Datum) → List Node → Option (List (Datum × Datum))
  | _, es, [] => some es
  | none, es, .misfit :: rest => entries? none es rest
  | none, es, .datum k :: rest => entries? (some k) es rest
  | some k, es, n :: rest =>
    if (keyName? k).isNone || es.any fun e => sameKey k e.1 then none
    else entries? none (es ++ [(k, n.toDatum)]) rest

/-- the table of a mapping; of keys with one name the last counts -/
def table? (nodes : List Node) : Option Datum := do
  let es ← entries? none [] nodes
  let named ← es.mapM fun e => (keyName? e.1).map (·, e.2)
  return .table (named.foldl (fun es e => Datum.put e.1 e.2 es) [])

/-! ## Nodes -/

/-- what is known in the course of a document -/
structure Reading where
  tokens : List Token
  /-- the handle that the last directive has given a meaning -/
  handle? : Option (String × String) := none
  /-- anchors by name, the newest first -/
  anchors : List (String × Nat) := []
  /-- the nodes that anchors are for -/
  nodes : List (Nat × Node) := []

namespace Reading

def head (r : Reading) : Token := r.tokens.headD .streamEnd

def next (r : Reading) : Reading := { r with tokens := r.tokens.tail }

def meaning? (r : Reading) (handle : String) : Option String :=
  r.handle?.bind fun h => if h.1 = handle then some h.2 else none

/-- family and kind that a tag asks for -/
def resolve? (r : Reading) (handle suffix : String) : Option (String × String) :=
  match r.meaning? handle with
  | some family => some (family, suffix)
  | none =>
    if handle = "!!" then some (usual, suffix)
    else if handle.length ≥ 2 then none
    else some (handle, suffix)

/-- an anchor at the start of a node; it is numbered -/
def takeAnchor (r : Reading) : Option Nat × Reading :=
  match r.tokens with
  | .anchor name :: rest =>
    let n := r.anchors.length
    (some n, { r with tokens := rest, anchors := (name, n) :: r.anchors })
  | _ => (none, r)

def takeTag? (r : Reading) : Option (Option (String × String) × Reading) :=
  match r.tokens with
  | .tag handle suffix :: rest => (r.resolve? handle suffix).map fun t => (some t, { r with tokens := rest })
  | _ => some (none, r)

def keep (r : Reading) (anchor? : Option Nat) (n : Node) : Reading :=
  match anchor? with
  | some i => { r with nodes := (i, n) :: r.nodes }
  | none => r

end Reading

/-- nothing, where a node has been left out -/
def missing : Node := .datum .nothing

mutual

/-- a node; `block` allows block collections, `bare` a sequence that is not indented -/
def node? : Nat → Bool → Bool → Reading → Option (Node × Reading)
  | 0, _, _, _ => none
  | fuel + 1, block, bare, r => do
    if let .reference name := r.head then
      let i ← r.anchors.lookup name
      return ((r.nodes.lookup i).getD .misfit, r.next)
    let (early?, r) := r.takeAnchor
    let (tag?, r) ← r.takeTag?
    let (late?, r) := if early?.isNone && tag?.isSome then r.takeAnchor else (none, r)
    let anchor? := early? <|> late?
    let (n, r) ← content? fuel block bare tag? anchor?.isSome r
    return (n, r.keep anchor? n)

/-- a node without its properties; behind these it may be left out -/
def content? : Nat → Bool → Bool → Option (String × String) → Bool → Reading → Option (Node × Reading)
  | 0, _, _, _, _, _ => none
  | fuel + 1, block, bare, tag?, anchored, r => do
    let list (found : List Node × Reading) : Node × Reading := (.datum (.list (found.1.map Node.toDatum)), found.2)
    let table (found : List Node × Reading) : Option (Node × Reading) := do return (.datum (← table? found.1), found.2)
    match r.head, block, bare with
    | .blockEntry, _, true => (bareItems? fuel r).map list
    | .scalar plain s, _, _ => return (← scalar? plain tag? s, r.next)
    | .flowSequenceStart, _, _ => (flowItems? fuel true r.next).map list
    | .flowMappingStart, _, _ => flowPairs? fuel true r.next >>= table
    | .sequenceStart, true, _ => (blockItems? fuel r.next).map list
    | .mappingStart, true, _ => blockPairs? fuel r.next >>= table
    | _, _, _ => if tag?.isSome || anchored then return (← scalar? true tag? "", r) else none

/-- a node, unless one of some tokens stands in its place -/
def nodeOr? : Nat → Bool → Bool → List Token → Reading → Option (Node × Reading)
  | 0, _, _, _, _ => none
  | fuel + 1, block, bare, stops, r =>
    if stops.contains r.head then some (missing, r) else node? fuel block bare r

def blockItems? : Nat → Reading → Option (List Node × Reading)
  | 0, _ => none
  | fuel + 1, r => do
    match r.head with
    | .blockEnd => return ([], r.next)
    | .blockEntry =>
      let (n, r) ← nodeOr? fuel true false [.blockEntry, .blockEnd] r.next
      let (more, r) ← blockItems? fuel r
      return (n :: more, r)
    | _ => none

/-- the items of a block sequence that is not indented -/
def bareItems? : Nat → Reading → Option (List Node × Reading)
  | 0, _ => none
  | fuel + 1, r => do
    match r.head with
    | .blockEntry =>
      let (n, r) ← nodeOr? fuel true false [.blockEntry, .key, .value, .blockEnd] r.next
      let (more, r) ← bareItems? fuel r
      return (n :: more, r)
    | _ => return ([], r)

/-- keys and values of a block mapping up to its end -/
def blockPairs? : Nat → Reading → Option (List Node × Reading)
  | 0, _ => none
  | fuel + 1, r => do
    let stops : List Token := [.key, .value, .blockEnd]
    if r.head = .blockEnd then return ([], r.next)
    let (k, r) ← match r.head with
      | .key => nodeOr? fuel true true stops r.next
      | .value => some (missing, r)
      | _ => none
    let (v, r) ← match r.head with
      | .value => nodeOr? fuel true true stops r.next
      | _ => some (missing, r)
    let (more, r) ← blockPairs? fuel r
    return (k :: v :: more, r)

/-- the items of a flow sequence up to its end; a comma may follow the last -/
def flowItems? : Nat → Bool → Reading → Option (List Node × Reading)
  | 0, _, _ => none
  | fuel + 1, first, r => do
    if r.head = .flowSequenceEnd then return ([], r.next)
    let r ← if first then some r else if r.head = .flowEntry then some r.next else none
    match r.head with
    | .flowSequenceEnd => return ([], r.next)
    | .key =>
      let (n, r) ← flowPair? fuel r.next
      let (more, r) ← flowItems? fuel false r
      return (n :: more, r)
    | _ =>
      let (n, r) ← node? fuel false false r
      let (more, r) ← flowItems? fuel false r
      return (n :: more, r)

/-- a mapping of one pair in a flow sequence, without braces -/
def flowPair? : Nat → Reading → Option (Node × Reading)
  | 0, _ => none
  | fuel + 1, r => do
    let (k, r) ←
      if r.head = .flowEntry || r.head = .flowSequenceEnd || r.head = .value then some (missing, r.next)
      else node? fuel false false r
    let (v, r) ← match r.head with
      | .value => nodeOr? fuel false false [.flowEntry, .flowSequenceEnd] r.next
      | _ => some (missing, r)
    return (.datum (← table? [k, v]), r)

/-- keys and values of a flow mapping up to its end; a comma may follow the last pair, and values may be left out -/
def flowPairs? : Nat → Bool → Reading → Option (List Node × Reading)
  | 0, _, _ => none
  | fuel + 1, first, r => do
    if r.head = .flowMappingEnd then return ([], r.next)
    let r ← if first then some r else if r.head = .flowEntry then some r.next else none
    let value? (r : Reading) : Option (Node × Reading) :=
      match r.head with
      | .value => nodeOr? fuel false false [.flowEntry, .flowMappingEnd] r.next
      | _ => some (missing, r)
    match r.head with
    | .flowMappingEnd => return ([], r.next)
    | .key =>
      let (k, r) ← nodeOr? fuel false false [.value, .flowEntry, .flowMappingEnd] r.next
      let (v, r) ← value? r
      let (more, r) ← flowPairs? fuel false r
      return (k :: v :: more, r)
    | .value =>
      let (v, r) ← value? r
      let (more, r) ← flowPairs? fuel false r
      return (missing :: v :: more, r)
    | _ =>
      let (k, r) ← node? fuel false false r
      let (more, r) ← flowPairs? fuel false r
      return (k :: missing :: more, r)

end

/-! ## Documents -/

/-- passes directives; there is one version at most, and of handles only the last keeps its meaning -/
def directives? (version : Bool) (handle? : Option (String × String)) :
    List Token → Option (Option (String × String) × List Token)
  | .version :: rest => if version then none else directives? true none rest
  | .handle name meaning :: rest => directives? version (some (name, meaning)) rest
  | rest => some (handle?, rest)

def document? (tokens : List Token) : Option Node := do
  let (handle?, rest) ← directives? false none tokens
  let explicit := rest.head? = some .documentStart
  if rest.length < tokens.length && !explicit then none
  let tokens := if explicit then rest.tail else rest
  let (n, r) ← node? (4 * tokens.length + 4) true false { tokens, handle? }
  if r.tokens.dropWhile (· = .documentEnd) = [.streamEnd] then some n else none

/-- the datum that a text writes; without a document it is an empty table -/
def parse? (text : String) : Option Datum := do
  let tokens := (← Token.ofText? text).dropWhile (· = .documentEnd)
  if tokens = [.streamEnd] then return .table []
  return (← document? tokens).toDatum

end Errand.Yaml
