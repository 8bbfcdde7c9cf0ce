import Giro.Yaml.Token

/-
  Giro.Yaml.Node — the one document that a YAML text holds.

  Missing keys, values and entries are empty plain scalars, and so is a document without
  content. A text with a second document is refused.

  Whoever wants a document takes a `Reader` and does not ask how it goes about it. The one
  that is at hand (`reader`) knows block and flow collections, plain and quoted scalars and
  comments.
-/

namespace Giro.Yaml

inductive Node where
  /-- A text. `plain`: it may stand for a number, a truth value or nothing, as a text without
      quotes does. -/
  | scalar (text : String) (plain : Bool)
  | sequence (items : List Node)
  | mapping (pairs : List (Node × Node))

namespace Node

/-- What stands for something left out. -/
def empty : Node := .scalar "" true

/-- A sequence or a mapping in a block ends, or its next part begins. -/
def endsItem : Token → Bool
  | .blockEntry | .blockEnd => true
  | _ => false

def endsPart : Token → Bool
  | .key | .value | .blockEnd => true
  | _ => false

def endsFlowItem : Token → Bool
  | .flowEntry | .flowSequenceEnd => true
  | _ => false

def endsFlowPart : Token → Bool
  | .flowEntry | .flowMappingEnd => true
  | _ => false

mutual

/-- Reads one node. `block`: it may be a block. `bare`: it may be entries of a sequence
    that are not further in than the key they belong to. -/
def read : (fuel : Nat) → (block bare : Bool) → List Token → Option (Node × List Token)
  | 0, _, _, _ => none
  | _ + 1, _, _, [] => none
  | fuel + 1, block, bare, t :: ts =>
    match t with
    | .scalar text plain => some (.scalar text plain, ts)
    | .flowSequenceStart => (flowItems fuel true ts).map fun (items, ts) => (.sequence items, ts)
    | .flowMappingStart => (flowPairs fuel true ts).map fun (pairs, ts) => (.mapping pairs, ts)
    | .blockSequenceStart =>
      if block then (blockItems fuel ts).map fun (items, ts) => (.sequence items, ts) else none
    | .blockMappingStart =>
      if block then (blockPairs fuel ts).map fun (pairs, ts) => (.mapping pairs, ts) else none
    | .blockEntry =>
      if bare then (bareItems fuel (t :: ts)).map fun (items, ts) => (.sequence items, ts) else none
    | _ => none

/-- Reads one node, which is empty if a token that ends it comes first. -/
def readUnless (ends : Token → Bool) :
    (fuel : Nat) → (block bare : Bool) → List Token → Option (Node × List Token)
  | 0, _, _, _ => none
  | _ + 1, _, _, [] => none
  | fuel + 1, block, bare, t :: ts =>
    if ends t then some (empty, t :: ts) else read fuel block bare (t :: ts)

/-- The entries of a sequence in a block of its own. -/
def blockItems : (fuel : Nat) → List Token → Option (List Node × List Token)
  | fuel + 1, .blockEntry :: ts => do
    let (item, ts) ← readUnless endsItem fuel true false ts
    let (items, ts) ← blockItems fuel ts
    return (item :: items, ts)
  | _ + 1, .blockEnd :: ts => some ([], ts)
  | _, _ => none

/-- The entries of a sequence without a block of its own. -/
def bareItems : (fuel : Nat) → List Token → Option (List Node × List Token)
  | 0, _ => none
  | fuel + 1, .blockEntry :: ts => do
    let (item, ts) ← readUnless (fun t => endsItem t || endsPart t) fuel true false ts
    let (items, ts) ← bareItems fuel ts
    return (item :: items, ts)
  | _ + 1, ts => some ([], ts)

/-- The pairs of a mapping in a block. -/
def blockPairs : (fuel : Nat) → List Token → Option (List (Node × Node) × List Token)
  | fuel + 1, .key :: ts => do
    let (key, ts) ← readUnless endsPart fuel true true ts
    let (value, ts) ← blockValue fuel ts
    let (pairs, ts) ← blockPairs fuel ts
    return ((key, value) :: pairs, ts)
  | _ + 1, .blockEnd :: ts => some ([], ts)
  | _, _ => none

/-- The value after a key in a block. -/
def blockValue : (fuel : Nat) → List Token → Option (Node × List Token)
  | 0, _ => none
  | fuel + 1, .value :: ts => readUnless endsPart fuel true true ts
  | _ + 1, ts => some (empty, ts)

/-- The entries of a sequence in brackets; a pair without braces is a mapping of its own. -/
def flowItems : (fuel : Nat) → (first : Bool) → List Token → Option (List Node × List Token)
  | _ + 1, _, .flowSequenceEnd :: ts => some ([], ts)
  | fuel + 1, first, ts => do
    let ts ← if first then some ts else match ts with
      | .flowEntry :: ts => some ts
      | _ => none
    match ts with
    | .flowSequenceEnd :: ts => return ([], ts)
    | .key :: ts =>
      let (key, ts) ← flowItemKey fuel ts
      let (value, ts) ← flowValue endsFlowItem fuel ts
      let (items, ts) ← flowItems fuel false ts
      return (.mapping [(key, value)] :: items, ts)
    | ts =>
      let (item, ts) ← read fuel false false ts
      let (items, ts) ← flowItems fuel false ts
      return (item :: items, ts)
  | 0, _, _ => none

/-- The key of a pair without braces. A token that ends the key or the entry stands for an
    empty key and is used up, so that `?` takes a comma or a bracket with it. -/
def flowItemKey : (fuel : Nat) → List Token → Option (Node × List Token)
  | fuel + 1, t :: ts =>
    if endsFlowItem t || t == .value then some (empty, ts) else read fuel false false (t :: ts)
  | _, _ => none

/-- The pairs of a mapping in braces; a node that is no key has an empty value. -/
def flowPairs : (fuel : Nat) → (first : Bool) → List Token → Option (List (Node × Node) × List Token)
  | _ + 1, _, .flowMappingEnd :: ts => some ([], ts)
  | fuel + 1, first, ts => do
    let ts ← if first then some ts else match ts with
      | .flowEntry :: ts => some ts
      | _ => none
    match ts with
    | .flowMappingEnd :: ts => return ([], ts)
    | .key :: ts =>
      let (key, ts) ← readUnless (fun t => endsFlowPart t || t == .value) fuel false false ts
      let (value, ts) ← flowValue endsFlowPart fuel ts
      let (pairs, ts) ← flowPairs fuel false ts
      return ((key, value) :: pairs, ts)
    | ts =>
      let (key, ts) ← read fuel false false ts
      let (pairs, ts) ← flowPairs fuel false ts
      return ((key, empty) :: pairs, ts)
  | 0, _, _ => none

/-- The value after a key in brackets. -/
def flowValue (ends : Token → Bool) : (fuel : Nat) → List Token → Option (Node × List Token)
  | 0, _ => none
  | fuel + 1, .value :: ts => readUnless ends fuel false false ts
  | _ + 1, ts => some (empty, ts)

end

/-- The content of a document that `---` opened or nothing did. -/
def content (ts : List Token) : Option (Node × List Token) :=
  let fuel := 4 * (ts.length + 1)
  match ts with
  | [] => some (empty, [])
  | .documentStart :: ts =>
    match ts with
    | [] => some (empty, [])
    | t :: _ => if t = .documentStart ∨ t = .documentEnd then some (empty, ts) else read fuel true false ts
  | ts => read fuel true false ts

/-- The one document of a list of tokens. -/
def ofTokens? (ts : List Token) : Option Node := do
  let (node, rest) ← content ts
  if rest.all (· == .documentEnd) then some node else none

/-- The one document of a text. -/
def ofText? (text : String) : Option Node := do ofTokens? (← Token.scan? (← Glyph.ofText? text))

end Node

/-- A way of reading YAML: the one document of a text, or what is wrong with it. -/
structure Reader where
  read : String → Except String Node
  /-- What is said of a text whose document has not the form that was wanted. -/
  mismatch : String → String

def reader : Reader where
  read text := (Node.ofText? text).elim (.error "no document") .ok
  mismatch _ := "not of this form"

end Giro.Yaml
