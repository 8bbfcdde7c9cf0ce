import Giro.Yaml.Scalar

/-
  Giro.Yaml.Token — a YAML text as a list of tokens, in which indentation has become
  explicit: a block opens with a start and closes with `blockEnd`.

  A key shows itself only by the colon after it. So where a key may begin, the number of
  the next token is remembered, and the colon puts `key` in front of that token, with the
  start of a mapping before it if the column is new. A remembered key lapses at the end of
  its line and after 1024 bytes; where nothing but a key can stand, that is an error.

  The tokens cover mappings, sequences and scalars of the first three kinds; a text with
  directives, anchors, tags or block scalars is refused.
-/

namespace Giro.Yaml

inductive Token where
  | documentStart
  | documentEnd
  | blockSequenceStart
  | blockMappingStart
  | blockEnd
  | flowSequenceStart
  | flowSequenceEnd
  | flowMappingStart
  | flowMappingEnd
  | blockEntry
  | flowEntry
  | key
  | value
  | scalar (text : String) (plain : Bool)
  deriving DecidableEq

/-- A place where a key may have begun. -/
structure KeyStart where
  /-- The token that the key begins with. -/
  token : Nat
  at_ : Glyph
  /-- Nothing but a key can stand there. -/
  required : Bool

/-- What has been read of a text. -/
structure Scanner where
  tokens : Array Token := #[]
  /-- The columns of the open blocks, the innermost first. -/
  indents : List Nat := []
  /-- A key may begin here. -/
  keyAllowed : Bool := true
  /-- The key that may have begun inside the innermost brackets. -/
  key : Option KeyStart := none
  /-- The same for the brackets around, the innermost first. -/
  outer : List (Option KeyStart) := []

namespace Scanner

/-- Inside brackets. -/
def flow (s : Scanner) : Bool := !s.outer.isEmpty

def push (s : Scanner) (t : Token) : Scanner := { s with tokens := s.tokens.push t }

/-- Puts a token in front of the one with a number. -/
def insert (s : Scanner) (number : Nat) (t : Token) : Scanner :=
  { s with tokens := s.tokens.extract 0 number ++ #[t] ++ s.tokens.extract number s.tokens.size }

/-! ## Keys -/

/-- What is left of a key's place when `g` has been reached. -/
def lapse (g : Glyph) : Option KeyStart → Option (Option KeyStart)
  | none => some none
  | some k =>
    if k.at_.line < g.line || k.at_.offset + 1024 < g.offset then
      if k.required then none else some none
    else some (some k)

def lapseAll (s : Scanner) (g : Glyph) : Option Scanner := do
  return { s with key := ← lapse g s.key, outer := ← s.outer.mapM (lapse g) }

/-- No key began at the remembered place. -/
def dropKey (s : Scanner) : Option Scanner :=
  if s.key.any (·.required) then none else some { s with key := none }

/-- Remembers that a key may begin here. -/
def saveKey (s : Scanner) (g : Glyph) : Option Scanner :=
  if s.keyAllowed then do
    let s ← s.dropKey
    return { s with key := some ⟨s.tokens.size, g, !s.flow && s.indents.head? == some g.column⟩ }
  else some s

/-! ## Indentation -/

/-- Opens a block at a column that is further in than the innermost one; its start goes in
    front of a token. -/
def indent (s : Scanner) (column number : Nat) (start : Token) : Scanner :=
  if s.flow || s.indents.head?.any (column ≤ ·) then s
  else { s.insert number start with indents := column :: s.indents }

/-- Closes the blocks whose columns satisfy `p`, from the innermost one on. -/
def close (s : Scanner) (p : Nat → Bool) : Scanner :=
  if s.flow then s
  else
    { s with
      tokens := s.tokens ++ (s.indents.takeWhile p).map fun _ => Token.blockEnd
      indents := s.indents.dropWhile p }

/-! ## Tokens -/

/-- The start or the end of a document. -/
def document (s : Scanner) (t : Token) : Option Scanner := do
  let s ← (s.close fun _ => true).dropKey
  return { s.push t with keyAllowed := false }

def openBracket (s : Scanner) (g : Glyph) (t : Token) : Option Scanner := do
  let s ← s.saveKey g
  return { s.push t with key := none, outer := s.key :: s.outer, keyAllowed := true }

def closeBracket (s : Scanner) (t : Token) : Option Scanner := do
  let s ← s.dropKey
  match s.outer with
  | [] => return { s.push t with keyAllowed := false }
  | key :: outer => return { s.push t with key, outer, keyAllowed := false }

def flowEntry (s : Scanner) : Option Scanner := do
  let s ← s.dropKey
  return { s.push .flowEntry with keyAllowed := true }

def blockEntry (s : Scanner) (g : Glyph) : Option Scanner := do
  guard (s.flow || s.keyAllowed)
  let s ← (s.indent g.column s.tokens.size .blockSequenceStart).dropKey
  return { s.push .blockEntry with keyAllowed := true }

/-- A key after `?`. -/
def explicitKey (s : Scanner) (g : Glyph) : Option Scanner := do
  guard (s.flow || s.keyAllowed)
  let s ← (s.indent g.column s.tokens.size .blockMappingStart).dropKey
  return { s.push .key with keyAllowed := !s.flow }

/-- A colon: what began at the remembered place was a key. -/
def value (s : Scanner) (g : Glyph) : Option Scanner :=
  match s.key with
  | some k =>
    let s := (s.insert k.token .key).indent k.at_.column k.token .blockMappingStart
    some { s.push .value with key := none, keyAllowed := false }
  | none => do
    guard (s.flow || s.keyAllowed)
    let s := s.indent g.column s.tokens.size .blockMappingStart
    return { s.push .value with keyAllowed := !s.flow }

/-- The characters that a plain scalar does not begin with, unless more is said. A tab where
    a key may begin is one: it is not for indentation. -/
def indicators : List Char :=
  ['-', '?', ':', ',', '[', ']', '{', '}', '#', '&', '*', '!', '|', '>', '\'', '"', '%', '@', '\x60', '\t']

/-- A scalar in quotes or a plain one. -/
def scalar (s : Scanner) (g : Glyph) (gs : List Glyph) : Option (Scanner × List Glyph) := do
  let s ← s.saveKey g
  let s := { s with keyAllowed := false }
  if g.char == '\'' then
    let (text, gs) ← scanSingle gs .none []
    return (s.push (.scalar text false), gs)
  else if g.char == '"' then
    let (text, gs) ← scanDouble gs none .none []
    return (s.push (.scalar text false), gs)
  else
    guard (!indicators.contains g.char || g.char == '-' || (!s.flow && (g.char == '?' || g.char == ':')))
    let margin := match s.indents with
      | [] => 0
      | column :: _ => column + 1
    let (text, broken, gs) ← scanPlain s.flow margin (g :: gs) .none []
    return ({ s.push (.scalar text true) with keyAllowed := broken }, gs)

/-- Reads the token that begins with `g`. -/
def next (s : Scanner) (g : Glyph) (gs : List Glyph) : Option (Scanner × List Glyph) :=
  let mark (t : Option Scanner) : Option (Scanner × List Glyph) := t.map (·, gs)
  let marked : Bool := s.flow || Glyph.atEnd gs
  if g.column == 0 && g.char == '%' then none
  else if Glyph.isDocumentMark '-' (g :: gs) then (s.document .documentStart).map (·, gs.drop 2)
  else if Glyph.isDocumentMark '.' (g :: gs) then (s.document .documentEnd).map (·, gs.drop 2)
  else if g.char == '[' then mark (s.openBracket g .flowSequenceStart)
  else if g.char == '{' then mark (s.openBracket g .flowMappingStart)
  else if g.char == ']' then mark (s.closeBracket .flowSequenceEnd)
  else if g.char == '}' then mark (s.closeBracket .flowMappingEnd)
  else if g.char == ',' then mark s.flowEntry
  else if g.char == '-' && Glyph.atEnd gs then mark (s.blockEntry g)
  else if g.char == '?' && marked then mark (s.explicitKey g)
  else if g.char == ':' && marked then mark (s.value g)
  else s.scalar g gs

/-- Goes over white space, comments and byte order marks to the next token. Outside brackets
    a key may begin on a new line, and tabs do not count where one may begin. -/
def skip (flow : Bool) : (keyAllowed inComment : Bool) → List Glyph → Bool × List Glyph
  | keyAllowed, _, [] => (keyAllowed, [])
  | keyAllowed, inComment, g :: gs =>
    if isBreak g.char then skip flow (keyAllowed || !flow) false gs
    else if inComment || g.char == ' ' || g.isByteOrderMark ||
        (g.char == '\t' && (flow || !keyAllowed)) then
      skip flow keyAllowed inComment gs
    else if g.char == '#' then skip flow keyAllowed true gs
    else (keyAllowed, g :: gs)

/-- Reads tokens to the end of the text, at most one for each unit of `fuel`. -/
def run : (fuel : Nat) → Scanner → List Glyph → Option (Array Token)
  | 0, _, _ => none
  | fuel + 1, s, gs =>
    let (keyAllowed, gs) := skip s.flow s.keyAllowed false gs
    let s := { s with keyAllowed }
    match gs with
    | [] => ((s.close fun _ => true).dropKey).map (·.tokens)
    | g :: gs => do
      let s ← s.lapseAll g
      let (s, gs) ← (s.close (g.column < ·)).next g gs
      run fuel s gs

end Scanner

/-- The tokens of a text. Each takes at least one character. -/
def Token.scan? (gs : List Glyph) : Option (List Token) :=
  (Scanner.run (gs.length + 1) {} gs).map Array.toList

end Giro.Yaml
