import Giro.Text.Digits
import Giro.Yaml.Glyph

/-
  Giro.Yaml.Scalar — reading the three kinds of scalars: plain, in single quotes and in
  double quotes.

  A scalar may go on over several lines. White space between two of its words is a `Gap`:
  on one line it is kept, and of line ends the first becomes a space or, before empty
  lines, nothing.
-/

namespace Giro.Yaml

/-- White space between two words of a scalar. -/
inductive Gap where
  /-- Blanks on one line. -/
  | inline (blanks : List Char)
  /-- The first line end, unless it was escaped, and the ones after it. -/
  | broken (first : Option Char) (more : List Char)

namespace Gap

/-- No white space. -/
def none : Gap := .inline []

def isBroken : Gap → Bool
  | inline _ => false
  | broken .. => true

def isNone : Gap → Bool
  | inline blanks => blanks.isEmpty
  | broken .. => false

/-- One more space character. Blanks around line ends do not count. -/
def add (c : Char) : Gap → Gap
  | inline blanks => if isBreak c then broken (some c) [] else inline (blanks ++ [c])
  | broken first more => if isBreak c then broken first (more ++ [c]) else broken first more

/-- What the gap stands for in the scalar. -/
def text : Gap → List Char
  | inline blanks => blanks
  | broken (some '\n') [] => [' ']
  | broken (some '\n') more => more
  | broken first more => first.toList ++ more

end Gap

/-- A scalar read so far, the last character first, with the gap and a character added. -/
def glue (text : List Char) (gap : Gap) (c : Char) : List Char := c :: (gap.text.reverse ++ text)

/-- Characters that end a plain scalar inside brackets. -/
def isFlowMark (c : Char) : Bool := c == ',' || c == '[' || c == ']' || c == '{' || c == '}'

/-- A plain scalar does not go on with this word. -/
def isOver (flow : Bool) (margin : Nat) (g : Glyph) (gs : List Glyph) : Bool :=
  (!flow && g.column < margin) || g.char == '#' || Glyph.isDocumentMark '-' (g :: gs) ||
    Glyph.isDocumentMark '.' (g :: gs)

/-- Reads a plain scalar up to where it ends; outside brackets its lines stay right of the
    margin. Says also whether a line ended after it. -/
def scanPlain (flow : Bool) (margin : Nat) : List Glyph → Gap → List Char →
    Option (String × Bool × List Glyph)
  | [], gap, text => some (String.ofList text.reverse, gap.isBroken, [])
  | g :: gs, gap, text =>
    if isSpace g.char then
      if g.char == '\t' && gap.isBroken && g.column < margin then none
      else scanPlain flow margin gs (gap.add g.char) text
    else if !gap.isNone && isOver flow margin g gs then
      some (String.ofList text.reverse, gap.isBroken, g :: gs)
    else if g.char == ':' && flow && gs.head?.any (fun h => isFlowMark h.char || h.char == '?') then none
    else if (g.char == ':' && Glyph.atEnd gs) || (flow && isFlowMark g.char) then
      some (String.ofList text.reverse, gap.isBroken, g :: gs)
    else scanPlain flow margin gs .none (glue text gap g.char)

/-- A document does not start or end inside quotes. -/
def breaksQuote (gs : List Glyph) : Bool := Glyph.isDocumentMark '-' gs || Glyph.isDocumentMark '.' gs

/-- Reads what follows a single quote up to the closing one; a quote inside is written
    twice. -/
def scanSingle : List Glyph → Gap → List Char → Option (String × List Glyph)
  | [], _, _ => none
  | g :: gs, gap, text =>
    if isSpace g.char then scanSingle gs (gap.add g.char) text
    else if breaksQuote (g :: gs) then none
    else if g.char == '\'' then
      match gs with
      | h :: hs =>
        if h.char == '\'' then scanSingle hs .none (glue text gap '\'')
        else some (String.ofList (gap.text.reverse ++ text).reverse, h :: hs)
      | [] => some (String.ofList (gap.text.reverse ++ text).reverse, [])
    else scanSingle gs .none (glue text gap g.char)

/-- What a character after a backslash stands for. -/
def escapes : List (Char × Char) :=
  [('0', '\x00'), ('a', '\x07'), ('b', '\x08'), ('t', '\t'), ('\t', '\t'), ('n', '\n'),
    ('v', '\x0b'), ('f', '\x0c'), ('r', '\r'), ('e', '\x1b'), (' ', ' '), ('"', '"'), ('/', '/'),
    ('\\', '\\'), ('N', '\u0085'), ('_', '\u00a0'), ('L', '\u2028'), ('P', '\u2029')]

/-- How many hexadecimal digits follow a character after a backslash. -/
def codeLength : List (Char × Nat) := [('x', 2), ('u', 4), ('U', 8)]

/-- Reads what follows a double quote up to the closing one. `code` holds how many digits of
    an escaped code are still to come and the value so far. -/
def scanDouble : List Glyph → Option (Nat × Nat) → Gap → List Char → Option (String × List Glyph)
  | [], _, _, _ => none
  | g :: gs, some (left, value), gap, text => do
    let digit ← Text.digit? 16 g.char
    let value := value * 16 + digit
    if 1 < left then scanDouble gs (some (left - 1, value)) gap text
    else if value.isValidChar then scanDouble gs none .none (glue text gap (Char.ofNat value))
    else none
  | g :: gs, none, gap, text =>
    if isSpace g.char then scanDouble gs none (gap.add g.char) text
    else if breaksQuote (g :: gs) then none
    else if g.char == '"' then some (String.ofList (gap.text.reverse ++ text).reverse, gs)
    else if g.char == '\\' then
      match gs with
      | [] => none
      | h :: hs =>
        if isBreak h.char then scanDouble hs none (.broken none []) (gap.text.reverse ++ text)
        else match escapes.lookup h.char, codeLength.lookup h.char with
          | some c, _ => scanDouble hs none .none (glue text gap c)
          | none, some n => scanDouble hs (some (n, 0)) gap text
          | none, none => none
    else scanDouble gs none .none (glue text gap g.char)

end Giro.Yaml
