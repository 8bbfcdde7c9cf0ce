/-
  Giro.Yaml.Glyph — the characters of a YAML text, each with the place where it stands.

  Indentation and the reach of a key are questions of columns, lines and distances, so the
  text is laid out once and everything after that is recursion on the list.
-/

namespace Giro.Yaml

/-- A character and where it stands, all counted from 0. -/
structure Glyph where
  char : Char
  line : Nat
  column : Nat
  /-- How many bytes of UTF-8 stand before it; distances count within a line. -/
  offset : Nat

/-- A space or a tab. -/
def isBlank (c : Char) : Bool := c == ' ' || c == '\t'

/-- The end of a line. -/
def isBreak (c : Char) : Bool := c == '\n' || c == '\u2028' || c == '\u2029'

/-- Blank or the end of a line. -/
def isSpace (c : Char) : Bool := isBlank c || isBreak c

/-- Control characters other than tabs and line ends, and the last two characters of the
    first plane, stand in no text. -/
def isAllowed (c : Char) : Bool :=
  let n := c.toNat
  n = 0x09 || n = 0x0A || n = 0x0D || (0x20 ≤ n && n ≤ 0x7E) || n = 0x85 ||
    (0xA0 ≤ n && n ≤ 0xFFFD) || 0x10000 ≤ n

/-- Carriage returns, alone or with a line feed, and next line characters end a line as a
    line feed does. -/
def unifyBreaks : List Char → List Char
  | [] => []
  | '\r' :: '\n' :: cs => '\n' :: unifyBreaks cs
  | c :: cs => (if c == '\r' || c == '\u0085' then '\n' else c) :: unifyBreaks cs

namespace Glyph

/-- Lays out a text from a place on. -/
def place (line column offset : Nat) : List Char → List Glyph
  | [] => []
  | c :: cs =>
    let after := offset + c.utf8Size
    ⟨c, line, column, offset⟩ ::
      if isBreak c then place (line + 1) 0 after cs else place line (column + 1) after cs

/-- Lays out a text. -/
def ofText? (text : String) : Option (List Glyph) :=
  if text.toList.all isAllowed then some (place 0 0 0 (unifyBreaks text.toList)) else none

/-- A byte order mark at the start of a line takes up a column and says nothing. -/
def isByteOrderMark (g : Glyph) : Bool := g.column == 0 && g.char == '\uFEFF'

/-- A word ends before this. -/
def atEnd : List Glyph → Bool
  | [] => true
  | g :: _ => isSpace g.char

/-- Three marks at the start of a line stand for the start or the end of a document. -/
def isDocumentMark (mark : Char) : List Glyph → Bool
  | a :: b :: c :: gs => a.column == 0 && a.char == mark && b.char == mark && c.char == mark && atEnd gs
  | _ => false

end Glyph

end Giro.Yaml
