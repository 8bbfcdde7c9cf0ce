import Giro.Text.Digits

/-
  Giro.Json.Quoted — texts between double quotes.

  A text is written with the short escapes there are and `\u` for the other control
  characters. On reading a text is first a list of codes, one for each character and each
  escape; `join` makes characters of them, two halves of a surrogate pair being one, and
  refuses a half that is alone.
-/

namespace Giro.Json

/-- The letters that stand for a character after a backslash when it is written. -/
def shortEscapes : List (Char × Char) :=
  [('"', '"'), ('\\', '\\'), ('\x08', 'b'), ('\t', 't'), ('\n', 'n'), ('\x0c', 'f'), ('\r', 'r')]

/-- A character as it is written in a text. -/
def escape (c : Char) : List Char :=
  match shortEscapes.lookup c with
  | some letter => ['\\', letter]
  | none =>
    if c.toNat < 0x20 then
      ['\\', 'u', '0', '0', Nat.digitChar (c.toNat / 16), Nat.digitChar (c.toNat % 16)]
    else [c]

/-- A text in its quotes. -/
def quote (s : String) : List Char := '"' :: s.toList.flatMap escape ++ ['"']

/-- The code of what a letter after a backslash stands for. -/
def unescape : Char → Option Nat
  | '"' => some 0x22
  | '\\' => some 0x5C
  | '/' => some 0x2F
  | 'b' => some 0x08
  | 'f' => some 0x0C
  | 'n' => some 0x0A
  | 'r' => some 0x0D
  | 't' => some 0x09
  | _ => none

/-- The codes up to the closing quote, and what follows it. -/
def codes? : List Char → Option (List Nat × List Char)
  | [] => none
  | '"' :: cs => some ([], cs)
  | '\\' :: 'u' :: a :: b :: c :: d :: cs => do
    let code ← Text.inBase? 16 [a, b, c, d]
    let (codes, cs) ← codes? cs
    return (code :: codes, cs)
  | '\\' :: c :: cs => do
    let code ← unescape c
    let (codes, cs) ← codes? cs
    return (code :: codes, cs)
  | c :: cs =>
    if c.toNat < 0x20 ∨ c = '\\' then none
    else do
      let (codes, cs) ← codes? cs
      return (c.toNat :: codes, cs)

/-- The first half of a pair. -/
def isHigh (code : Nat) : Bool := 0xD800 ≤ code && code < 0xDC00

/-- The second half of a pair. -/
def isLow (code : Nat) : Bool := 0xDC00 ≤ code && code < 0xE000

/-- The characters that codes stand for. -/
def join : List Nat → Option (List Char)
  | [] => some []
  | code :: codes =>
    if isLow code then none
    else if isHigh code then
      match codes with
      | low :: codes =>
        if isLow low then
          (join codes).map (Char.ofNat (0x10000 + (code - 0xD800) * 0x400 + (low - 0xDC00)) :: ·)
        else none
      | [] => none
    else (join codes).map (Char.ofNat code :: ·)

end Giro.Json
