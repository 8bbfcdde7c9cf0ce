import Giro.Json.Value

/-
  Giro.Json.Read — reading data in JSON, white space and all.
-/

namespace Giro.Json

/-- White space between tokens. -/
def isBlank (c : Char) : Bool := c == ' ' || c == '\t' || c == '\n' || c == '\r'

def skip (cs : List Char) : List Char := cs.dropWhile isBlank

/-- A fraction, if one comes next. -/
def fraction? : List Char → Option (List Char × List Char)
  | '.' :: cs =>
    let (digits, rest) := cs.span Char.isDigit
    if digits.isEmpty then none else some ('.' :: digits, rest)
  | cs => some ([], cs)

/-- An exponent, if one comes next. -/
def exponent? : List Char → Option (List Char × List Char)
  | [] => some ([], [])
  | e :: cs =>
    if e = 'e' ∨ e = 'E' then
      let (sign, cs) := match cs with
        | '+' :: cs => (['+'], cs)
        | '-' :: cs => (['-'], cs)
        | cs => ([], cs)
      let (digits, rest) := cs.span Char.isDigit
      if digits.isEmpty then none else some (e :: sign ++ digits, rest)
    else some ([], e :: cs)

/-- Digits, of which the first is zero only if it is the only one. -/
def whole? (cs : List Char) : Option (List Char × List Char) :=
  let (digits, rest) := cs.span Char.isDigit
  if digits.isEmpty || (digits.head? == some '0' && digits.length != 1) then none else some (digits, rest)

/-- A number. -/
def number? (cs : List Char) : Option (Value × List Char) := do
  let (negative, cs) := match cs with
    | '-' :: cs => (true, cs)
    | cs => (false, cs)
  let (digits, cs) ← whole? cs
  let (fraction, cs) ← fraction? cs
  let (exponent, cs) ← exponent? cs
  let n := Nat.ofDigitChars 10 digits 0
  if !(fraction.isEmpty && exponent.isEmpty) then
    return (.real ((if negative then ['-'] else []) ++ digits ++ fraction ++ exponent), cs)
  else if negative then return (if n = 0 then .minusZero else .integer (-n), cs)
  else return (.integer n, cs)

/-- What follows the opening quote of a text. -/
def string? (cs : List Char) : Option (Option String × List Char) :=
  (codes? cs).map fun (codes, cs) => ((join codes).map String.ofList, cs)

mutual

/-- Reads one value and says what follows it. -/
def read : (fuel : Nat) → List Char → Option (Value × List Char)
  | 0, _ => none
  | fuel + 1, cs =>
    match skip cs with
    | 'n' :: 'u' :: 'l' :: 'l' :: cs => some (.null, cs)
    | 't' :: 'r' :: 'u' :: 'e' :: cs => some (.bool true, cs)
    | 'f' :: 'a' :: 'l' :: 's' :: 'e' :: cs => some (.bool false, cs)
    | '"' :: cs => (string? cs).map fun (s, cs) => (.string s, cs)
    | '[' :: cs =>
      match skip cs with
      | ']' :: cs => some (.array [], cs)
      | cs => (readItems fuel cs).map fun (items, cs) => (.array items, cs)
    | '{' :: cs =>
      match skip cs with
      | '}' :: cs => some (.object [], cs)
      | cs => (readMembers fuel cs).map fun (members, cs) => (.object members, cs)
    | cs => number? cs

/-- Reads the items of an array, one at least, and the closing bracket. -/
def readItems : (fuel : Nat) → List Char → Option (List Value × List Char)
  | 0, _ => none
  | fuel + 1, cs => do
    let (item, cs) ← read fuel cs
    match skip cs with
    | ',' :: cs =>
      let (items, cs) ← readItems fuel cs
      return (item :: items, cs)
    | ']' :: cs => return ([item], cs)
    | _ => none

/-- Reads the members of an object, one at least, and the closing brace. -/
def readMembers : (fuel : Nat) → List Char → Option (List (Option String × Value) × List Char)
  | 0, _ => none
  | fuel + 1, cs => do
    match skip cs with
    | '"' :: cs =>
      let (name, cs) ← string? cs
      match skip cs with
      | ':' :: cs =>
        let (value, cs) ← read fuel cs
        match skip cs with
        | ',' :: cs =>
          let (members, cs) ← readMembers fuel cs
          return ((name, value) :: members, cs)
        | '}' :: cs => return ([(name, value)], cs)
        | _ => none
      | _ => none
    | _ => none

end

/-- The value that a text writes; only white space may follow it. -/
def Value.ofText? (text : String) : Option Value := do
  let (v, rest) ← read (text.toList.length + 1) text.toList
  if (skip rest).isEmpty then some v else none

end Giro.Json
