import Giro.Text.Digits

/-
  Giro.Database.IpAddress — which texts are numeric network addresses of version 4 or 6.

  Addresses on the web may write version 4 more loosely than its four octets, in fewer
  numbers and in other bases; `isLooseV4` is that form, and `endsInNumber` says which host
  names have to be of it.
-/

namespace Giro.IpAddress

/-- A number up to 255 without leading zeros. -/
def isOctet (cs : List Char) : Bool :=
  match Text.decimal? cs with
  | some n => n ≤ 255 && (cs.length = 1 || cs.head? ≠ some '0')
  | none => false

/-- Four octets. -/
def isV4 (cs : List Char) : Bool :=
  let parts := cs.splitOn '.'
  parts.length = 4 && parts.all isOctet

/-- A number in decimal, in octal after `0` or in hexadecimal after `0x`, where nothing
    after the mark is zero. -/
def looseNumber? : List Char → Option Nat
  | '0' :: x :: digits =>
    if x = 'x' ∨ x = 'X' then if digits.isEmpty then some 0 else Text.inBase? 16 digits
    else Text.inBase? 8 (x :: digits)
  | cs => Text.decimal? cs

/-- The texts between dots; one dot at the end does not count. -/
def labels (cs : List Char) : List (List Char) :=
  let parts := cs.splitOn '.'
  if parts.getLast? = some [] then parts.dropLast else parts

/-- The last label is all digits or a number. -/
def endsInNumber (cs : List Char) : Bool :=
  match (labels cs).getLast? with
  | some last => (!last.isEmpty && last.all Char.isDigit) || (looseNumber? last).isSome
  | none => false

/-- One to four numbers: the last fills the octets that the others, one octet each, leave. -/
def isLooseV4 (cs : List Char) : Bool :=
  match (labels cs).mapM looseNumber? with
  | some ns =>
    ns.length ≤ 4 && ns.dropLast.all (· ≤ 255) && ns.getLast?.any (· < Nat.pow 256 (5 - ns.length))
  | none => false

/-- One to four hexadecimal digits. -/
def isGroup (cs : List Char) : Bool := cs.length ≤ 4 && (Text.inBase? 16 cs).isSome

/-- How many groups a list of parts stands for, if the parts are groups; an address of
    version 4 may be the last part and stands for two. -/
def groups? : List (List Char) → Bool → Option Nat
  | [], _ => some 0
  | [part], lastMayBeV4 =>
    if isGroup part then some 1 else if lastMayBeV4 && isV4 part then some 2 else none
  | part :: parts, lastMayBeV4 => if isGroup part then (groups? parts lastMayBeV4).map (· + 1) else none

/-- The parts of a text between colons; an empty text has none. -/
def parts (cs : List Char) : List (List Char) := if cs.isEmpty then [] else cs.splitOn ':'

/-- The texts before and after the first double colon. -/
def splitGap : List Char → Option (List Char × List Char)
  | ':' :: ':' :: rest => some ([], rest)
  | c :: rest => (splitGap rest).map fun p => (c :: p.1, p.2)
  | [] => none

/-- Eight groups, or fewer around one double colon, which stands for the rest. -/
def isV6 (cs : List Char) : Bool :=
  match splitGap cs with
  | none => groups? (parts cs) true = some 8
  | some (front, back) =>
    match groups? (parts front) false, groups? (parts back) true with
    | some m, some n => m + n ≤ 7
    | _, _ => false

end Giro.IpAddress
