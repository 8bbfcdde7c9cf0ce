/-
  Giro.Text.Digits — numbers written as digits.

  Decimal digits are read by `decimal?`, those of other bases by `inBase?`.
-/

namespace Giro.Text

/-- The number written by decimal digits; no digits write none. -/
def decimal? (cs : List Char) : Option Nat :=
  if !cs.isEmpty && cs.all Char.isDigit then some (Nat.ofDigitChars 10 cs 0) else none

/-- The value of a digit of a base up to 16, in either case. -/
def digit? (base : Nat) (c : Char) : Option Nat :=
  let n :=
    if c.isDigit then c.toNat - '0'.toNat
    else if 'a' ≤ c ∧ c ≤ 'f' then c.toNat - 'a'.toNat + 10
    else if 'A' ≤ c ∧ c ≤ 'F' then c.toNat - 'A'.toNat + 10
    else base
  if n < base then some n else none

/-- The number written by digits of a base up to 16; no digits write none. -/
def inBase? (base : Nat) (cs : List Char) : Option Nat :=
  if cs.isEmpty then none else cs.foldlM (fun n c => (digit? base c).map (n * base + ·)) 0

/-- The text without a leading `+`. -/
def dropPlus : List Char → List Char
  | '+' :: cs => cs
  | cs => cs

end Giro.Text
