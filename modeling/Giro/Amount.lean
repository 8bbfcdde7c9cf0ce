/-
  Giro.Amount — the range of a stored amount.

  Amounts and balances are integers in minor units, negative for a debit or an overdrawn
  account; record ids are integers too. Arithmetic is exact, and a result that is to be
  stored is checked first (`Amount.add?`, `Amount.neg?`), so a balance never wraps.
-/

namespace Giro.Amount

/-- The least number a row can store. -/
def least : Int := -9223372036854775808

/-- The greatest number a row can store. -/
def greatest : Int := 9223372036854775807

/-- A number that fits a row: a signed 64-bit word. -/
def Fits (n : Int) : Prop := least ≤ n ∧ n ≤ greatest

instance (n : Int) : Decidable (Fits n) := inferInstanceAs (Decidable (_ ∧ _))

/-- `n` if a row can store it. -/
def fit? (n : Int) : Option Int := if Fits n then some n else none

/-- The sum, if a row can store it. -/
def add? (a b : Int) : Option Int := fit? (a + b)

/-- The opposite amount, if a row can store it: the least amount has none. -/
def neg? (a : Int) : Option Int := fit? (-a)

theorem fit?_eq_some_iff {n m : Int} : fit? n = some m ↔ m = n ∧ Fits n := by
  unfold fit?
  split
  · rename_i h; simp [h, eq_comm]
  · rename_i h; simp [h]

end Giro.Amount
