/-
  Giro.Instant — a point of the UTC time line with nanoseconds, leap seconds included.

  An instant is a count of whole seconds from 1970-01-01T00:00:00Z and the nanoseconds
  into that second. A leap second shares the count of the second before it and is told
  apart by nanoseconds of 10^9 and more. Any second may have that many; a clock shows a leap
  second only after the 59th second of a minute (`ofCount?`).
-/

namespace Giro

/-- A point in time between the first second of the year -262143 and the last second
    of the year 262142. -/
structure Instant where
  seconds : Int
  nanos : Nat
  first_le : -8334601228800 ≤ seconds := by decide
  le_last : seconds ≤ 8210266876799 := by decide
  nanos_lt : nanos < 2000000000 := by decide
  deriving DecidableEq

namespace Instant

/-- The start of the count. -/
def epoch : Instant := ⟨0, 0, by decide, by decide, by decide⟩

/-- The instant with this count, if there is one and a clock shows it. -/
def ofCount? (seconds : Int) (nanos : Nat) : Option Instant :=
  if h : -8334601228800 ≤ seconds ∧ seconds ≤ 8210266876799 ∧ nanos < 2000000000 ∧
      (1000000000 ≤ nanos → seconds % 60 = 59) then
    some ⟨seconds, nanos, h.1, h.2.1, h.2.2.1⟩
  else none

end Instant

end Giro
