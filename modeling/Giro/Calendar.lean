/-
  Giro.Calendar — the days of the Gregorian calendar, applied to all years, counted from
  the first day of the year 0.

  `yearOf` guesses the year of a day from the mean length of a year and corrects the guess
  by one at most.
-/

namespace Giro.Calendar

/-- How many days come before the first day of a year. -/
def daysBefore (year : Int) : Int := 365 * year + (year + 3) / 4 - (year + 99) / 100 + (year + 399) / 400

/-- The day 1970-01-01. -/
def epochDay : Int := 719528

example : daysBefore 1970 = epochDay := by decide

def isLeap (year : Int) : Bool := year % 4 = 0 && (year % 100 ≠ 0 || year % 400 = 0)

/-- The year that a day falls into. -/
def yearOf (day : Int) : Int :=
  let guess := day * 400 / 146097
  if day < daysBefore guess then guess - 1
  else if daysBefore (guess + 1) ≤ day then guess + 1
  else guess

/-- How long the months of a year are. -/
def months (year : Int) : List Nat :=
  [31, if isLeap year then 29 else 28, 31, 30, 31, 30, 31, 31, 30, 31, 30, 31]

/-- The month, counted from 1, and the day in it, also from 1, that come some days after the
    first day of months of these lengths. -/
def monthAndDay : List Nat → Nat → Nat × Nat
  | [], days => (1, days + 1)
  | length :: lengths, days =>
    if days < length then (1, days + 1)
    else
      let (month, day) := monthAndDay lengths (days - length)
      (month + 1, day)

/-- How many days of months of these lengths come before a day of a month, if there is such
    a day. -/
def daysBefore? : List Nat → (month day : Nat) → Option Nat
  | length :: _, 1, day => if 1 ≤ day ∧ day ≤ length then some (day - 1) else none
  | length :: lengths, month + 2, day => (daysBefore? lengths (month + 1) day).map (length + ·)
  | _, _, _ => none

/-- A day as it is written. -/
structure Date where
  year : Int
  month : Nat
  day : Nat
  deriving DecidableEq

/-- The date of a day counted from 1970-01-01. -/
def Date.ofDay (n : Int) : Date :=
  let year := yearOf (n + epochDay)
  let (month, day) := monthAndDay (months year) (n + epochDay - daysBefore year).toNat
  ⟨year, month, day⟩

/-- The day that a date names, counted from 1970-01-01, if there is one. -/
def Date.day? (d : Date) : Option Int :=
  (daysBefore? (months d.year) d.month d.day).map fun days => daysBefore d.year + days - epochDay

example : (Date.mk 2024 2 29).day?.map Date.ofDay = some ⟨2024, 2, 29⟩ := by decide

example : (Date.mk 1900 2 29).day? = none := by decide

end Giro.Calendar
