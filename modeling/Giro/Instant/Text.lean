import Giro.Calendar
import Giro.Instant
import Giro.Text.Blank
import Giro.Text.Digits

/-
  Giro.Instant.Text — instants as text.

  An instant is written in UTC as `2024-02-29T12:34:56.789Z`, with the fewest of 0, 3, 6 or
  9 digits of a second that hold it, and with a sign in front of a year that has not four
  digits. A leap second is the 60th, so nanoseconds of 10^9 and more add one to the second.

  Reading is wider: shorter fields, white space before fields, a space or a small `t` between
  date and time, more digits of a second, which are cut, and any offset from UTC.
-/

namespace Giro.Instant

open Calendar Text

/-! ## Writing -/

/-- A number with zeros in front of it up to a width. -/
def padded (width n : Nat) : List Char :=
  let digits := Nat.toDigits 10 n
  List.replicate (width - digits.length) '0' ++ digits

def yearChars (year : Int) : List Char :=
  if 0 ≤ year ∧ year ≤ 9999 then padded 4 year.natAbs
  else (if year < 0 then '-' else '+') :: padded 4 year.natAbs

/-- Nanoseconds as a fraction of a second. -/
def fractionChars (nanos : Nat) : List Char :=
  if nanos = 0 then []
  else if nanos % 1000000 = 0 then '.' :: padded 3 (nanos / 1000000)
  else if nanos % 1000 = 0 then '.' :: padded 6 (nanos / 1000)
  else '.' :: padded 9 nanos

def chars (t : Instant) : List Char :=
  let date := Date.ofDay (t.seconds / 86400)
  let time := (t.seconds % 86400).toNat
  yearChars date.year ++ '-' :: padded 2 date.month ++ '-' :: padded 2 date.day ++
    'T' :: padded 2 (time / 3600) ++ ':' :: padded 2 (time % 3600 / 60) ++
    ':' :: padded 2 (time % 60 + t.nanos / 1000000000) ++ fractionChars (t.nanos % 1000000000) ++ ['Z']

def toText (t : Instant) : String := String.ofList t.chars

/-! ## Reading -/

/-- A number of one digit at least and `width` digits at most. -/
def upTo? (width : Nat) (cs : List Char) : Option (Nat × List Char) :=
  let digits := (cs.take width).takeWhile Char.isDigit
  (decimal? digits).map (·, cs.drop digits.length)

/-- A field of one or two digits below a limit. -/
def field? (limit : Nat) (cs : List Char) : Option (Nat × List Char) := do
  let (n, cs) ← upTo? 2 (trimStart cs)
  if n < limit then some (n, cs) else none

/-- A year: up to four digits, or with a sign any number of them. -/
def year? (cs : List Char) : Option (Int × List Char) :=
  match trimStart cs with
  | '+' :: cs => (upTo? cs.length cs).map fun (n, cs) => (n, cs)
  | '-' :: cs => (upTo? cs.length cs).map fun (n, cs) => (-n, cs)
  | cs => (upTo? 4 cs).map fun (n, cs) => (n, cs)

/-- What follows a separator. -/
def after? (separator : Char) (cs : List Char) : Option (List Char) :=
  match trimStart cs with
  | c :: cs => if c = separator then some cs else none
  | [] => none

/-- What follows the mark between a date and a time. -/
def time? : List Char → Option (List Char)
  | 'T' :: cs | 't' :: cs | ' ' :: cs => some cs
  | _ => none

/-- A fraction of a second in nanoseconds, if one comes next. -/
def fraction? : List Char → Option (Nat × List Char)
  | '.' :: cs => do
    let (n, rest) ← upTo? 9 cs
    return (n * Nat.pow 10 (9 - (cs.length - rest.length)), rest.dropWhile Char.isDigit)
  | cs => some (0, cs)

/-- Two digits. -/
def pair? : List Char → Option (Nat × List Char)
  | a :: b :: cs => (decimal? [a, b]).map (·, cs)
  | _ => none

/-- An offset from UTC in seconds: nothing, or hours and minutes after a sign. -/
def offset? : List Char → Option (Int × List Char)
  | 'Z' :: cs | 'z' :: cs => some (0, cs)
  | a :: cs =>
    if (a :: cs.take 2).map Char.toUpper = ['U', 'T', 'C'] then some (0, cs.drop 2)
    else do
      guard (a = '+' ∨ a = '-' ∨ a = '\u2212')
      let (hours, cs) ← pair? cs
      let (minutes, cs) ← pair? (cs.dropWhile fun c => c == ':' || isBlank c)
      guard (minutes < 60 ∧ hours < 24)
      let seconds : Int := hours * 3600 + minutes * 60
      return (if a = '+' then seconds else -seconds, cs)
  | [] => none

/-- The greatest and the least year that a date is written with. -/
def isYear (year : Int) : Bool := -262143 ≤ year && year ≤ 262142

/-- The instant that a text names. The last second of a minute is the 60th if it is a leap
    second, whatever the day. -/
def ofChars? (cs : List Char) : Option Instant := do
  let (year, cs) ← year? cs
  let (month, cs) ← field? 13 (← after? '-' cs)
  let (day, cs) ← field? 32 (← after? '-' cs)
  let (hour, cs) ← field? 24 (← time? cs)
  let (minute, cs) ← field? 60 (← after? ':' cs)
  let (second, cs) ← field? 61 (← after? ':' cs)
  let (nanos, cs) ← fraction? cs
  let (offset, cs) ← offset? (trimStart cs)
  guard ((trimStart cs).isEmpty && isYear year)
  let days ← (Date.mk year month day).day?
  let time : Int := hour * 3600 + minute * 60 + min second 59
  ofCount? (days * 86400 + time - offset) (nanos + if second = 60 then 1000000000 else 0)

def ofText? (text : String) : Option Instant := ofChars? text.toList

end Giro.Instant
