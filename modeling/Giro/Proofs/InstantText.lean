import Giro.Instant.Text
import Giro.Proofs.Calendar
import Giro.Proofs.Digits
import Mathlib

/-
  Giro.Proofs.InstantText — an instant is read back from its text as a clock shows it
  (`ofText?_toText`).

  One lemma for each part of the text: what is written is read, and the rest is left as it
  is. Padded numbers have just the width that their readers take, so that no digit of the
  next part is taken with them; a year with a sign and a fraction end at the first character
  that is no digit.

  Nanoseconds of 10^9 and more add one to the second that is written. After the 59th of a
  minute that is a leap second, and it is read as one; after any other it is just the next
  second (`shown`).
-/

namespace Giro

namespace Instant

open Calendar Text

/-! ## Numbers -/

theorem isDigit_of_mem_padded (width n : Nat) : ∀ c ∈ padded width n, c.isDigit := by
  intro c hc
  rcases List.mem_append.1 hc with hc | hc
  · rw [List.eq_of_mem_replicate hc]
    rfl
  · exact isDigit_of_mem_toDigits n c hc

theorem padded_ne_nil (width n : Nat) : padded width n ≠ [] :=
  List.append_ne_nil_of_right_ne_nil _ Nat.toDigits_ne_nil

theorem length_padded {width n : Nat} (hwidth : 0 < width) (h : n < 10 ^ width) : (padded width n).length = width := by
  have hlength := (Nat.length_toDigits_le_iff (by decide) hwidth).2 h
  simp only [padded, List.length_append, List.length_replicate]
  omega

theorem ofDigitChars_padded (width n : Nat) : Nat.ofDigitChars 10 (padded width n) 0 = n := by
  simp only [padded, Nat.ofDigitChars_append, Nat.ofDigitChars_replicate_zero, mul_zero, Nat.ofDigitChars_ten_toDigits]

theorem trimStart_padded (width n : Nat) (rest : List Char) :
    trimStart (padded width n ++ rest) = padded width n ++ rest := by
  obtain ⟨d, ds, hds, hd⟩ := exists_digit (isDigit_of_mem_padded width n) (padded_ne_nil width n)
  rw [hds, List.cons_append, trimStart_cons (not_isBlank_of_isDigit hd)]

/-- A number is read that fills the limit, or that is followed by no digit. -/
theorem upTo?_padded {limit width n : Nat} {rest : List Char} (hle : (padded width n).length ≤ limit)
    (hrest : (padded width n).length = limit ∨ NoDigit rest) :
    upTo? limit (padded width n ++ rest) = some (n, rest) := by
  have htake : (padded width n ++ rest).take limit = padded width n ++ rest.take (limit - (padded width n).length) := by
    rw [List.take_append, List.take_of_length_le hle]
  have hends : NoDigit (rest.take (limit - (padded width n).length)) := by
    rcases hrest with hfull | hrest
    · rw [hfull, Nat.sub_self]
      exact noDigit_nil
    · exact hrest.take _
  simp only [upTo?, htake, takeWhile_digits (isDigit_of_mem_padded width n) hends, List.drop_left,
    decimal?_digits (isDigit_of_mem_padded width n) (padded_ne_nil width n), ofDigitChars_padded, Option.map_some]

/-! ## Parts -/

theorem field?_padded {limit n : Nat} (h : n < limit) (hlimit : limit ≤ 100) (rest : List Char) :
    field? limit (padded 2 n ++ rest) = some (n, rest) := by
  have hlength : (padded 2 n).length = 2 := length_padded (by decide) (by omega)
  rw [field?, trimStart_padded, upTo?_padded hlength.le (.inl hlength)]
  exact if_pos h

theorem after?_self {separator : Char} (h : isBlank separator = false) (cs : List Char) :
    after? separator (separator :: cs) = some cs := by
  rw [after?, trimStart_cons h]
  exact if_pos rfl

theorem year?_of_digit {d : Char} (hd : d.isDigit) (cs : List Char) :
    year? (d :: cs) = (upTo? 4 (d :: cs)).map fun (n, cs) => (n, cs) := by
  rw [year?, trimStart_cons (not_isBlank_of_isDigit hd)]
  split
  · rename_i heq
    obtain ⟨rfl, -⟩ := List.cons.inj heq
    exact absurd hd (by decide)
  · rename_i heq
    obtain ⟨rfl, -⟩ := List.cons.inj heq
    exact absurd hd (by decide)
  · rfl

theorem year?_yearChars (year : Int) (rest : List Char) :
    year? (yearChars year ++ '-' :: rest) = some (year, '-' :: rest) := by
  have hrest : NoDigit ('-' :: rest) := noDigit_cons (by decide) rest
  unfold yearChars
  split
  · rename_i h
    have hlength : (padded 4 year.natAbs).length = 4 := length_padded (by decide) (by omega)
    have hread := upTo?_padded hlength.le (.inr hrest)
    obtain ⟨d, ds, hds, hd⟩ := exists_digit (isDigit_of_mem_padded 4 year.natAbs) (padded_ne_nil 4 year.natAbs)
    rw [hds, List.cons_append] at hread
    rw [hds, List.cons_append, year?_of_digit hd, hread]
    show some ((year.natAbs : Int), '-' :: rest) = some (year, '-' :: rest)
    rw [Int.natAbs_of_nonneg h.1]
  · have hread : upTo? (padded 4 year.natAbs ++ '-' :: rest).length (padded 4 year.natAbs ++ '-' :: rest) =
        some (year.natAbs, '-' :: rest) := upTo?_padded (by rw [List.length_append]; omega) (.inr hrest)
    split
    · rename_i hneg
      refine (congrArg (Option.map fun (n, cs) => (-(n : Int), cs)) hread).trans ?_
      show some (-(year.natAbs : Int), '-' :: rest) = some (year, '-' :: rest)
      congr 2
      omega
    · rename_i hpos
      refine (congrArg (Option.map fun (n, cs) => ((n : Int), cs)) hread).trans ?_
      show some ((year.natAbs : Int), '-' :: rest) = some (year, '-' :: rest)
      congr 2
      omega

/-- A fraction of some digits counts for as many nanoseconds as the digits leave out. -/
theorem fraction?_padded {width n : Nat} (hwidth : 0 < width) (hle : width ≤ 9) (h : n < 10 ^ width)
    {rest : List Char} (hrest : NoDigit rest) :
    fraction? ('.' :: (padded width n ++ rest)) = some (n * 10 ^ (9 - width), rest) := by
  have hlength : (padded width n ++ rest).length - rest.length = width := by
    rw [List.length_append, length_padded hwidth h]
    omega
  have hread : upTo? 9 (padded width n ++ rest) = some (n, rest) :=
    upTo?_padded (by rw [length_padded hwidth h]; exact hle) (.inr hrest)
  rw [fraction?, hread]
  show some (n * 10 ^ (9 - ((padded width n ++ rest).length - rest.length)), rest.dropWhile Char.isDigit) = _
  rw [hlength, hrest.dropWhile]

theorem fraction?_fractionChars {nanos : Nat} (h : nanos < 1000000000) (rest : List Char) :
    fraction? (fractionChars nanos ++ 'Z' :: rest) = some (nanos, 'Z' :: rest) := by
  have hrest : NoDigit ('Z' :: rest) := noDigit_cons (by decide) rest
  unfold fractionChars
  split
  · rename_i hzero
    rw [hzero]
    rfl
  · split
    · rename_i hmilli
      rw [List.cons_append, fraction?_padded (by decide) (by decide) (by omega) hrest]
      congr 2
      omega
    · split
      · rename_i hmicro
        rw [List.cons_append, fraction?_padded (by decide) (by decide) (by omega) hrest]
        congr 2
        omega
      · rw [List.cons_append, fraction?_padded (by decide) (by decide) (by omega) hrest]
        congr 2
        omega

/-! ## Instants -/

/-- What a clock shows of an instant: nanoseconds of 10^9 and more go on into the next second,
    unless they make the 60th of a minute. -/
def shown (t : Instant) : Instant :=
  if h : 1000000000 ≤ t.nanos ∧ t.seconds % 60 ≠ 59 then
    { seconds := t.seconds + 1
      nanos := t.nanos - 1000000000
      first_le := by have := t.first_le; omega
      le_last := by have := t.le_last; omega
      nanos_lt := by have := t.nanos_lt; omega }
  else t

theorem shown_eq_self_iff (t : Instant) : t.shown = t ↔ (1000000000 ≤ t.nanos → t.seconds % 60 = 59) := by
  unfold shown
  split
  · rename_i h
    refine ⟨fun heq => ?_, fun hleap => absurd (hleap h.1) h.2⟩
    have hseconds : t.seconds + 1 = t.seconds := congrArg seconds heq
    omega
  · rename_i h
    simp only [true_iff]
    intro hnanos
    by_contra hseconds
    exact h ⟨hnanos, hseconds⟩

theorem ofCount?_eq_some_iff {seconds : Int} {nanos : Nat} {t : Instant} :
    ofCount? seconds nanos = some t ↔ t.seconds = seconds ∧ t.nanos = nanos ∧ t.shown = t := by
  rw [shown_eq_self_iff]
  unfold ofCount?
  constructor
  · intro h
    split at h
    · rename_i hcount
      obtain rfl := Option.some.inj h
      exact ⟨rfl, rfl, hcount.2.2.2⟩
    · cases h
  · rintro ⟨rfl, rfl, hleap⟩
    rw [dif_pos ⟨t.first_le, t.le_last, t.nanos_lt, hleap⟩]

theorem isYear_ofDay (t : Instant) : isYear (Date.ofDay (t.seconds / 86400)).year = true := by
  have hfirst := t.first_le
  have hlast := t.le_last
  have hle : -262143 ≤ yearOf (t.seconds / 86400 + epochDay) := by
    refine le_yearOf ?_
    have hbefore : daysBefore (-262143) = -95745764 := by decide
    rw [hbefore, epochDay]
    omega
  have hge : yearOf (t.seconds / 86400 + epochDay) ≤ 262142 := by
    refine yearOf_le ?_
    have hbefore : daysBefore (262142 + 1) = 95745765 := by decide
    rw [hbefore, epochDay]
    omega
  rw [ofDay_eq]
  simp only [isYear, hle, hge, decide_true, Bool.and_self]

theorem chars_eq (t : Instant) :
    t.chars = yearChars (Date.ofDay (t.seconds / 86400)).year ++ '-' ::
      (padded 2 (Date.ofDay (t.seconds / 86400)).month ++ '-' ::
      (padded 2 (Date.ofDay (t.seconds / 86400)).day ++ 'T' ::
      (padded 2 ((t.seconds % 86400).toNat / 3600) ++ ':' ::
      (padded 2 ((t.seconds % 86400).toNat % 3600 / 60) ++ ':' ::
      (padded 2 ((t.seconds % 86400).toNat % 60 + t.nanos / 1000000000) ++
      (fractionChars (t.nanos % 1000000000) ++ 'Z' :: [])))))) := by
  simp only [chars, List.append_assoc, List.cons_append]

theorem shown_count (t : Instant) :
    t.shown.seconds = t.seconds + (if 1000000000 ≤ t.nanos ∧ t.seconds % 60 ≠ 59 then 1 else 0) ∧
      t.shown.nanos = t.nanos - (if 1000000000 ≤ t.nanos ∧ t.seconds % 60 ≠ 59 then 1000000000 else 0) := by
  unfold shown
  split
  · exact ⟨rfl, rfl⟩
  · exact ⟨(Int.add_zero _).symm, rfl⟩

theorem shown_shown (t : Instant) : t.shown.shown = t.shown := by
  rw [shown_eq_self_iff]
  obtain ⟨hseconds, hnanos⟩ := t.shown_count
  have := t.nanos_lt
  split at hseconds <;> split at hnanos <;> omega

/-- An instant is read back part by part, as a clock shows it. -/
theorem ofChars?_chars (t : Instant) : ofChars? t.chars = some t.shown := by
  obtain ⟨hmonth, hday⟩ := ofDay_le (t.seconds / 86400)
  have hyear := isYear_ofDay t
  have hdate := day?_ofDay (t.seconds / 86400)
  have hnanos := t.nanos_lt
  have hhour : (t.seconds % 86400).toNat / 3600 < 24 := by omega
  have hminute : (t.seconds % 86400).toNat % 3600 / 60 < 60 := by omega
  have hsecond : (t.seconds % 86400).toNat % 60 + t.nanos / 1000000000 < 61 := by omega
  have hfraction : t.nanos % 1000000000 < 1000000000 := by omega
  rw [chars_eq]
  generalize Date.ofDay (t.seconds / 86400) = date at *
  unfold ofChars?
  refine (bind_of_some (year?_yearChars _ _)).trans ?_
  refine (bind_of_some (after?_self (by decide) _)).trans ?_
  refine (bind_of_some (field?_padded (Nat.lt_succ_of_le hmonth) (by decide) _)).trans ?_
  refine (bind_of_some (after?_self (by decide) _)).trans ?_
  refine (bind_of_some (field?_padded (Nat.lt_succ_of_le hday) (by decide) _)).trans ?_
  refine (bind_of_some (show time? ('T' :: _) = some _ from rfl)).trans ?_
  refine (bind_of_some (field?_padded hhour (by decide) _)).trans ?_
  refine (bind_of_some (after?_self (by decide) _)).trans ?_
  refine (bind_of_some (field?_padded hminute (by decide) _)).trans ?_
  refine (bind_of_some (after?_self (by decide) _)).trans ?_
  refine (bind_of_some (field?_padded hsecond (by decide) _)).trans ?_
  refine (bind_of_some (fraction?_fractionChars hfraction _)).trans ?_
  refine (bind_of_some (show offset? (trimStart ['Z']) = some (0, []) from rfl)).trans ?_
  refine (bind_of_some (show guard (((trimStart []).isEmpty && isYear date.year) = true) = some () from ?_)).trans ?_
  · rw [hyear]
    rfl
  refine (bind_of_some hdate).trans ?_
  obtain ⟨hseconds, hshown⟩ := t.shown_count
  refine ofCount?_eq_some_iff.2 ⟨?_, ?_, t.shown_shown⟩
  · rw [hseconds]
    split <;> omega
  -- the 60th second is read only where nothing was carried into the next second
  · rw [hshown]
    split <;> split <;> omega

/-- An instant is read back from its text as a clock shows it. -/
theorem ofText?_toText (t : Instant) : ofText? t.toText = some t.shown := by
  rw [ofText?, toText, String.toList_ofList, ofChars?_chars]

/-- What is read is what a clock shows. -/
theorem shown_of_ofText? {text : String} {t : Instant} (h : ofText? text = some t) : t.shown = t := by
  have hbind {α β : Type} {x : Option α} {f : α → Option β} {b : β} (h : x.bind f = some b) : ∃ a, f a = some b := by
    obtain ⟨a, -, ha⟩ := Option.bind_eq_some_iff.1 h
    exact ⟨a, ha⟩
  obtain ⟨year, h⟩ := hbind h
  obtain ⟨_, h⟩ := hbind h
  obtain ⟨month, h⟩ := hbind h
  obtain ⟨_, h⟩ := hbind h
  obtain ⟨day, h⟩ := hbind h
  obtain ⟨_, h⟩ := hbind h
  obtain ⟨hour, h⟩ := hbind h
  obtain ⟨_, h⟩ := hbind h
  obtain ⟨minute, h⟩ := hbind h
  obtain ⟨_, h⟩ := hbind h
  obtain ⟨second, h⟩ := hbind h
  obtain ⟨nanos, h⟩ := hbind h
  obtain ⟨offset, h⟩ := hbind h
  obtain ⟨_, h⟩ := hbind h
  obtain ⟨days, h⟩ := hbind h
  exact (ofCount?_eq_some_iff.1 h).2.2

end Instant

end Giro
