import Giro.Calendar
import Mathlib

/-
  Giro.Proofs.Calendar — the calendar counts days without gaps: a day has one date, and the
  date names that day again (`day?_ofDay`).

  A year begins where the year before it ends (`daysBefore_succ`), so a day falls into the
  one year whose bounds hold it (`yearOf_spec`). Inside the year the months are counted off
  one by one, forwards and backwards (`daysBefore?_monthAndDay`).
-/

namespace Giro.Calendar

/-! ## Years -/

theorem sum_months (year : Int) : (months year).sum = if isLeap year then 366 else 365 := by
  unfold months
  split <;> rfl

theorem isLeap_iff (year : Int) : isLeap year ↔ year % 4 = 0 ∧ (year % 100 ≠ 0 ∨ year % 400 = 0) := by
  simp [isLeap]

/-- A year is as long as its months. -/
theorem daysBefore_succ (year : Int) : daysBefore (year + 1) = daysBefore year + ((months year).sum : Nat) := by
  rw [sum_months]
  unfold daysBefore
  by_cases h : isLeap year
  · rw [if_pos h]
    rw [isLeap_iff] at h
    omega
  · rw [if_neg h]
    rw [isLeap_iff] at h
    omega

theorem daysBefore_mono {a b : Int} (h : a ≤ b) : daysBefore a ≤ daysBefore b := by
  rcases h.eq_or_lt with rfl | h
  · exact le_rfl
  · unfold daysBefore
    omega

/-- A day falls into the year whose bounds hold it. -/
theorem yearOf_spec (day : Int) : daysBefore (yearOf day) ≤ day ∧ day < daysBefore (yearOf day + 1) := by
  unfold yearOf
  dsimp only
  split
  · rename_i h
    refine ⟨?_, by rw [sub_add_cancel]; exact h⟩
    unfold daysBefore at h ⊢
    omega
  · split
    · rename_i hle h
      refine ⟨h, ?_⟩
      unfold daysBefore at h ⊢
      omega
    · rename_i hle hlt
      exact ⟨not_lt.1 hle, not_le.1 hlt⟩

theorem le_yearOf {year day : Int} (h : daysBefore year ≤ day) : year ≤ yearOf day := by
  by_contra hlt
  have hyear := daysBefore_mono (show yearOf day + 1 ≤ year by omega)
  have hday := (yearOf_spec day).2
  omega

theorem yearOf_le {year day : Int} (h : day < daysBefore (year + 1)) : yearOf day ≤ year := by
  by_contra hlt
  have hyear := daysBefore_mono (show year + 1 ≤ yearOf day by omega)
  have hday := (yearOf_spec day).1
  omega

/-! ## Months -/

theorem monthAndDay_pos (lengths : List Nat) (days : Nat) : 1 ≤ (monthAndDay lengths days).1 := by
  cases lengths with
  | nil => exact le_rfl
  | cons length lengths =>
    unfold monthAndDay
    split
    · exact le_rfl
    · exact Nat.le_add_left 1 _

/-- Days are counted off and counted together again. -/
theorem daysBefore?_monthAndDay {lengths : List Nat} {days : Nat} (h : days < lengths.sum) :
    daysBefore? lengths (monthAndDay lengths days).1 (monthAndDay lengths days).2 = some days := by
  induction lengths generalizing days with
  | nil => cases h
  | cons length lengths ih =>
    rw [List.sum_cons] at h
    unfold monthAndDay
    split
    · rename_i hlt
      rw [daysBefore?, if_pos (by omega)]
      rfl
    · rename_i hle
      have hpos := monthAndDay_pos lengths (days - length)
      obtain ⟨month, hmonth⟩ := Nat.exists_eq_add_of_le' hpos
      have hrest := ih (show days - length < lengths.sum by omega)
      rw [hmonth] at hrest
      dsimp only
      rw [hmonth, daysBefore?, hrest, Option.map_some]
      congr 1
      omega

theorem monthAndDay_le {lengths : List Nat} {longest days : Nat} (hlengths : ∀ length ∈ lengths, length ≤ longest)
    (h : days < lengths.sum) :
    (monthAndDay lengths days).1 ≤ lengths.length ∧ (monthAndDay lengths days).2 ≤ longest := by
  induction lengths generalizing days with
  | nil => cases h
  | cons length lengths ih =>
    obtain ⟨hlength, hlengths⟩ := List.forall_mem_cons.1 hlengths
    rw [List.sum_cons] at h
    unfold monthAndDay
    split
    · rename_i hlt
      exact ⟨Nat.le_add_left 1 _, by omega⟩
    · rename_i hle
      obtain ⟨hmonth, hday⟩ := ih hlengths (show days - length < lengths.sum by omega)
      exact ⟨Nat.succ_le_succ hmonth, hday⟩

/-! ## Dates -/

theorem day_lt_year (n : Int) :
    (n + epochDay - daysBefore (yearOf (n + epochDay))).toNat < (months (yearOf (n + epochDay))).sum := by
  obtain ⟨hle, hlt⟩ := yearOf_spec (n + epochDay)
  rw [daysBefore_succ] at hlt
  omega

theorem ofDay_eq (n : Int) :
    let year := yearOf (n + epochDay)
    let date := monthAndDay (months year) (n + epochDay - daysBefore year).toNat
    Date.ofDay n = ⟨year, date.1, date.2⟩ := rfl

/-- A day's date names that day. -/
theorem day?_ofDay (n : Int) : (Date.ofDay n).day? = some n := by
  have hle := (yearOf_spec (n + epochDay)).1
  rw [ofDay_eq, Date.day?, daysBefore?_monthAndDay (day_lt_year n)]
  show some (daysBefore (yearOf (n + epochDay)) + ((n + epochDay - daysBefore (yearOf (n + epochDay))).toNat : Int) -
    epochDay) = some n
  congr 1
  omega

theorem ofDay_le (n : Int) : (Date.ofDay n).month ≤ 12 ∧ (Date.ofDay n).day ≤ 31 := by
  refine monthAndDay_le ?_ (day_lt_year n)
  unfold months
  split <;> decide

end Giro.Calendar
