import Giro.Text.Blank
import Giro.Text.Digits
import Mathlib

/-
  Giro.Proofs.Digits — digits in the middle of a text.

  A reader of numbers takes the digits that come next (`takeWhile_digits`) and leaves the rest
  (`dropWhile_digits`); both are known once no digit comes after them (`NoDigit`). A digit is
  no white space, so nothing is trimmed in front of a number.
-/

namespace Giro

/-- One step of a reader that succeeds. -/
theorem bind_of_some {α β : Type} {x : Option α} {a : α} {f : α → Option β} (h : x = some a) :
    (x >>= f) = f a := by
  rw [h]
  rfl

namespace Text

theorem not_isBlank_of_isDigit {c : Char} (h : c.isDigit) : isBlank c = false := by
  simp only [Char.isDigit, Bool.and_eq_true, decide_eq_true_eq, ge_iff_le, UInt32.le_iff_toNat_le] at h
  change 48 ≤ c.toNat ∧ c.toNat ≤ 57 at h
  have hblanks : ∀ n ∈ blanks, ¬ (48 ≤ n ∧ n ≤ 57) := by decide
  simp only [isBlank, List.contains_eq_mem, decide_eq_false_iff_not]
  exact fun hmem => hblanks _ hmem h

theorem trimStart_cons {c : Char} (h : isBlank c = false) (cs : List Char) : trimStart (c :: cs) = c :: cs :=
  List.dropWhile_cons_of_neg (by simp [h])

theorem isDigit_of_mem_toDigits (n : Nat) : ∀ c ∈ Nat.toDigits 10 n, c.isDigit := fun _ hc =>
  Nat.isDigit_of_mem_toDigits (by decide) (by decide) hc

theorem exists_digit {ds : List Char} (hds : ∀ c ∈ ds, c.isDigit) (hne : ds ≠ []) :
    ∃ d ds', ds = d :: ds' ∧ d.isDigit := by
  obtain ⟨d, ds', rfl⟩ := List.exists_cons_of_ne_nil hne
  exact ⟨d, ds', rfl, hds d List.mem_cons_self⟩

/-- No digit comes next. -/
def NoDigit (cs : List Char) : Prop := ∀ c ∈ cs.head?, c.isDigit = false

theorem noDigit_cons {c : Char} (h : c.isDigit = false) (cs : List Char) : NoDigit (c :: cs) := by
  intro c' hc'
  obtain rfl := Option.some.inj hc'
  exact h

theorem noDigit_nil : NoDigit [] := fun _ h => nomatch h

theorem NoDigit.take {cs : List Char} (h : NoDigit cs) (n : Nat) : NoDigit (cs.take n) := by
  intro c hc
  cases n with
  | zero => cases hc
  | succ n =>
    cases cs with
    | nil => cases hc
    | cons c' cs => exact h c hc

theorem takeWhile_digits {ds rest : List Char} (hds : ∀ c ∈ ds, c.isDigit) (hrest : NoDigit rest) :
    (ds ++ rest).takeWhile Char.isDigit = ds := by
  rw [List.takeWhile_append_of_pos hds]
  cases rest with
  | nil => exact List.append_nil ds
  | cons c cs => rw [List.takeWhile_cons_of_neg (by simp [hrest c rfl]), List.append_nil]

theorem NoDigit.dropWhile {cs : List Char} (h : NoDigit cs) : cs.dropWhile Char.isDigit = cs := by
  cases cs with
  | nil => rfl
  | cons c cs => rw [List.dropWhile_cons_of_neg (by simp [h c rfl])]

theorem dropWhile_digits {ds rest : List Char} (hds : ∀ c ∈ ds, c.isDigit) (hrest : NoDigit rest) :
    (ds ++ rest).dropWhile Char.isDigit = rest := by
  rw [List.dropWhile_append_of_pos hds, hrest.dropWhile]

theorem decimal?_digits {ds : List Char} (hds : ∀ c ∈ ds, c.isDigit) (hne : ds ≠ []) :
    decimal? ds = some (Nat.ofDigitChars 10 ds 0) := by
  have hempty : ds.isEmpty = false := by simpa using hne
  have hall : ds.all Char.isDigit = true := List.all_eq_true.2 hds
  simp [decimal?, hempty, hall]

end Text

end Giro
