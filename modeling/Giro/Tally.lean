/-
  Giro.Tally — numbers kept under keys. A key that is absent stands for zero.
-/

namespace Giro

/-- Keys with their numbers, each key at most once, in the order of their first mention. -/
abbrev Tally (κ : Type) := List (κ × Int)

namespace Tally

variable {κ : Type} [DecidableEq κ]

/-- The number under a key. -/
def count (k : κ) : Tally κ → Int
  | [] => 0
  | (j, n) :: t => if j = k then n else count k t

/-- Adds to the number under a key; a new key is put last, even with a zero. -/
def add (k : κ) (n : Int) : Tally κ → Tally κ
  | [] => [(k, n)]
  | (j, m) :: t => if j = k then (j, m + n) :: t else (j, m) :: add k n t

/-- Removes a key. -/
def remove (k : κ) : Tally κ → Tally κ
  | [] => []
  | (j, n) :: t => if j = k then t else (j, n) :: remove k t

theorem count_add (t : Tally κ) (k : κ) (n : Int) (j : κ) :
    (t.add k n).count j = t.count j + if k = j then n else 0 := by
  induction t with
  | nil => simp [add, count]
  | cons p t ih =>
    obtain ⟨i, m⟩ := p
    unfold add
    split
    · rename_i h
      by_cases hj : i = j
      · simp [count, hj, ← h]
      · have : ¬ k = j := fun e => hj (h.trans e)
        simp [count, hj, this]
    · rename_i h
      by_cases hj : i = j
      · have : ¬ k = j := fun e => h (hj.trans e.symm)
        simp [count, hj, this]
      · simp [count, hj, ih]

end Tally

end Giro
