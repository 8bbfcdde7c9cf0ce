import Giro.Tally
import Mathlib

/-
  Giro.Proofs.Tally — sums over tallies: what a list of additions makes of each number
  (`count_addAll`), which keys are mentioned (`mem_keys_addAll`), and the sum of a group
  of keys (`groupSum`).
-/

namespace Giro.Tally

variable {κ ι : Type} [DecidableEq κ]

/-- The keys that are mentioned. -/
def keys (t : Tally κ) : List κ := t.map (·.1)

/-- Adds the number `g x` under the key `f x` for each `x`. -/
def addAll (f : ι → κ) (g : ι → Int) (xs : List ι) (t : Tally κ) : Tally κ :=
  xs.foldl (fun t x => t.add (f x) (g x)) t

/-! ## Adding -/

theorem mem_keys_add {t : Tally κ} {j k : κ} {n : Int} : j ∈ (t.add k n).keys ↔ j = k ∨ j ∈ t.keys := by
  induction t with
  | nil => simp [add, keys]
  | cons p t ih =>
    obtain ⟨i, m⟩ := p
    unfold add
    split
    · rename_i h
      simp [keys, h]
    · simp only [keys, List.map_cons, List.mem_cons] at ih ⊢
      rw [ih]
      exact or_left_comm

theorem nodup_keys_add {t : Tally κ} (h : t.keys.Nodup) (k : κ) (n : Int) : (t.add k n).keys.Nodup := by
  induction t with
  | nil => simp [add, keys]
  | cons p t ih =>
    obtain ⟨i, m⟩ := p
    obtain ⟨hi, ht⟩ := List.nodup_cons.1 h
    unfold add
    split
    · exact h
    · rename_i hne
      refine List.nodup_cons.2 ⟨fun hmem => ?_, ih ht⟩
      exact (mem_keys_add.1 hmem).elim hne hi

theorem count_addAll (f : ι → κ) (g : ι → Int) (xs : List ι) (t : Tally κ) (k : κ) :
    (t.addAll f g xs).count k = t.count k + ((xs.filter (f · = k)).map g).sum := by
  induction xs generalizing t with
  | nil => simp [addAll]
  | cons x xs ih =>
    show ((t.add (f x) (g x)).addAll f g xs).count k = _
    rw [ih, count_add]
    by_cases h : f x = k
    · simp [h, Int.add_assoc]
    · simp [h]

theorem mem_keys_addAll {f : ι → κ} {g : ι → Int} {xs : List ι} {t : Tally κ} {k : κ} :
    k ∈ (t.addAll f g xs).keys ↔ k ∈ t.keys ∨ ∃ x ∈ xs, f x = k := by
  induction xs generalizing t with
  | nil => simp [addAll]
  | cons x xs ih =>
    show k ∈ ((t.add (f x) (g x)).addAll f g xs).keys ↔ _
    rw [ih, mem_keys_add]
    simp only [List.mem_cons, exists_eq_or_imp]
    rw [eq_comm, or_assoc, or_left_comm]

theorem nodup_keys_addAll {t : Tally κ} (h : t.keys.Nodup) (f : ι → κ) (g : ι → Int) (xs : List ι) :
    (t.addAll f g xs).keys.Nodup := by
  induction xs generalizing t with
  | nil => exact h
  | cons x xs ih => exact ih (nodup_keys_add h _ _)

/-! ## Removing -/

theorem count_remove_of_ne {t : Tally κ} {j k : κ} (h : j ≠ k) : (t.remove k).count j = t.count j := by
  induction t with
  | nil => rfl
  | cons p t ih =>
    obtain ⟨i, m⟩ := p
    unfold remove
    split
    · rename_i hi
      have : i ≠ j := fun e => h (e.symm.trans hi)
      simp [count, this]
    · by_cases hij : i = j
      · simp [count, hij]
      · simp [count, hij, ih]

theorem mem_keys_remove {t : Tally κ} (h : t.keys.Nodup) {j k : κ} : j ∈ (t.remove k).keys ↔ j ∈ t.keys ∧ j ≠ k := by
  induction t with
  | nil => simp [remove, keys]
  | cons p t ih =>
    obtain ⟨i, m⟩ := p
    obtain ⟨hi, ht⟩ := List.nodup_cons.1 h
    have hcons : j ∈ keys ((i, m) :: t) ↔ j = i ∨ j ∈ keys t := List.mem_cons
    unfold remove
    split
    · rename_i hik
      rw [hcons]
      constructor
      · intro hj
        exact ⟨.inr hj, fun e => hi (by rw [hik, ← e]; exact hj)⟩
      · rintro ⟨rfl | hj, hne⟩
        · exact absurd hik hne
        · exact hj
    · rename_i hik
      have hcons' : j ∈ keys ((i, m) :: remove k t) ↔ j = i ∨ j ∈ keys (remove k t) := List.mem_cons
      rw [hcons, hcons', ih ht]
      constructor
      · rintro (rfl | ⟨hj, hne⟩)
        · exact ⟨.inl rfl, hik⟩
        · exact ⟨.inr hj, hne⟩
      · rintro ⟨rfl | hj, hne⟩
        · exact .inl rfl
        · exact .inr ⟨hj, hne⟩

theorem count_eq_zero {t : Tally κ} {k : κ} (h : k ∉ t.keys) : t.count k = 0 := by
  induction t with
  | nil => rfl
  | cons p t ih =>
    have hne : p.1 ≠ k := fun e => h (List.mem_map.2 ⟨p, .head _, e⟩)
    rw [count, if_neg hne, ih fun hk => h (List.mem_cons_of_mem _ hk)]

/-- A key that is removed counts as zero again. -/
theorem count_remove {t : Tally κ} (h : t.keys.Nodup) (j k : κ) :
    (t.remove k).count j = if j = k then 0 else t.count j := by
  split
  · rename_i hjk
    exact count_eq_zero fun hmem => ((mem_keys_remove h).1 hmem).2 hjk
  · rename_i hjk
    exact count_remove_of_ne hjk

/-- The number beside a key is the one under it. -/
theorem count_of_mem {t : Tally κ} (h : t.keys.Nodup) {p : κ × Int} (hp : p ∈ t) : t.count p.1 = p.2 := by
  induction t with
  | nil => cases hp
  | cons q t ih =>
    obtain ⟨hq, ht⟩ := List.nodup_cons.1 h
    obtain rfl | hp := List.mem_cons.1 hp
    · exact if_pos rfl
    · have hne : q.1 ≠ p.1 := fun e => hq (List.mem_map.2 ⟨p, hp, e.symm⟩)
      rw [count, if_neg hne, ih ht hp]

theorem nodup_keys_remove {t : Tally κ} (h : t.keys.Nodup) (k : κ) : (t.remove k).keys.Nodup := by
  induction t with
  | nil => exact h
  | cons p t ih =>
    obtain ⟨i, m⟩ := p
    obtain ⟨hi, ht⟩ := List.nodup_cons.1 h
    unfold remove
    split
    · exact ht
    · exact List.nodup_cons.2 ⟨fun hmem => hi ((mem_keys_remove ht).1 hmem).1, ih ht⟩

/-! ## Groups of keys -/

/-- The sum of the numbers whose key is in the group `f · = j`. -/
def groupSum {ν : Type} [DecidableEq ν] (f : κ → ν) (j : ν) (t : Tally κ) : Int :=
  ((t.filter fun p => f p.1 = j).map (·.2)).sum

theorem groupSum_add {ν : Type} [DecidableEq ν] (f : κ → ν) (j : ν) (t : Tally κ) (k : κ) (n : Int) :
    groupSum f j (t.add k n) = groupSum f j t + if f k = j then n else 0 := by
  induction t with
  | nil => by_cases h : f k = j <;> simp [add, groupSum, h]
  | cons p t ih =>
    obtain ⟨i, m⟩ := p
    unfold add
    split
    · rename_i h
      subst h
      by_cases hi : f i = j
      · simp [groupSum, hi]; omega
      · simp [groupSum, hi]
    · simp only [groupSum] at ih ⊢
      by_cases hi : f i = j
      · simp [hi, ih]; omega
      · simp [hi, ih]

omit [DecidableEq κ] in
/-- Numbers that are not negative come to less when there are fewer of them. -/
theorem groupSum_subperm {ν : Type} [DecidableEq ν] {part t : Tally κ} (hpart : part.Subperm t)
    (ht : ∀ p ∈ t, 0 ≤ p.2) (f : κ → ν) (j : ν) : 0 ≤ groupSum f j part ∧ groupSum f j part ≤ groupSum f j t := by
  obtain ⟨sub, hperm, hsub⟩ := hpart
  have hsum : groupSum f j sub = groupSum f j part := ((hperm.filter _).map _).sum_eq
  have hnumbers : ((sub.filter fun p => f p.1 = j).map (·.2)).Sublist ((t.filter fun p => f p.1 = j).map (·.2)) :=
    (hsub.filter _).map _
  have hnonneg : ∀ n ∈ (t.filter fun p => f p.1 = j).map (·.2), 0 ≤ n := by
    intro n hn
    obtain ⟨p, hp, rfl⟩ := List.mem_map.1 hn
    exact ht p (List.mem_filter.1 hp).1
  rw [← hsum]
  exact ⟨List.sum_nonneg fun n hn => hnonneg n (hnumbers.subset hn), hnumbers.sum_le_sum hnonneg⟩

end Giro.Tally
