import Giro.Rows
import Mathlib

/-
  Giro.Proofs.Rows — more on tables of accounts in ascending order of ids: such a table is
  the same as its reads (`Sorted.ext`), many writes at once read like one after the other
  (`find?_putAll`), and a change of balances keeps the order (`Sorted.map`).
-/

namespace Giro.Rows

/-! ## Reading -/

theorem find?_eq_none_iff {rows : Rows} {id : Int} : find? rows id = none ↔ ∀ a ∈ rows, a.id ≠ id := by
  simp [find?]

theorem has_iff {rows : Rows} {id : Int} : has rows id = true ↔ ∃ a ∈ rows, a.id = id := by
  simp [has, find?]

theorem has_of_mem {rows : Rows} {a : Account} (h : a ∈ rows) : has rows a.id = true :=
  has_iff.2 ⟨a, h, rfl⟩

theorem has_eq_false_iff {rows : Rows} {id : Int} : has rows id = false ↔ find? rows id = none := by
  simp [has]

theorem has_of_find? {rows : Rows} {id : Int} {a : Account} (h : find? rows id = some a) :
    has rows id = true := by
  simp [has, h]

@[simp] theorem has_nil (id : Int) : has [] id = false := rfl

@[simp] theorem find?_nil (id : Int) : find? [] id = none := rfl

namespace Sorted

theorem nodup_ids {rows : Rows} (h : Sorted rows) : (rows.map (·.id)).Nodup :=
  List.pairwise_map.2 (h.imp fun hlt heq => absurd heq (Int.ne_of_lt hlt))

theorem nodup {rows : Rows} (h : Sorted rows) : rows.Nodup := h.nodup_ids.of_map _

theorem find?_of_mem {rows : Rows} (h : Sorted rows) {a : Account} (ha : a ∈ rows) :
    find? rows a.id = some a := by
  cases hf : find? rows a.id with
  | none => exact absurd rfl (find?_eq_none_iff.1 hf a ha)
  | some b => rw [List.inj_on_of_nodup_map h.nodup_ids (mem_of_find? hf) ha (id_of_find? hf)]

theorem mem_iff {rows : Rows} (h : Sorted rows) {a : Account} : a ∈ rows ↔ find? rows a.id = some a :=
  ⟨h.find?_of_mem, mem_of_find?⟩

/-- Two tables that read alike are the same. -/
theorem ext {rows rows' : Rows} (h : Sorted rows) (h' : Sorted rows')
    (hfind : ∀ id, find? rows id = find? rows' id) : rows = rows' := by
  have hperm : rows.Perm rows' := (List.perm_ext_iff_of_nodup h.nodup h'.nodup).2 fun a => by
    rw [h.mem_iff, h'.mem_iff, hfind]
  exact hperm.eq_of_pairwise (fun a b _ _ hab hba => absurd hab (Int.not_lt.2 (Int.le_of_lt hba))) h h'

/-- The first row that is found has the smallest id. -/
theorem le_of_find? {rows : Rows} (h : Sorted rows) {p : Account → Bool} {a : Account}
    (ha : List.find? p rows = some a) {b : Account} (hb : b ∈ rows) (hp : p b = true) : a.id ≤ b.id := by
  obtain ⟨-, before, after, rfl, hbefore⟩ := List.find?_eq_some_iff_append.1 ha
  rcases List.mem_append.1 hb with hb | hb
  · have := hbefore b hb
    simp [hp] at this
  · rcases List.mem_cons.1 hb with rfl | hb
    · exact Int.le_refl _
    · exact Int.le_of_lt (List.rel_of_pairwise_cons (List.pairwise_append.1 h).2.1 hb)

/-- A change that leaves the ids as they are leaves the order as it is. -/
theorem map {rows : Rows} (h : Sorted rows) {f : Account → Account} (hf : ∀ a, (f a).id = a.id) :
    Sorted (rows.map f) :=
  List.pairwise_map.2 (h.imp fun hlt => by rwa [hf, hf])

end Sorted

theorem find?_map {f : Account → Account} (hf : ∀ a, (f a).id = a.id) (rows : Rows) (id : Int) :
    find? (rows.map f) id = (find? rows id).map f := by
  induction rows with
  | nil => rfl
  | cons r rows ih =>
    rw [List.map_cons, find?_cons, find?_cons, ih, hf]
    split <;> rfl

/-! ## Writing -/

theorem has_put {rows : Rows} (h : Sorted rows) (a : Account) (id : Int) :
    has (put a rows) id = (decide (id = a.id) || has rows id) := by
  by_cases hid : id = a.id <;> simp [has, find?_put h, hid]

/-- Of an id that has no row the row is added. -/
theorem put_perm {rows : Rows} {a : Account} (h : has rows a.id = false) : (put a rows).Perm (a :: rows) := by
  induction rows with
  | nil => exact .refl _
  | cons r rows ih =>
    rw [has_eq_false_iff, find?_cons] at h
    have hne : r.id ≠ a.id := fun e => by simp [e] at h
    rw [if_neg hne, ← has_eq_false_iff] at h
    unfold put
    split
    · exact .refl _
    · rw [if_neg (Ne.symm hne)]
      exact ((ih h).cons r).trans (.swap a r rows)

theorem put_of_find? {rows : Rows} (h : Sorted rows) {a : Account} (ha : find? rows a.id = some a) :
    put a rows = rows := by
  refine (h.put a).ext h ?_
  intro id
  rw [find?_put h]
  split
  · rename_i hid; rw [hid, ha]
  · rfl

theorem put_put {rows : Rows} (h : Sorted rows) {a b : Account} (hab : a.id = b.id) :
    put b (put a rows) = put b rows := by
  refine ((h.put a).put b).ext (h.put b) ?_
  intro id
  rw [find?_put (h.put a), find?_put h, find?_put h, hab]
  split <;> rfl

theorem Sorted.putAll {rows : Rows} (h : Sorted rows) (new : Rows) : Sorted (Rows.putAll new rows) := by
  induction new generalizing rows with
  | nil => exact h
  | cons a new ih => exact ih (h.put a)

/-- After many writes each id reads as written, or as before. -/
theorem find?_putAll {new rows : Rows} (hnew : Sorted new) (h : Sorted rows) (id : Int) :
    find? (putAll new rows) id = (find? new id).or (find? rows id) := by
  induction new generalizing rows with
  | nil => rfl
  | cons a new ih =>
    obtain ⟨ha, hnew⟩ := List.pairwise_cons.1 hnew
    show find? (putAll new (put a rows)) id = _
    rw [ih hnew (h.put a), find?_put h, find?_cons]
    by_cases hid : a.id = id
    · have hnone : find? new id = none :=
        find?_eq_none_iff.2 fun b hb => hid ▸ Int.ne_of_gt (ha b hb)
      simp [hid, hnone]
    · simp [hid, Ne.symm hid]

theorem has_putAll {new rows : Rows} (hnew : Sorted new) (h : Sorted rows) (id : Int) :
    has (putAll new rows) id = (has new id || has rows id) := by
  rw [has, find?_putAll hnew h, has, has]
  cases find? new id <;> simp

/-- Writing rows of known ids makes no id known. -/
theorem has_putAll_of_known {new rows : Rows} (hnew : Sorted new) (h : Sorted rows)
    (hknown : ∀ a ∈ new, has rows a.id = true) (id : Int) : has (putAll new rows) id = has rows id := by
  rw [has_putAll hnew h]
  cases hn : has new id
  · rfl
  · obtain ⟨a, ha, rfl⟩ := has_iff.1 hn
    rw [hknown a ha, Bool.or_true]

end Giro.Rows
