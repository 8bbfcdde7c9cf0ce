import Giro.Record

/-
  Giro.Rows — a table of accounts: at most one row per id, in ascending order of ids.

  `Rows.put` writes one row and keeps the order; `Rows.find?` reads one. Main statements:
  a read after a write gives the written row at its id and the old row elsewhere
  (`find?_put`), and writing keeps the order (`Sorted.put`).
-/

namespace Giro

/-- Accounts in ascending order of ids. -/
abbrev Rows := List Account

namespace Rows

/-- The row of an id. -/
def find? (rows : Rows) (id : Int) : Option Account := List.find? (·.id == id) rows

/-- The id has a row. -/
def has (rows : Rows) (id : Int) : Bool := (find? rows id).isSome

/-- Writes the row of `a.id`, in its place. -/
def put (a : Account) : Rows → Rows
  | [] => [a]
  | r :: rows => if a.id < r.id then a :: r :: rows else if a.id = r.id then a :: rows else r :: put a rows

/-- Writes many rows, one after the other. -/
def putAll (new rows : Rows) : Rows := new.foldl (fun rows a => put a rows) rows

/-- Each id stands before all greater ones and occurs once. -/
def Sorted (rows : Rows) : Prop := rows.Pairwise (·.id < ·.id)

theorem id_of_find? {rows : Rows} {id : Int} {a : Account} (h : find? rows id = some a) : a.id = id := by
  simpa using List.find?_some h

theorem mem_of_find? {rows : Rows} {id : Int} {a : Account} (h : find? rows id = some a) : a ∈ rows :=
  List.mem_of_find?_eq_some h

theorem mem_put {a b : Account} {rows : Rows} (h : b ∈ put a rows) : b = a ∨ b ∈ rows := by
  induction rows with
  | nil => simpa [put] using h
  | cons r rows ih =>
    unfold put at h
    split at h
    · simpa using h
    · split at h
      · rcases List.mem_cons.1 h with h | h
        · exact .inl h
        · exact .inr (List.mem_cons_of_mem _ h)
      · rcases List.mem_cons.1 h with h | h
        · exact .inr (by simp [h])
        · exact (ih h).imp_right (List.mem_cons_of_mem _)

theorem Sorted.put {rows : Rows} (h : Sorted rows) (a : Account) : Sorted (Rows.put a rows) := by
  induction rows with
  | nil => simp [Rows.put, Sorted]
  | cons r rows ih =>
    obtain ⟨hr, hrows⟩ := List.pairwise_cons.1 h
    unfold Rows.put
    split
    · rename_i hlt
      exact List.pairwise_cons.2 ⟨fun b hb => by
        rcases List.mem_cons.1 hb with rfl | hb
        · exact hlt
        · exact Int.lt_trans hlt (hr b hb), h⟩
    · split
      · rename_i heq
        exact List.pairwise_cons.2 ⟨fun b hb => by rw [heq]; exact hr b hb, hrows⟩
      · refine List.pairwise_cons.2 ⟨fun b hb => ?_, ih hrows⟩
        rcases mem_put hb with rfl | hb
        · omega
        · exact hr b hb

theorem find?_cons (r : Account) (rows : Rows) (id : Int) :
    find? (r :: rows) id = if r.id = id then some r else find? rows id := by
  by_cases h : r.id = id <;> simp [find?, h]

theorem find?_put {rows : Rows} (h : Sorted rows) (a : Account) (id : Int) :
    find? (put a rows) id = if id = a.id then some a else find? rows id := by
  induction rows with
  | nil =>
    rw [put, find?_cons]
    by_cases hid : id = a.id
    · simp [hid]
    · simp [hid, Ne.symm hid]
  | cons r rows ih =>
    obtain ⟨hr, hrows⟩ := List.pairwise_cons.1 h
    unfold put
    split
    · rw [find?_cons]
      by_cases hid : id = a.id
      · simp [hid]
      · simp [hid, Ne.symm hid]
    · split
      · rename_i heq
        rw [find?_cons, find?_cons]
        by_cases hid : id = a.id
        · simp [hid]
        · have : ¬ r.id = id := fun hri => hid (by omega)
          simp [hid, this, eq_comm]
      · rename_i hne
        rw [find?_cons, find?_cons, ih hrows]
        by_cases hri : r.id = id
        · have : ¬ id = a.id := by omega
          simp [hri, this]
        · simp [hri]

end Rows

end Giro
