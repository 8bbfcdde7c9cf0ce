import Giro.Proofs.Leads

/-
  Giro.Proofs.Ascent — two things that a program keeps whatever it is answered.

  `Climbs`: it locks rows in ascending order. Each row it asks for is locked already or is
  greater than all that are, and after an error it asks for nothing more. `Within n`: it
  ends after at most `n` steps. A transfer climbs (`transfer_climbs`), because
  `lockOrder` puts the smaller id first, and ends within twelve steps (`transfer_within`).
-/

namespace Giro

/-- The row that a call locks, as a set. -/
def Call.rows (c : Call) : Set Int := { row | c.row? = some row }

namespace Work

variable {α β : Type}

/-- With these rows locked the program asks only for them and for greater ones, and ends
    with rows locked as `post` says; an error is the end. -/
def Climbs (post : Set Int → Prop) : Set Int → Work α → Prop
  | held, done (.ok _) => post held
  | _, done (.error _) => True
  | held, call c next => (∀ row ∈ c.rows, row ∈ held ∨ ∀ r ∈ held, r < row) ∧
      (∀ e, next (.error e) = done (.error e)) ∧ ∀ a, Climbs post (held ∪ c.rows) (next (.ok a))
  | held, report _ next => Climbs post held next
  | held, trace _ next => Climbs post held next
  | held, sleep _ next => Climbs post held next

/-- Ends after at most so many steps: calls, reports, entries on the record and sleeps. -/
def Within : Nat → Work α → Prop
  | _, done _ => True
  | 0, _ => False
  | n + 1, call _ next => ∀ r, Within n (next r)
  | n + 1, report _ next => Within n next
  | n + 1, trace _ next => Within n next
  | n + 1, sleep _ next => Within n next

/-- What is left of a program that climbs climbs. -/
theorem Climbs.leads {p q : Work α} {post : Set Int → Prop} {held : Set Int} (h : p.Climbs post held) {l : Transcript}
    (hl : p.Leads l q) : ∃ held', q.Climbs post held' := by
  induction hl generalizing held with
  | nil => exact ⟨held, h⟩
  | call r _ ih =>
    obtain ⟨-, herror, hok⟩ := h
    cases r with
    | error e =>
      refine ih (show Climbs post held _ from ?_)
      rw [herror e]
      trivial
    | ok a => exact ih (hok a)
  | report _ ih => exact ih h
  | trace _ ih => exact ih h
  | sleep _ ih => exact ih h

/-- An error that it is answered with is its end. -/
theorem Climbs.refused {p : Work α} {post : Set Int → Prop} {held : Set Int} (h : p.Climbs post held) {l : Transcript}
    {c : Call} {next : Outcome c.Reply → Work α} (hl : p.Leads l (call c next)) (e : LedgerError) :
    p.Leads (l ++ [⟨c, .error e⟩]) (done (.error e)) := by
  obtain ⟨-, -, herror, -⟩ := h.leads hl
  have := hl.snoc (.error e)
  rwa [herror e] at this

theorem Climbs.bind {p : Work α} {f : α → Work β} {post post' : Set Int → Prop} {held : Set Int}
    (h : p.Climbs post held) (hf : ∀ held' a, post held' → (f a).Climbs post' held') : (p.bind f).Climbs post' held := by
  induction p generalizing held with
  | done r =>
    cases r with
    | error e => trivial
    | ok a => exact hf held a h
  | call c next ih =>
    obtain ⟨hrow, herror, hok⟩ := h
    exact ⟨hrow, fun e => congrArg (Work.bind · f) (herror e), fun a => ih (.ok a) (hok a)⟩
  | report event next ih => exact ih h
  | trace action next ih => exact ih h
  | sleep ms next ih => exact ih h

theorem Within.mono {p : Work α} {n m : Nat} (h : p.Within n) (hnm : n ≤ m) : p.Within m := by
  fun_induction Within n p generalizing m with
  | case1 n r => cases m <;> trivial
  | case2 => exact h.elim
  | case3 n c next ih =>
    obtain ⟨m, rfl⟩ : ∃ k, m = k + 1 := ⟨m - 1, by omega⟩
    exact fun r => ih r (h r) (by omega)
  | case4 n event next ih | case5 n action next ih | case6 n ms next ih =>
    obtain ⟨m, rfl⟩ : ∃ k, m = k + 1 := ⟨m - 1, by omega⟩
    exact ih h (by omega)

theorem Within.bind {p : Work α} {f : α → Work β} {n m : Nat} (h : p.Within n) (hf : ∀ a, (f a).Within m) :
    (p.bind f).Within (n + m) := by
  fun_induction Within n p with
  | case1 n r =>
    cases r with
    | error e => cases n + m <;> trivial
    | ok a => exact (hf a).mono (by omega)
  | case2 => exact h.elim
  | case3 n c next ih =>
    rw [Nat.succ_add]
    exact fun r => ih r (h r)
  | case4 n event next ih | case5 n action next ih | case6 n ms next ih =>
    rw [Nat.succ_add]
    exact ih h

/-! ## The steps of a transfer -/

variable {held : Set Int} {row : Int}

theorem rows_of_none {c : Call} (h : c.row? = none) : c.rows = ∅ := by
  ext row
  simp [Call.rows, h]

theorem rows_of_some {c : Call} (h : c.row? = some row) : c.rows = {row} := by
  ext r
  simp [Call.rows, h, eq_comm]

/-- A row that is locked already, or greater than all that are, may be asked for. -/
theorem ask_climbs {c : Call} (h : ∀ row ∈ c.rows, row ∈ held ∨ ∀ r ∈ held, r < row) :
    (ask c).Climbs (· = held ∪ c.rows) held :=
  ⟨h, fun _ => rfl, fun _ => rfl⟩

theorem climbs_insert {c : Call} (h : c.row? = none) (held : Set Int) : (ask c).Climbs (· = held) held := by
  have hask : (ask c).Climbs (· = held ∪ c.rows) held := by
    refine ask_climbs ?_
    intro row hrow
    rw [rows_of_none h] at hrow
    exact hrow.elim
  rwa [rows_of_none h, Set.union_empty] at hask

theorem createTransfer_climbs (order : TransferOrder) (held : Set Int) :
    (createTransfer order).Climbs (· = held) held :=
  (climbs_insert rfl held).bind fun _ _ h => h

theorem createEntry_climbs (account amount : Int) (held : Set Int) :
    (createEntry account amount).Climbs (· = held) held :=
  (climbs_insert rfl held).bind fun _ _ h => h

theorem addBalance_climbs (h : row ∈ held ∨ ∀ r ∈ held, r < row) (delta : Int) :
    (addBalance row delta).Climbs (· = held ∪ {row}) held := by
  have hget : (Call.get row).rows = {row} := rows_of_some rfl
  rw [addBalance_eq]
  refine Climbs.bind (ask_climbs ?_) ?_
  · intro r hr
    rw [hget] at hr
    rw [Set.mem_singleton_iff.1 hr]
    exact h
  · rintro _ a rfl
    rw [hget]
    split
    · trivial
    · rename_i balance _
      have hupdate : (Call.update row balance).rows = {row} := rows_of_some rfl
      have hask : (ask (Call.update row balance)).Climbs (· = held ∪ {row} ∪ (Call.update row balance).rows)
          (held ∪ {row}) := ask_climbs fun r hr => .inl (.inr (hupdate ▸ hr))
      rwa [hupdate, Set.union_assoc, Set.union_self] at hask

/-- A transfer locks the row of the smaller id first. -/
theorem transfer_climbs (order : TransferOrder) : (transfer order).Climbs (fun _ => True) ∅ := by
  rw [transfer_eq]
  split
  · trivial
  · rename_i debit _
    refine (createTransfer_climbs order ∅).bind ?_
    rintro _ t rfl
    refine (createEntry_climbs order.source debit ∅).bind ?_
    rintro _ out rfl
    refine (createEntry_climbs order.destination order.amount ∅).bind ?_
    rintro _ into rfl
    split
    · rename_i hle
      refine (addBalance_climbs (.inr (by simp)) debit).bind ?_
      rintro _ source rfl
      have hnext : order.destination ∈ (∅ ∪ {order.source} : Set Int) ∨
          ∀ r ∈ (∅ ∪ {order.source} : Set Int), r < order.destination := by simp; omega
      exact (addBalance_climbs hnext order.amount).bind fun _ _ _ => trivial
    · rename_i hle
      refine (addBalance_climbs (.inr (by simp)) order.amount).bind ?_
      rintro _ destination rfl
      have hnext : order.source ∈ (∅ ∪ {order.destination} : Set Int) ∨
          ∀ r ∈ (∅ ∪ {order.destination} : Set Int), r < order.source := by simp; omega
      exact (addBalance_climbs hnext debit).bind fun _ _ _ => trivial

theorem createTransfer_within (order : TransferOrder) : (createTransfer order).Within 2 := by
  intro r
  cases r <;> trivial

theorem createEntry_within (account amount : Int) : (createEntry account amount).Within 2 := by
  intro r
  cases r <;> trivial

theorem addBalance_within (account delta : Int) : (addBalance account delta).Within 3 := by
  rw [addBalance_eq]
  refine Within.bind (n := 1) (m := 2) ?_ ?_
  · intro r
    cases r <;> trivial
  · intro a
    split
    · trivial
    · intro r
      trivial

/-- A transfer makes seven calls and five reports. -/
theorem transfer_within (order : TransferOrder) : (transfer order).Within 12 := by
  rw [transfer_eq]
  split
  · trivial
  · rename_i debit _
    have hsource : (addBalance order.source debit).Within 3 := addBalance_within order.source debit
    have hdestination : (addBalance order.destination order.amount).Within 3 :=
      addBalance_within order.destination order.amount
    refine Within.bind (n := 2) (m := 10) (createTransfer_within order) ?_
    intro _
    refine Within.bind (n := 2) (m := 8) (createEntry_within order.source debit) ?_
    intro _
    refine Within.bind (n := 2) (m := 6) (createEntry_within order.destination order.amount) ?_
    intro _
    split
    · exact Within.bind (m := 3) hsource fun _ => Within.bind (m := 0) hdestination fun _ => trivial
    · exact Within.bind (m := 3) hdestination fun _ => Within.bind (m := 0) hsource fun _ => trivial

end Work

end Giro
