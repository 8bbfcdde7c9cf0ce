import Giro.Proofs.Audit
import Giro.Proofs.Operation
import Giro.Proofs.Posting

/-
  Giro.Proofs.Books — tables whose books are in order, with the accounts as they were
  opened: balances and entries in double entry, and the money that was put in at the
  openings, no more and no less. Opening an account and posting a transfer keep them in
  order (`Books.opened`, `Books.post`).
-/

namespace Giro

/-! ## Sums -/

namespace Audit

@[simp] theorem total_append (accounts accounts' : List Account) :
    total (accounts ++ accounts') = total accounts + total accounts' := by
  induction accounts with
  | nil => simp [total]
  | cons a accounts ih => simp only [List.cons_append, total, ih]; omega

@[simp] theorem entrySum_nil (account : Int) : entrySum [] account = 0 := rfl

@[simp] theorem entrySum_append (entries entries' : List Entry) (account : Int) :
    entrySum (entries ++ entries') account = entrySum entries account + entrySum entries' account := by
  simp [entrySum]

theorem entrySum_singleton (e : Entry) (account : Int) :
    entrySum [e] account = if e.account = account then e.amount else 0 := by
  by_cases h : e.account = account <;> simp [entrySum, h]

/-- An account without entries. -/
theorem entrySum_eq_zero {entries : List Entry} {account : Int} (h : ∀ e ∈ entries, e.account ≠ account) :
    entrySum entries account = 0 := by
  have : entries.filter (·.account = account) = [] := by simpa [List.filter_eq_nil_iff] using h
  rw [entrySum, this]
  rfl

/-- What an opening adds to the sums: its account's balance, and nothing to any other. -/
theorem entrySum_opening {a : Account} {opening : List Entry}
    (h : opening.map legOf = if a.balance = 0 then [] else [⟨a.id, a.balance⟩]) (account : Int) :
    entrySum opening account = if a.id = account then a.balance else 0 := by
  rw [entrySum_eq_legSum, h, legSum]
  by_cases hzero : a.balance = 0 <;> by_cases hid : a.id = account <;> simp [hzero, hid]

theorem account_of_opening {a : Account} {opening : List Entry}
    (h : opening.map legOf = if a.balance = 0 then [] else [⟨a.id, a.balance⟩]) {e : Entry} (he : e ∈ opening) :
    e.account = a.id := by
  have hmem : legOf e ∈ if a.balance = 0 then [] else [(⟨a.id, a.balance⟩ : Leg)] := h ▸ List.mem_map_of_mem he
  split at hmem
  · cases hmem
  · exact congrArg Leg.account (List.mem_singleton.1 hmem)

theorem total_map_add_of_ne {accounts : List Account} {row : Int} (h : ∀ a ∈ accounts, a.id ≠ row) (delta : Int) :
    total (accounts.map (Account.add row delta)) = total accounts := by
  induction accounts with
  | nil => rfl
  | cons a accounts ih =>
    obtain ⟨ha, hrest⟩ := List.forall_mem_cons.1 h
    rw [List.map_cons, total, total, ih hrest, Account.add, if_neg (Ne.symm ha)]

/-- More on one account is more in all. -/
theorem total_map_add {accounts : List Account} (h : (accounts.map (·.id)).Nodup) {row : Int}
    (hrow : ∃ a ∈ accounts, a.id = row) (delta : Int) :
    total (accounts.map (Account.add row delta)) = total accounts + delta := by
  induction accounts with
  | nil => obtain ⟨a, ha, -⟩ := hrow; cases ha
  | cons a accounts ih =>
    obtain ⟨ha, hrest⟩ := List.nodup_cons.1 h
    rw [List.map_cons, total, total]
    by_cases hid : a.id = row
    · have hne : ∀ b ∈ accounts, b.id ≠ row := fun b hb e => ha (List.mem_map.2 ⟨b, hb, e.trans hid.symm⟩)
      rw [total_map_add_of_ne hne, Account.add, if_pos hid.symm]
      show a.balance + delta + total accounts = _
      omega
    · have hrow' : ∃ b ∈ accounts, b.id = row := by
        obtain ⟨b, hb, hbid⟩ := hrow
        rcases List.mem_cons.1 hb with rfl | hb
        · exact absurd hbid hid
        · exact ⟨b, hb, hbid⟩
      rw [ih hrest hrow', Account.add, if_neg (Ne.symm hid)]
      omega

end Audit

/-! ## The tables after a transfer -/

namespace TransferReceipt

variable {r : TransferReceipt} {order : TransferOrder}

theorem apply_id (r : TransferReceipt) (a : Account) : (r.credit.apply (r.debit.apply a)).id = a.id := by
  rw [Entry.apply_id, Entry.apply_id]

theorem balance_apply (r : TransferReceipt) (a : Account) :
    (r.credit.apply (r.debit.apply a)).balance = a.balance + Audit.entrySum [r.debit, r.credit] a.id := by
  have hsplit : [r.debit, r.credit] = [r.debit] ++ [r.credit] := rfl
  rw [hsplit, Audit.entrySum_append, Audit.entrySum_singleton, Audit.entrySum_singleton]
  simp only [Entry.apply, Account.add]
  split <;> split <;> simp_all [Int.add_assoc]

theorem Settles.legs (h : r.Settles order) : [r.debit, r.credit].map Audit.legOf = Audit.legs r.transfer := by
  obtain ⟨htransfer, hdebit, hcredit, -⟩ := h
  subst htransfer
  rw [List.map_cons, List.map_cons, List.map_nil, hdebit, hcredit]
  rfl

theorem Settles.amount_pos (h : r.Settles order) : 0 < r.transfer.amount := by
  obtain ⟨htransfer, -, -, hpos⟩ := h
  rwa [← htransfer] at hpos

theorem Settles.account_mem (h : r.Settles order) {e : Entry} (he : e ∈ [r.debit, r.credit]) :
    e.account = order.source ∨ e.account = order.destination := by
  simp only [List.mem_cons, List.not_mem_nil, or_false] at he
  rcases he with rfl | rfl
  · exact .inl (congrArg Audit.Leg.account h.debit)
  · exact .inr (congrArg Audit.Leg.account h.credit)

end TransferReceipt

namespace Tables

theorem post_ids (t : Tables) (r : TransferReceipt) :
    (t.post r).accounts.map (·.id) = t.accounts.map (·.id) := by
  simp only [post, List.map_map]
  exact List.map_congr_left fun a _ => r.apply_id a

theorem has_post (t : Tables) (r : TransferReceipt) (id : Int) : (t.post r).accounts.has id = t.accounts.has id := by
  simp only [post, Rows.has, Rows.find?_map r.apply_id, Option.isSome_map]

/-- What the source gives the destination gets. -/
theorem total_post (t : Tables) {r : TransferReceipt} {order : TransferOrder} (hr : r.Settles order)
    (hnodup : (t.accounts.map (·.id)).Nodup) (hsource : t.accounts.has order.source = true)
    (hdestination : t.accounts.has order.destination = true) :
    Audit.total (t.post r).accounts = Audit.total t.accounts := by
  have hdebit := hr.debit
  have hcredit := hr.credit
  simp only [Audit.legOf, Audit.Leg.mk.injEq] at hdebit hcredit
  have hmap : (t.post r).accounts = (t.accounts.map (Account.add r.debit.account r.debit.amount)).map
      (Account.add r.credit.account r.credit.amount) := by
    simp only [post, List.map_map]
    rfl
  have hids : (t.accounts.map (Account.add r.debit.account r.debit.amount)).map (·.id) = t.accounts.map (·.id) := by
    simp [List.map_map, Function.comp_def]
  obtain ⟨a, ha, hida⟩ := Rows.has_iff.1 hdestination
  rw [hmap, Audit.total_map_add (hids ▸ hnodup), Audit.total_map_add hnodup, hdebit.2, hcredit.2]
  · omega
  · rw [hdebit.1]
    exact Rows.has_iff.1 hsource
  · rw [hcredit.1]
    exact ⟨_, List.mem_map_of_mem ha, by simpa using hida⟩

end Tables

/-! ## Books in order -/

/-- The books are in order, with the accounts as they were opened. -/
structure Tables.Books (t : Tables) (openings : List Account) : Prop where
  sorted : t.accounts.Sorted
  ids : (t.accounts.map (·.id)).Perm (openings.map (·.id))
  balanced : ∀ a ∈ t.accounts, a.balance = Audit.entrySum t.entries a.id
  known : ∀ e ∈ t.entries, t.accounts.has e.account = true
  positive : ∀ x ∈ t.transfers, 0 < x.amount
  /-- Every entry is a leg of a transfer or a balance other than zero at an opening. -/
  paired : (t.entries.map Audit.legOf).Perm (t.transfers.flatMap Audit.legs ++
    (openings.filter (·.balance ≠ 0)).map fun a => ⟨a.id, a.balance⟩)
  total : Audit.total t.accounts = Audit.total openings

namespace Tables.Books

variable {t : Tables} {openings : List Account}

theorem empty : Tables.Books {} [] where
  sorted := List.Pairwise.nil
  ids := .nil
  balanced _ h := by cases h
  known _ h := by cases h
  positive _ h := by cases h
  paired := .nil
  total := rfl

theorem doubleEntry (h : t.Books openings) : Audit.DoubleEntry t.accounts t.entries t.transfers where
  distinct := h.sorted.nodup_ids
  balanced := h.balanced
  known e he := Rows.has_iff.1 (h.known e he)
  positive := h.positive
  paired := by
    refine ⟨_, h.paired, ?_⟩
    intro a _
    have hnodup : (openings.map (·.id)).Nodup := h.ids.nodup_iff.1 h.sorted.nodup_ids
    have hle : (openings.filter (·.balance ≠ 0)).countP (·.id = a.id) ≤ (openings.map (·.id)).count a.id := by
      rw [List.count, List.countP_map]
      exact Nat.le_trans List.filter_sublist.countP_le (List.countP_mono_left fun b _ hb => by simpa using hb)
    rw [List.countP_map]
    exact Nat.le_trans hle (List.nodup_iff_count_le_one.1 hnodup a.id)

/-- A new account, with an entry of its opening balance unless that is zero. -/
theorem opened (h : t.Books openings) {a : Account} (hnew : t.accounts.has a.id = false) {opening : List Entry}
    (hopening : opening.map Audit.legOf = if a.balance = 0 then [] else [⟨a.id, a.balance⟩]) :
    Tables.Books { t with accounts := Rows.put a t.accounts, entries := t.entries ++ opening } (openings ++ [a]) := by
  have hput : (Rows.put a t.accounts).Perm (a :: t.accounts) := Rows.put_perm hnew
  have hother : ∀ b ∈ t.accounts, b.id ≠ a.id := by
    intro b hb heq
    rw [← heq, Rows.has_of_mem hb] at hnew
    cases hnew
  have hfresh : ∀ e ∈ t.entries, e.account ≠ a.id := by
    intro e he heq
    obtain ⟨b, hb, hid⟩ := Rows.has_iff.1 (h.known e he)
    exact hother b hb (hid.trans heq)
  constructor
  · exact h.sorted.put a
  · rw [List.map_append]
    exact (hput.map _).trans ((h.ids.cons a.id).trans (List.perm_append_singleton ..).symm)
  · intro b hb
    simp only [Audit.entrySum_append, Audit.entrySum_opening hopening]
    rcases Rows.mem_put hb with rfl | hb
    · rw [Audit.entrySum_eq_zero hfresh, if_pos rfl, Int.zero_add]
    · rw [h.balanced b hb, if_neg (Ne.symm (hother b hb)), Int.add_zero]
  · intro e he
    rw [Rows.has_put h.sorted, Bool.or_eq_true, decide_eq_true_iff]
    rcases List.mem_append.1 he with he | he
    · exact .inr (h.known e he)
    · exact .inl (Audit.account_of_opening hopening he)
  · exact h.positive
  · have hlegs : opening.map Audit.legOf = ([a].filter (·.balance ≠ 0)).map fun a => ⟨a.id, a.balance⟩ := by
      rw [hopening]
      by_cases hzero : a.balance = 0 <;> simp [hzero]
    rw [List.map_append, List.filter_append, List.map_append, hlegs, ← List.append_assoc]
    exact h.paired.append_right _
  · rw [Audit.total_of_accounts hput, Audit.total_append, ← h.total]
    simp only [Audit.total]
    omega

/-- A transfer between two accounts that exist. -/
theorem post (h : t.Books openings) {r : TransferReceipt} {order : TransferOrder} (hr : r.Settles order)
    (hsource : t.accounts.has order.source = true) (hdestination : t.accounts.has order.destination = true) :
    (t.post r).Books openings := by
  constructor
  · exact h.sorted.map r.apply_id
  · rw [t.post_ids]; exact h.ids
  · intro b hb
    obtain ⟨a, ha, rfl⟩ := List.mem_map.1 hb
    rw [r.balance_apply, r.apply_id, h.balanced a ha]
    exact (Audit.entrySum_append ..).symm
  · intro e he
    rw [t.has_post]
    rcases List.mem_append.1 he with he | he
    · exact h.known e he
    · rcases hr.account_mem he with hacc | hacc <;> rw [hacc]
      · exact hsource
      · exact hdestination
  · intro x hx
    rcases List.mem_append.1 hx with hx | hx
    · exact h.positive x hx
    · obtain rfl := List.mem_singleton.1 hx
      exact hr.amount_pos
  · simp only [Tables.post, List.map_append, List.flatMap_append, List.flatMap_singleton, hr.legs]
    refine (h.paired.append_right _).trans ?_
    rw [List.append_assoc, List.append_assoc]
    exact List.Perm.append_left _ List.perm_append_comm
  · rw [t.total_post hr h.sorted.nodup_ids hsource hdestination, h.total]

end Tables.Books

end Giro
