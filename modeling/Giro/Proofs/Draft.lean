import Giro.Audit
import Giro.Call
import Giro.Proofs.Rows

/-
  Giro.Proofs.Draft — what a call does to a transaction's own view, locks aside.

  A draft is what an open transaction has staged. A call is answered from the draft and
  the committed rows alone (`Tables.answer`); the lock decides only when. So a log of
  answered calls leaves a draft that the rows fix (`Written`), and it leaves the same one
  over any rows that agree on the accounts the log speaks of (`Written.frame`): this is
  what a row lock protects. Ids and times of new records come from outside; the gist of
  an answer is the rest of it.
-/

namespace Giro

/-- What a transaction has staged. -/
def Transaction.draft (x : Transaction) : Tables := ⟨x.accounts, x.transfers, x.entries⟩

namespace Call

/-- The row whose lock a call takes. -/
def row? : Call → Option Int
  | get row => some row
  | update row _ => some row
  | insertTransfer _ => none
  | insertEntry .. => none

/-- The accounts a call names. -/
def accounts : Call → List Int
  | get row => [row]
  | update row _ => [row]
  | insertTransfer order => [order.source, order.destination]
  | insertEntry account _ => [account]

/-- What a call makes of the row it takes. -/
def edit : Call → Account → Account
  | update _ balance, a => { a with balance }
  | _, a => a

/-- The id that the record of a call would get. -/
def number (n : Counters) : Call → Int
  | insertTransfer _ => n.transfer
  | insertEntry .. => n.entry
  | _ => 0

@[simp] theorem edit_id (c : Call) (a : Account) : (c.edit a).id = a.id := by cases c <;> rfl

theorem mem_accounts_of_row? {c : Call} {row : Int} (h : c.row? = some row) : row ∈ c.accounts := by
  cases c <;> simp_all [row?, accounts]

end Call

namespace Tables

/-- An account as seen from a draft: its own copy, else the committed row. -/
def look (d : Tables) (rows : Rows) (row : Int) : Option Account :=
  (d.accounts.find? row).or (rows.find? row)

def stage (d : Tables) (a : Account) : Tables := { d with accounts := Rows.put a d.accounts }

/-- The answer to a call over committed rows, and the draft after it. A new record gets the
    id and the time. -/
def answer (d : Tables) (rows : Rows) (id : Int) (now : Instant) : (c : Call) → Outcome c.Reply × Tables
  | .get row =>
    match d.look rows row with
    | none => (.error (.accountNotFound row), d)
    | some a => (.ok a, d.stage a)
  | .update row balance =>
    match d.look rows row with
    | none => (.error (.accountNotFound row), d)
    | some a => (.ok { a with balance }, d.stage { a with balance })
  | .insertTransfer order =>
    if !rows.has order.source then (.error (.accountNotFound order.source), d)
    else if !rows.has order.destination then (.error (.accountNotFound order.destination), d)
    else if order.amount ≤ 0 then (.error (.storage (.amountNotPositive order.amount)), d)
    else
      let t : Transfer := ⟨id, order.source, order.destination, order.amount, now⟩
      (.ok t, { d with transfers := d.transfers ++ [t] })
  | .insertEntry account amount =>
    if !rows.has account then (.error (.accountNotFound account), d)
    else
      let e : Entry := ⟨id, account, amount, now⟩
      (.ok e, { d with entries := d.entries ++ [e] })

/-! ## One call -/

section Answer

variable {d : Tables} {rows rows' : Rows} {id : Int} {now : Instant} {c : Call} {row : Int}

theorem id_of_look {a : Account} (h : d.look rows row = some a) : a.id = row := by
  unfold look at h
  cases hd : d.accounts.find? row with
  | some b => rw [hd] at h; cases h; exact Rows.id_of_find? hd
  | none => rw [hd] at h; exact Rows.id_of_find? h

theorem isSome_look (d : Tables) (rows : Rows) (row : Int) :
    (d.look rows row).isSome = (d.accounts.has row || rows.has row) := by
  simp [look, Rows.has, Option.isSome_or]

/-- A call that takes a row answers from the row it sees and stages it, edited. -/
theorem answer_of_row? (d : Tables) (rows : Rows) (id : Int) (now : Instant) (hc : c.row? = some row) :
    (d.look rows row = none ∧ (d.answer rows id now c).1.isOk = false ∧ (d.answer rows id now c).2 = d) ∨
    ∃ a, d.look rows row = some a ∧ (d.answer rows id now c).1.isOk = true ∧
      (d.answer rows id now c).2 = d.stage (c.edit a) := by
  cases hl : d.look rows row with
  | none =>
    refine .inl ⟨rfl, ?_⟩
    cases c <;> simp only [Call.row?, Option.some.injEq, reduceCtorEq] at hc <;> subst hc <;>
      simp [answer, hl, Except.isOk, Except.toBool]
  | some a =>
    refine .inr ⟨a, rfl, ?_⟩
    cases c <;> simp only [Call.row?, Option.some.injEq, reduceCtorEq] at hc <;> subst hc <;>
      simp [answer, hl, Except.isOk, Except.toBool, Call.edit]

theorem answer_accounts_of_no_row (hc : c.row? = none) : (d.answer rows id now c).2.accounts = d.accounts := by
  cases c with
  | get r => simp [Call.row?] at hc
  | update r balance => simp [Call.row?] at hc
  | insertTransfer order =>
    simp only [answer]
    repeat' split
    all_goals rfl
  | insertEntry account amount => simp only [answer]; split <;> rfl

/-- The staged accounts after a call: the row it takes, edited, and all others as before. -/
theorem find?_answer (hd : d.accounts.Sorted) (row : Int) :
    (d.answer rows id now c).2.accounts.find? row =
      if c.row? = some row then (d.look rows row).map c.edit else d.accounts.find? row := by
  cases hc : c.row? with
  | none => rw [answer_accounts_of_no_row hc]; simp
  | some r =>
    rcases answer_of_row? d rows id now hc with
      ⟨hl, -, h⟩ | ⟨a, hl, -, h⟩ <;> rw [h]
    · by_cases hr : r = row
      · subst hr
        rw [if_pos rfl, hl]
        exact (Option.or_eq_none_iff.1 hl).1
      · rw [if_neg (by simpa using hr)]
    · rw [stage, Rows.find?_put hd, Call.edit_id, id_of_look hl]
      by_cases hr : r = row
      · subst hr; simp [hl]
      · rw [if_neg (Ne.symm hr), if_neg (by simpa using hr)]

theorem answer_sorted (hd : d.accounts.Sorted) : (d.answer rows id now c).2.accounts.Sorted := by
  cases hc : c.row? with
  | none => rwa [answer_accounts_of_no_row hc]
  | some r =>
    rcases answer_of_row? d rows id now hc with
      ⟨-, -, h⟩ | ⟨a, -, -, h⟩ <;> rw [h]
    · exact hd
    · exact hd.put _

/-- A staged account stays staged. -/
theorem has_answer (hd : d.accounts.Sorted) (h : d.accounts.has row = true) :
    (d.answer rows id now c).2.accounts.has row = true := by
  rw [Rows.has, find?_answer hd]
  split
  · rw [Option.isSome_map, isSome_look, h, Bool.true_or]
  · exact h

/-- What a call stages was staged, or is a committed row that it takes. -/
theorem has_of_has_answer (hd : d.accounts.Sorted) (h : (d.answer rows id now c).2.accounts.has row = true) :
    d.accounts.has row = true ∨ c.row? = some row ∧ rows.has row = true := by
  rw [Rows.has, find?_answer hd] at h
  split at h
  · rename_i hc
    rw [Option.isSome_map, isSome_look, Bool.or_eq_true] at h
    exact h.imp_right fun hr => ⟨hc, hr⟩
  · exact .inl h

/-- A row that was read or changed is staged. -/
theorem has_of_answer_ok (hd : d.accounts.Sorted) (hc : c.row? = some row)
    (h : (d.answer rows id now c).1.isOk = true) : (d.answer rows id now c).2.accounts.has row = true := by
  rcases answer_of_row? d rows id now hc with
    ⟨-, hno, -⟩ | ⟨a, hl, -, -⟩
  · rw [hno] at h; cases h
  · rw [Rows.has, find?_answer hd, if_pos hc, hl]; rfl

/-- A row that is there is answered. -/
theorem isOk_answer (hc : c.row? = some row) (h : rows.has row = true) : (d.answer rows id now c).1.isOk = true := by
  rcases answer_of_row? d rows id now hc with ⟨hl, -, -⟩ | ⟨-, -, hok, -⟩
  · have hlook := isSome_look d rows row
    rw [hl, h, Bool.or_true] at hlook
    cases hlook
  · exact hok

/-- An answer that is no error names accounts that are committed or staged. -/
theorem known_of_answer_ok (h : (d.answer rows id now c).1.isOk = true) {account : Int}
    (ha : account ∈ c.accounts) : d.accounts.has account = true ∨ rows.has account = true := by
  cases hc : c.row? with
  | some r =>
    have hr : account = r := by
      cases c <;> simp_all [Call.row?, Call.accounts]
    rcases answer_of_row? d rows id now hc with
      ⟨-, hno, -⟩ | ⟨a, hl, -, -⟩
    · rw [hno] at h; cases h
    · rw [hr, ← Bool.or_eq_true, ← isSome_look, hl]; rfl
  | none =>
    right
    cases c with
    | get r => simp [Call.row?] at hc
    | update r balance => simp [Call.row?] at hc
    | insertTransfer order =>
      simp only [answer] at h
      split at h
      · cases h
      split at h
      · cases h
      simp only [Call.accounts, List.mem_cons, List.not_mem_nil, or_false] at ha
      rcases ha with rfl | rfl <;> simp_all
    | insertEntry a amount =>
      simp only [answer] at h
      split at h
      · cases h
      simp only [Call.accounts, List.mem_singleton] at ha
      simp_all

/-- A call is answered alike over rows that agree on the accounts it names and on the rows
    staged after it. -/
theorem answer_congr (hd : d.accounts.Sorted)
    (hhas : ∀ account ∈ c.accounts, rows'.has account = rows.has account)
    (hrow : ∀ row, (d.answer rows id now c).2.accounts.has row = true → rows'.find? row = rows.find? row) :
    d.answer rows' id now c = d.answer rows id now c := by
  have hlook : ∀ r, c.row? = some r → d.look rows' r = d.look rows r := by
    intro r hc
    cases hs : rows.find? r with
    | none =>
      have hs' : rows'.find? r = none := by
        rw [← Rows.has_eq_false_iff, hhas r (Call.mem_accounts_of_row? hc), Rows.has_eq_false_iff, hs]
      rw [look, look, hs, hs']
    | some a =>
      have hput : (d.answer rows id now c).2.accounts.has r = true := by
        rw [Rows.has, find?_answer hd, if_pos hc, Option.isSome_map, isSome_look, Rows.has_of_find? hs,
          Bool.or_true]
      rw [look, look, hrow r hput]
  cases c with
  | get r => simp only [answer, hlook r rfl]
  | update r balance => simp only [answer, hlook r rfl]
  | insertTransfer order =>
    have h1 := hhas order.source (by simp [Call.accounts])
    have h2 := hhas order.destination (by simp [Call.accounts])
    simp only [answer, h1, h2]
  | insertEntry a amount =>
    have h1 := hhas a (by simp [Call.accounts])
    simp only [answer, h1]

end Answer

end Tables

end Giro
