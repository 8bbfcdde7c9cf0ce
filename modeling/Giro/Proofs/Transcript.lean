import Giro.Proofs.Draft

/-
  Giro.Proofs.Transcript — what a transaction was asked and what it answered.

  `Written rows l d`: over these rows the calls of the transcript `l` give just its
  answers and leave the draft `d`. Rows may change where the transcript does not look
  (`Written.frame`). Two transcripts with the same calls differ at most in ids and times
  (`gist_answer`).
-/

namespace Giro

/-- A call with its answer. -/
structure Exchange where
  call : Call
  answer : Outcome call.Reply

/-- The answered calls of one transaction, in order. -/
abbrev Transcript := List Exchange

namespace Transcript

/-- The accounts that the calls name. -/
def accounts (l : Transcript) : List Int := l.flatMap (·.call.accounts)

/-- No answer is an error. -/
def Clean (l : Transcript) : Prop := ∀ e ∈ l, e.answer.isOk = true

/-- The account was read or changed. -/
def Touched (l : Transcript) (row : Int) : Prop := ∃ e ∈ l, e.call.row? = some row ∧ e.answer.isOk = true

@[simp] theorem accounts_append (l l' : Transcript) : accounts (l ++ l') = l.accounts ++ l'.accounts :=
  List.flatMap_append

@[simp] theorem accounts_singleton (e : Exchange) : accounts [e] = e.call.accounts := by simp [accounts]

theorem clean_snoc {l : Transcript} {e : Exchange} : Clean (l ++ [e]) ↔ l.Clean ∧ e.answer.isOk = true := by
  simp [Clean, or_imp, forall_and]

theorem touched_snoc {l : Transcript} {e : Exchange} {row : Int} :
    Touched (l ++ [e]) row ↔ l.Touched row ∨ e.call.row? = some row ∧ e.answer.isOk = true := by
  simp [Touched, or_and_right, exists_or]

end Transcript

/-! ## Transcripts over fixed rows -/

/-- Asked over these rows, with some ids and times for new records, the calls give these
    answers and leave this draft. -/
inductive Written (rows : Rows) : Transcript → Tables → Prop
  | nil : Written rows [] {}
  | snoc {l : Transcript} {d : Tables} (h : Written rows l d) (c : Call) (id : Int) (now : Instant) :
      Written rows (l ++ [⟨c, (d.answer rows id now c).1⟩]) (d.answer rows id now c).2

namespace Written

variable {rows rows' : Rows} {l : Transcript} {d : Tables}

theorem sorted (h : Written rows l d) : d.accounts.Sorted := by
  induction h with
  | nil => exact List.Pairwise.nil
  | snoc _ c id now ih => exact Tables.answer_sorted ih

/-- What is staged is committed. -/
theorem known (h : Written rows l d) {row : Int} (hrow : d.accounts.has row = true) : rows.has row = true := by
  induction h with
  | nil => cases hrow
  | snoc h c id now ih =>
    rcases Tables.has_of_has_answer h.sorted hrow with hd | ⟨-, hr⟩
    · exact ih hd
    · exact hr

/-- What is staged was asked for. -/
theorem named (h : Written rows l d) {row : Int} (hrow : d.accounts.has row = true) : row ∈ l.accounts := by
  induction h with
  | nil => cases hrow
  | snoc h c id now ih =>
    rw [Transcript.accounts_append, List.mem_append, Transcript.accounts_singleton]
    exact (Tables.has_of_has_answer h.sorted hrow).imp ih fun hc => Call.mem_accounts_of_row? hc.1

/-- A transcript may be moved to rows that agree with the old ones on which of the accounts
    it names exist, and on the rows it staged. -/
theorem frame (h : Written rows l d)
    (hhas : ∀ account ∈ l.accounts, rows'.has account = rows.has account)
    (hrow : ∀ row, d.accounts.has row = true → rows'.find? row = rows.find? row) : Written rows' l d := by
  induction h with
  | nil => exact .nil
  | @snoc l d h c id now ih =>
    have hold : Written rows' l d :=
      ih (fun a ha => hhas a (by simp [ha])) fun row hd => hrow row (Tables.has_answer h.sorted hd)
    have hc : d.answer rows' id now c = d.answer rows id now c :=
      Tables.answer_congr h.sorted (fun a ha => hhas a (by simp [ha])) hrow
    have hnew := hold.snoc c id now
    rwa [hc] at hnew

end Written

/-! ## Balances -/

/-- What an exchange makes of an account. -/
def Exchange.leave (a : Account) : Exchange → Account
  | ⟨.update row balance, .ok _⟩ => if row = a.id then { a with balance } else a
  | _ => a

/-- What a transcript makes of an account: it gets the balance that was written last. -/
def Transcript.leave (l : Transcript) (a : Account) : Account := l.foldl Exchange.leave a

theorem Exchange.leave_eq (a : Account) (e : Exchange) :
    e.leave a = if e.call.row? = some a.id ∧ e.answer.isOk = true then e.call.edit a else a := by
  obtain ⟨c, r⟩ := e
  cases c <;> cases r <;> simp [leave, Call.row?, Call.edit, Except.isOk, Except.toBool]

@[simp] theorem Exchange.leave_id (a : Account) (e : Exchange) : (e.leave a).id = a.id := by
  rw [leave_eq]
  split
  · exact Call.edit_id _ _
  · rfl

namespace Transcript

@[simp] theorem leave_nil (a : Account) : leave [] a = a := rfl

@[simp] theorem leave_append (l l' : Transcript) (a : Account) : leave (l ++ l') a = l'.leave (l.leave a) :=
  List.foldl_append

@[simp] theorem leave_id (l : Transcript) (a : Account) : (l.leave a).id = a.id := by
  induction l generalizing a with
  | nil => rfl
  | cons e l ih => exact (ih (e.leave a)).trans (e.leave_id a)

end Transcript

namespace Written

variable {rows : Rows} {l : Transcript} {d : Tables}

/-- A transaction sees each account with the balance that it wrote last itself. -/
theorem look (h : Written rows l d) (row : Int) : d.look rows row = (rows.find? row).map l.leave := by
  induction h with
  | nil => cases hr : rows.find? row <;> simp [Tables.look, hr]
  | @snoc l d h c id now ih =>
    rw [Tables.look, Tables.find?_answer h.sorted]
    cases hr : rows.find? row with
    | none =>
      have hd : d.accounts.find? row = none := by
        rw [Tables.look, hr, Option.or_none] at ih
        exact ih
      simp [ih, hr, hd]
    | some a =>
      have hseen : d.look rows row = some (l.leave a) := by rw [ih, hr]; rfl
      have hid : (l.leave a).id = row := Tables.id_of_look hseen
      have hlast : (Transcript.leave (l ++ [⟨c, (d.answer rows id now c).1⟩]) a) =
          if c.row? = some row then c.edit (l.leave a) else l.leave a := by
        rw [Transcript.leave_append]
        show Exchange.leave (l.leave a) ⟨c, (d.answer rows id now c).1⟩ = _
        rw [Exchange.leave_eq, hid]
        by_cases hc : c.row? = some row
        · rcases Tables.answer_of_row? d rows id now hc with ⟨hl, -, -⟩ | ⟨b, -, hok, -⟩
          · rw [hseen] at hl; cases hl
          · rw [if_pos ⟨hc, hok⟩, if_pos hc]
        · rw [if_neg (fun h => hc h.1), if_neg hc]
      rw [Option.map_some, hlast]
      split
      · rw [hseen]; rfl
      · rw [Tables.look, hr] at hseen; exact hseen

/-- A transcript cut short. -/
theorem cut {l' : Transcript} (h : Written rows (l ++ l') d) : ∃ d', Written rows l d' := by
  generalize hm : l ++ l' = m at h
  induction h generalizing l' with
  | nil =>
    obtain rfl := (List.append_eq_nil_iff.1 hm).1
    exact ⟨{}, .nil⟩
  | @snoc l₁ d₁ h c id now ih =>
    rcases List.eq_nil_or_concat l' with rfl | ⟨l₂, e, rfl⟩
    · rw [List.append_nil] at hm
      exact ⟨_, hm ▸ h.snoc c id now⟩
    · rw [List.concat_eq_append, ← List.append_assoc] at hm
      exact ih (List.append_inj' hm rfl).1

/-- What is read is the committed account with the balance that the transaction wrote last
    itself. -/
theorem read {row : Int} {a : Account} {l' : Transcript} (h : Written rows (l ++ ⟨.get row, .ok a⟩ :: l') d) :
    (rows.find? row).map l.leave = some a := by
  rw [List.append_cons] at h
  obtain ⟨d', h⟩ := h.cut
  generalize hm : l ++ [⟨.get row, .ok a⟩] = m at h
  cases h with
  | nil => exact absurd hm (by simp)
  | @snoc l₁ d₁ h c id now =>
    obtain ⟨rfl, he⟩ := List.append_inj' hm rfl
    simp only [List.cons.injEq, Exchange.mk.injEq, and_true] at he
    obtain ⟨rfl, hr⟩ := he
    rw [← h.look]
    simp only [Tables.answer] at hr
    split at hr
    · cases hr
    · rename_i b hb
      cases hr
      exact hb

end Written

/-! ## Up to ids and times -/

/-- What a transfer is about. -/
def Transfer.order (t : Transfer) : TransferOrder := ⟨t.source, t.destination, t.amount⟩

/-- An answer without the ids and times of records. -/
inductive Gist where
  | account (a : Account)
  | transfer (order : TransferOrder)
  | entry (leg : Audit.Leg)

def Call.gist : (c : Call) → c.Reply → Gist
  | get _, a => .account a
  | update .., a => .account a
  | insertTransfer _, t => .transfer t.order
  | insertEntry .., e => .entry (Audit.legOf e)

/-- The call and the gist of its answer. -/
def Exchange.gist (e : Exchange) : Call × Outcome Gist := (e.call, e.answer.map e.call.gist)

/-- Accounts, and all but ids and times of the records. -/
def Tables.gist (t : Tables) : Rows × List TransferOrder × List Audit.Leg :=
  (t.accounts, t.transfers.map Transfer.order, t.entries.map Audit.legOf)

namespace Tables

/-- Drafts alike give answers alike and stay alike. -/
theorem gist_answer {d d' : Tables} (h : d.gist = d'.gist) (rows : Rows) (id id' : Int) (now now' : Instant)
    (c : Call) :
    (d.answer rows id now c).1.map c.gist = (d'.answer rows id' now' c).1.map c.gist ∧
      (d.answer rows id now c).2.gist = (d'.answer rows id' now' c).2.gist := by
  simp only [gist, Prod.mk.injEq] at h
  obtain ⟨ha, ht, he⟩ := h
  have hlook : ∀ row, d.look rows row = d'.look rows row := fun row => by rw [look, look, ha]
  cases c with
  | get row =>
    simp only [answer, hlook]
    split
    · exact ⟨rfl, by simp [gist, ha, ht, he]⟩
    · exact ⟨rfl, by simp [gist, stage, ha, ht, he]⟩
  | update row balance =>
    simp only [answer, hlook]
    split
    · exact ⟨rfl, by simp [gist, ha, ht, he]⟩
    · exact ⟨rfl, by simp [gist, stage, ha, ht, he]⟩
  | insertTransfer order =>
    simp only [answer]
    split
    · exact ⟨rfl, by simp [gist, ha, ht, he]⟩
    split
    · exact ⟨rfl, by simp [gist, ha, ht, he]⟩
    split
    · exact ⟨rfl, by simp [gist, ha, ht, he]⟩
    · exact ⟨rfl, by simp [gist, Transfer.order, ha, ht, he]⟩
  | insertEntry account amount =>
    simp only [answer]
    split
    · exact ⟨rfl, by simp [gist, ha, ht, he]⟩
    · exact ⟨rfl, by simp [gist, Audit.legOf, ha, ht, he]⟩

theorem gist_publish {t t' : Tables} {x x' : Transaction} (ht : t.gist = t'.gist) (hx : x.draft.gist = x'.draft.gist) :
    (t.publish x).gist = (t'.publish x').gist := by
  simp only [gist, Transaction.draft, Prod.mk.injEq] at ht hx
  obtain ⟨ha, htr, he⟩ := ht
  obtain ⟨hxa, hxtr, hxe⟩ := hx
  simp [gist, publish, ha, htr, he, hxa, hxtr, hxe]

end Tables

end Giro
