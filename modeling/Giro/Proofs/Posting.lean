import Giro.Proofs.Leads
import Giro.Proofs.Watch

/-
  Giro.Proofs.Posting — what a transcript makes of the tables once it is published, and
  what the transcript of a finished transfer makes of them: its record, its two entries,
  and each entry's amount on its account (`transfer_publish`). A transfer that commits
  publishes just that, whatever was opened or emptied meanwhile (`Kept.settle`).
-/

namespace Giro

/-! ## Publishing a transcript -/

/-- The transfer that the exchange recorded. -/
def Exchange.transfer? : Exchange → Option Transfer
  | ⟨.insertTransfer _, .ok t⟩ => some t
  | _ => none

/-- The entry that the exchange recorded. -/
def Exchange.entry? : Exchange → Option Entry
  | ⟨.insertEntry .., .ok e⟩ => some e
  | _ => none

def Transcript.transfers (l : Transcript) : List Transfer := l.filterMap Exchange.transfer?

def Transcript.entries (l : Transcript) : List Entry := l.filterMap Exchange.entry?

theorem Transcript.transfers_snoc (l : Transcript) (e : Exchange) :
    (l ++ [e]).transfers = l.transfers ++ e.transfer?.toList := by
  cases h : e.transfer? <;> simp [transfers, h]

theorem Transcript.entries_snoc (l : Transcript) (e : Exchange) :
    (l ++ [e]).entries = l.entries ++ e.entry?.toList := by
  cases h : e.entry? <;> simp [entries, h]

namespace Tables

variable (d : Tables) (rows : Rows) (id : Int) (now : Instant) (c : Call)

theorem answer_transfers : (d.answer rows id now c).2.transfers =
    d.transfers ++ (Exchange.transfer? ⟨c, (d.answer rows id now c).1⟩).toList := by
  cases c with
  | get row => simp only [answer]; split <;> simp [Exchange.transfer?, stage]
  | update row balance => simp only [answer]; split <;> simp [Exchange.transfer?, stage]
  | insertTransfer order => simp only [answer]; repeat' split
                            all_goals simp [Exchange.transfer?]
  | insertEntry account amount => simp only [answer]; split <;> simp [Exchange.transfer?]

theorem answer_entries : (d.answer rows id now c).2.entries =
    d.entries ++ (Exchange.entry? ⟨c, (d.answer rows id now c).1⟩).toList := by
  cases c with
  | get row => simp only [answer]; split <;> simp [Exchange.entry?, stage]
  | update row balance => simp only [answer]; split <;> simp [Exchange.entry?, stage]
  | insertTransfer order => simp only [answer]; repeat' split
                            all_goals simp [Exchange.entry?]
  | insertEntry account amount => simp only [answer]; split <;> simp [Exchange.entry?]

end Tables

namespace Written

variable {rows : Rows} {l : Transcript} {d : Tables}

theorem transfers (h : Written rows l d) : d.transfers = l.transfers := by
  induction h with
  | nil => rfl
  | snoc h c id now ih =>
    rw [Tables.answer_transfers, ih, Transcript.transfers_snoc]

theorem entries (h : Written rows l d) : d.entries = l.entries := by
  induction h with
  | nil => rfl
  | snoc h c id now ih =>
    rw [Tables.answer_entries, ih, Transcript.entries_snoc]

/-- A published transcript gives each account the balance it wrote last, and adds its records. -/
theorem publish {t : Tables} {x : Transaction} (h : Written t.accounts l x.draft) (hsorted : t.accounts.Sorted) :
    t.publish x = ⟨t.accounts.map l.leave, t.transfers ++ l.transfers, t.entries ++ l.entries⟩ := by
  have hx : x.accounts.Sorted := h.sorted
  have haccounts : Rows.putAll x.accounts t.accounts = t.accounts.map l.leave := by
    refine (hsorted.putAll _).ext (hsorted.map (Transcript.leave_id l)) ?_
    intro id
    rw [Rows.find?_map (Transcript.leave_id l), Rows.find?_putAll hx hsorted]
    exact h.look id
  have htransfers : x.transfers = l.transfers := h.transfers
  have hentries : x.entries = l.entries := h.entries
  rw [Tables.publish, haccounts, htransfers, hentries]

/-- Every answer was given over these rows. -/
theorem answered (h : Written rows l d) {e : Exchange} (he : e ∈ l) :
    ∃ (d' : Tables) (id : Int) (now : Instant), e.answer = (d'.answer rows id now e.call).1 := by
  induction h with
  | nil => cases he
  | @snoc l d h c id now ih =>
    rcases List.mem_append.1 he with he | he
    · exact ih he
    · obtain rfl := List.mem_singleton.1 he
      exact ⟨d, id, now, rfl⟩

/-- A recorded transfer is as it was asked for, between two accounts that exist. -/
theorem transfer_mem (h : Written rows l d) {order : TransferOrder} {t : Transfer}
    (ht : ⟨.insertTransfer order, .ok t⟩ ∈ l) :
    t.order = order ∧ 0 < order.amount ∧ rows.has order.source = true ∧ rows.has order.destination = true := by
  obtain ⟨d', id, now, ha⟩ := h.answered ht
  simp only [Tables.answer] at ha
  split at ha
  · cases ha
  split at ha
  · cases ha
  split at ha
  · cases ha
  · rename_i hs hd hpos
    cases ha
    exact ⟨rfl, by omega, by simpa using hs, by simpa using hd⟩

/-- A recorded entry is as it was asked for, on an account that exists. -/
theorem entry_mem (h : Written rows l d) {account amount : Int} {e : Entry}
    (he : ⟨.insertEntry account amount, .ok e⟩ ∈ l) :
    Audit.legOf e = ⟨account, amount⟩ ∧ rows.has account = true := by
  obtain ⟨d', id, now, ha⟩ := h.answered he
  simp only [Tables.answer] at ha
  split at ha
  · cases ha
  · rename_i hacc
    cases ha
    exact ⟨rfl, by simpa using hacc⟩

end Written

/-! ## Publishing a transfer -/

/-- The account with `delta` more, if it is the account of this row. -/
def Account.add (row delta : Int) (a : Account) : Account :=
  if row = a.id then { a with balance := a.balance + delta } else a

@[simp] theorem Account.add_id (row delta : Int) (a : Account) : (a.add row delta).id = a.id := by
  unfold Account.add; split <;> rfl

theorem Account.add_comm (row row' delta delta' : Int) (a : Account) :
    (a.add row delta).add row' delta' = (a.add row' delta').add row delta := by
  unfold Account.add
  by_cases h : row = a.id <;> by_cases h' : row' = a.id <;> simp [h, h', Int.add_right_comm]

def Entry.apply (e : Entry) (a : Account) : Account := a.add e.account e.amount

@[simp] theorem Entry.apply_id (e : Entry) (a : Account) : (e.apply a).id = a.id := Account.add_id ..

/-- The tables with everything that a transfer wrote. -/
def Tables.post (t : Tables) (r : TransferReceipt) : Tables where
  accounts := t.accounts.map fun a => r.credit.apply (r.debit.apply a)
  transfers := t.transfers ++ [r.transfer]
  entries := t.entries ++ [r.debit, r.credit]

/-- The receipt is of this order: its record, a debit on the source and a credit on the
    destination. -/
structure TransferReceipt.Settles (r : TransferReceipt) (order : TransferOrder) : Prop where
  transfer : r.transfer.order = order
  debit : Audit.legOf r.debit = ⟨order.source, -order.amount⟩
  credit : Audit.legOf r.credit = ⟨order.destination, order.amount⟩
  positive : 0 < order.amount

theorem Amount.add?_eq_some {a b c : Int} (h : Amount.add? a b = some c) : c = a + b := (fit?_eq_some_iff.1 h).1

theorem Amount.neg?_eq_some {a b : Int} (h : Amount.neg? a = some b) : b = -a := (fit?_eq_some_iff.1 h).1

namespace Work

variable {order : TransferOrder} {receipt : TransferReceipt} {rows : Rows} {l : Transcript} {d : Tables}

theorem transfer_settles (hl : (transfer order).Leads l (done (.ok receipt))) (hw : Written rows l d) :
    receipt.Settles order ∧ rows.has order.source = true ∧ rows.has order.destination = true := by
  obtain ⟨debit, old, old', b, b', hdebit, hcase⟩ := transfer_ok hl
  have hmem : ⟨.insertTransfer order, .ok receipt.transfer⟩ ∈ l ∧
      ⟨.insertEntry order.source debit, .ok receipt.debit⟩ ∈ l ∧
      ⟨.insertEntry order.destination order.amount, .ok receipt.credit⟩ ∈ l := by
    rcases hcase with ⟨-, -, -, rfl⟩ | ⟨-, -, -, rfl⟩ <;> simp
  obtain ⟨ht, hd, hc⟩ := hmem
  obtain ⟨htransfer, hpos, hsource, hdestination⟩ := hw.transfer_mem ht
  refine ⟨⟨htransfer, ?_, (hw.entry_mem hc).1, hpos⟩, hsource, hdestination⟩
  rw [(hw.entry_mem hd).1, Amount.neg?_eq_some hdebit]

/-- Reading a balance and writing it back with `delta` more adds `delta` to what the
    transcript left before. -/
theorem leave_add {row delta balance : Int} {old new : Account} {m : Transcript}
    (hw : Written rows (l ++ ⟨.get row, .ok old⟩ :: ⟨.update row balance, .ok new⟩ :: m) d)
    (hadd : Amount.add? old.balance delta = some balance) (hrows : rows.Sorted) {a : Account} (ha : a ∈ rows) :
    Transcript.leave (l ++ [⟨.get row, .ok old⟩, ⟨.update row balance, .ok new⟩]) a = (l.leave a).add row delta := by
  have hstep : Transcript.leave (l ++ [⟨.get row, .ok old⟩, ⟨.update row balance, .ok new⟩]) a =
      if row = (l.leave a).id then { l.leave a with balance } else l.leave a := Transcript.leave_append ..
  rw [hstep, Account.add]
  split
  · rename_i hid
    have hread := hw.read
    rw [hid, Transcript.leave_id, hrows.find?_of_mem ha] at hread
    rw [Amount.add?_eq_some hadd, ← Option.some.inj hread]
  · rfl

/-- A finished transfer gives each account the amounts of its entries on it, whichever row
    was locked first. -/
theorem transfer_leave (hl : (transfer order).Leads l (done (.ok receipt))) (hw : Written rows l d)
    (hrows : rows.Sorted) {a : Account} (ha : a ∈ rows) : l.leave a = receipt.credit.apply (receipt.debit.apply a) := by
  obtain ⟨⟨-, hdebit, hcredit, -⟩, -, -⟩ := transfer_settles hl hw
  simp only [Audit.legOf, Audit.Leg.mk.injEq] at hdebit hcredit
  simp only [Entry.apply, hdebit, hcredit]
  obtain ⟨debit, old, old', b, b', hneg, hcase⟩ := transfer_ok hl
  obtain rfl : debit = -order.amount := Amount.neg?_eq_some hneg
  let inserts : Transcript := [⟨.insertTransfer order, .ok receipt.transfer⟩,
    ⟨.insertEntry order.source (-order.amount), .ok receipt.debit⟩,
    ⟨.insertEntry order.destination order.amount, .ok receipt.credit⟩]
  have hinserts : inserts.leave a = a := rfl
  rcases hcase with ⟨-, hb, hb', rfl⟩ | ⟨-, hb, hb', rfl⟩
  · have h₁ := leave_add (l := inserts) hw hb hrows ha
    have h₂ := leave_add (l := inserts ++ [⟨.get order.source, .ok old⟩, ⟨.update order.source b, .ok receipt.source⟩])
      (m := []) hw hb' hrows ha
    rw [h₁, hinserts] at h₂
    exact h₂
  · have h₁ := leave_add (l := inserts) hw hb hrows ha
    have h₂ := leave_add
      (l := inserts ++ [⟨.get order.destination, .ok old⟩, ⟨.update order.destination b, .ok receipt.destination⟩])
      (m := []) hw hb' hrows ha
    rw [h₁, hinserts, Account.add_comm] at h₂
    exact h₂

/-- What a finished transfer publishes. -/
theorem transfer_publish {t : Tables} {x : Transaction} (hl : (transfer order).Leads l (done (.ok receipt)))
    (hw : Written t.accounts l x.draft) (hsorted : t.accounts.Sorted) : t.publish x = t.post receipt := by
  have haccounts : t.accounts.map l.leave = t.accounts.map fun a => receipt.credit.apply (receipt.debit.apply a) :=
    List.map_congr_left fun a ha => transfer_leave hl hw hsorted ha
  obtain ⟨debit, old, old', b, b', -, hcase⟩ := transfer_ok hl
  have hrecords : l.transfers = [receipt.transfer] ∧ l.entries = [receipt.debit, receipt.credit] := by
    rcases hcase with ⟨-, -, -, rfl⟩ | ⟨-, -, -, rfl⟩ <;> exact ⟨rfl, rfl⟩
  rw [hw.publish hsorted, haccounts, hrecords.1, hrecords.2]
  rfl

/-- In a finished transfer no answer was an error, and every account that it names was read. -/
theorem transfer_clean (hl : (transfer order).Leads l (done (.ok receipt))) :
    l.Clean ∧ ∀ account ∈ l.accounts, l.Touched account := by
  obtain ⟨debit, old, old', b, b', -, hcase⟩ := transfer_ok hl
  rcases hcase with ⟨-, -, -, rfl⟩ | ⟨-, -, -, rfl⟩ <;>
    simp [Transcript.Clean, Transcript.accounts, Transcript.Touched, Call.accounts, Call.row?, Except.isOk, Except.toBool]

end Work

/-! ## Committing a transfer -/

/-- When a transfer that came to its end may be published, every account it names is still
    there, and so it is as if it had been asked over the tables as they are. -/
theorem Watch.Kept.written {w : Watch} (h : w.Kept) {o : Nat} {x : Transaction} {order : TransferOrder}
    {receipt : TransferReceipt} (hx : w.store.tx? o = some x)
    (hknown : ∀ a ∈ x.accounts, w.store.tables.accounts.has a.id = true)
    (hl : (Work.transfer order).Leads (w.logs o) (.done (.ok receipt))) :
    Written w.store.tables.accounts (w.logs o) x.draft := by
  have ht := h.tracks hx
  obtain ⟨hclean, hread⟩ := Work.transfer_clean hl
  refine ht.written hclean ?_
  intro account ha
  obtain ⟨a, hstaged, rfl⟩ := Rows.has_iff.1 ((ht.touched account).2 (hread account ha))
  exact hknown a hstaged

/-- It publishes its record, its entries and their amounts. -/
theorem Watch.Kept.settle {w : Watch} (h : w.Kept) {o : Nat} {x : Transaction} {order : TransferOrder}
    {receipt : TransferReceipt} (hx : w.store.tx? o = some x)
    (hknown : ∀ a ∈ x.accounts, w.store.tables.accounts.has a.id = true)
    (hl : (Work.transfer order).Leads (w.logs o) (.done (.ok receipt))) :
    w.store.tables.publish x = w.store.tables.post receipt ∧ receipt.Settles order ∧
      w.store.tables.accounts.has order.source = true ∧ w.store.tables.accounts.has order.destination = true := by
  have hw := h.written hx hknown hl
  exact ⟨Work.transfer_publish hl hw h.sound.sorted, Work.transfer_settles hl hw⟩

end Giro
