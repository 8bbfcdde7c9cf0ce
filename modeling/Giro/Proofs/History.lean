import Giro.Proofs.Integrity

/-
  Giro.Proofs.History — what is in the tables is what was done, each deed once and in order.

  A deed is an account that was opened or a transfer that came to a good end. As long as
  nobody empties the tables, they are the deeds of the traffic written down one after the
  other, and an account holds what it was opened with, with what transfers brought to it
  and without what they took from it. Openings may overlap: the deeds follow the rows as they
  were put, while accounts are listed by ids, in the order in which these were drawn. A
  transfer that fails, is cancelled or dropped is no deed, and neither is an id that was drawn
  and never put. `Recorded` is what holds after each move, `Recorded.move` the step and
  `recorded_run` the run.

  Main statement: `history_run`.
-/

namespace Giro

/-! ## What transfers make of an account -/

/-- The money that transfers move on one side of an account. -/
def flow (side : Transfer → Int) (transfers : List Transfer) (account : Int) : Int :=
  ((transfers.filter (side · = account)).map (·.amount)).sum

/-- The money that transfers bring to an account. -/
def inflow : List Transfer → Int → Int := flow (·.destination)

/-- The money that transfers take from an account. -/
def outflow : List Transfer → Int → Int := flow (·.source)

section Flow

variable {side : Transfer → Int} {account : Int}

theorem flow_append (transfers transfers' : List Transfer) :
    flow side (transfers ++ transfers') account = flow side transfers account + flow side transfers' account := by
  simp [flow]

theorem flow_singleton (x : Transfer) :
    flow side [x] account = if side x = account then x.amount else 0 := by
  by_cases h : side x = account <;> simp [flow, h]

theorem flow_eq_zero {transfers : List Transfer} (h : ∀ x ∈ transfers, side x ≠ account) :
    flow side transfers account = 0 := by
  have : transfers.filter (side · = account) = [] := by simpa [List.filter_eq_nil_iff] using h
  rw [flow, this]
  rfl

end Flow

/-- An account as transfers leave it. -/
def Account.after (transfers : List Transfer) (a : Account) : Account :=
  { a with balance := a.balance + inflow transfers a.id - outflow transfers a.id }

/-- An account that no transfer names is as it was opened. -/
theorem Account.after_eq_self {transfers : List Transfer} {a : Account}
    (h : ∀ x ∈ transfers, x.source ≠ a.id ∧ x.destination ≠ a.id) : a.after transfers = a := by
  have hin : inflow transfers a.id = 0 := flow_eq_zero fun x hx => (h x hx).2
  have hout : outflow transfers a.id = 0 := flow_eq_zero fun x hx => (h x hx).1
  rw [after, hin, hout, Int.add_zero, Int.sub_zero]

/-- The two entries of a transfer do to an account what its record says. -/
theorem TransferReceipt.Settles.apply_after {r : TransferReceipt} {order : TransferOrder} (h : r.Settles order)
    (transfers : List Transfer) (a : Account) :
    r.credit.apply (r.debit.apply (a.after transfers)) = a.after (transfers ++ [r.transfer]) := by
  obtain ⟨rfl, hdebit, hcredit, -⟩ := h
  simp only [Audit.legOf, Audit.Leg.mk.injEq] at hdebit hcredit
  simp only [Entry.apply, Account.add, Account.after, inflow, outflow, flow_append, flow_singleton, hdebit, hcredit,
    Transfer.order]
  by_cases hs : r.transfer.source = a.id <;> by_cases hd : r.transfer.destination = a.id <;>
    simp [hs, hd] <;> omega

/-! ## Deeds -/

/-- Something that stays in the tables. -/
inductive Deed where
  /-- An account was opened; its opening entry, if it has one, has the given id and time. -/
  | opened (account : Account) (entry : Int) (now : Instant)
  /-- The transfer of an owner was committed. -/
  | settled (owner : Nat) (receipt : TransferReceipt)

/-- Deeds in the order in which they were done. -/
abbrev History := List Deed

namespace History

def accounts (h : History) : List Account :=
  h.filterMap fun | .opened a .. => some a | .settled .. => none

def owners (h : History) : List Nat :=
  h.filterMap fun | .opened .. => none | .settled o _ => some o

def receipts (h : History) : List TransferReceipt :=
  h.filterMap fun | .opened .. => none | .settled _ r => some r

/-- The entries of a deed are one of the opening balance, unless that is zero, or the debit
    of a transfer and then its credit. -/
def entries (h : History) : List Entry :=
  h.flatMap fun
    | .opened a entry now => if a.balance = 0 then [] else [⟨entry, a.id, a.balance, now⟩]
    | .settled _ r => [r.debit, r.credit]

section Snoc

variable (h : History) (a : Account) (entry : Int) (now : Instant) (o : Nat) (r : TransferReceipt)

@[simp] theorem accounts_opened : accounts (h ++ [.opened a entry now]) = h.accounts ++ [a] := by simp [accounts]

@[simp] theorem accounts_settled : accounts (h ++ [.settled o r]) = h.accounts := by simp [accounts]

@[simp] theorem owners_opened : owners (h ++ [.opened a entry now]) = h.owners := by simp [owners]

@[simp] theorem owners_settled : owners (h ++ [.settled o r]) = h.owners ++ [o] := by simp [owners]

@[simp] theorem receipts_opened : receipts (h ++ [.opened a entry now]) = h.receipts := by simp [receipts]

@[simp] theorem receipts_settled : receipts (h ++ [.settled o r]) = h.receipts ++ [r] := by simp [receipts]

@[simp] theorem entries_opened : entries (h ++ [.opened a entry now]) =
    h.entries ++ if a.balance = 0 then [] else [⟨entry, a.id, a.balance, now⟩] := by simp [entries]

@[simp] theorem entries_settled : entries (h ++ [.settled o r]) = h.entries ++ [r.debit, r.credit] := by
  simp [entries]

theorem owners_append (h h' : History) : owners (h ++ h') = h.owners ++ h'.owners := List.filterMap_append

theorem mem_owners {h : History} {o : Nat} : o ∈ h.owners ↔ ∃ r, .settled o r ∈ h := by
  simp only [owners, List.mem_filterMap]
  constructor
  · rintro ⟨d, hd, hsome⟩
    cases d with
    | opened => cases hsome
    | settled o' r => cases hsome; exact ⟨r, hd⟩
  · rintro ⟨r, hr⟩
    exact ⟨_, hr, rfl⟩

end Snoc

end History

/-- The receipt of a transfer that has come to a good end. -/
def Payment.receipt? (p : Payment) : Option TransferReceipt :=
  match p.stage with
  | .finished (.ok receipt) => some receipt
  | _ => none

namespace Traffic

def receipt? (t : Traffic) (o : Nat) : Option TransferReceipt := (t.payments o).bind Payment.receipt?

/-- The deed of a move: a row that is put for an id that was drawn, or the end of a transfer
    that has its receipt now and did not have it before. -/
def deed? (t : Traffic) (m : Move) : Option Deed :=
  match m with
  | .openAccount a now => if a.id ∈ t.drawn then some (.opened a t.store.next.entry now) else none
  | .step o _ => if (t.receipt? o).isSome then none else ((t.move m).receipt? o).map (.settled o)
  | _ => none

/-- The deeds of a run, in order. -/
def history (t : Traffic) : List Move → History
  | [] => []
  | m :: moves => (t.deed? m).toList ++ (t.move m).history moves

@[simp] theorem put_payments_self (t : Traffic) (o : Nat) (r : Payment × Store) : (t.put o r).payments o = some r.1 :=
  Function.update_self ..

theorem put_payments_of_ne (t : Traffic) (r : Payment × Store) {o q : Nat} (h : q ≠ o) :
    (t.put o r).payments q = t.payments q :=
  Function.update_of_ne h ..

@[simp] theorem enter_payments_self (t : Traffic) (order : TransferOrder) :
    (t.move (.enter order)).payments t.entered = some (.enter order) :=
  Function.update_self ..

theorem enter_payments_of_ne (t : Traffic) (order : TransferOrder) {q : Nat} (h : q ≠ t.entered) :
    (t.move (.enter order)).payments q = t.payments q :=
  Function.update_of_ne h ..

@[simp] theorem drop_payments_self (t : Traffic) (o : Nat) : (t.move (.drop o)).payments o = none :=
  Function.update_self ..

theorem drop_payments_of_ne (t : Traffic) {o q : Nat} (h : q ≠ o) : (t.move (.drop o)).payments q = t.payments q :=
  Function.update_of_ne h ..

theorem run_append (t : Traffic) (moves moves' : List Move) : t.run (moves ++ moves') = (t.run moves).run moves' :=
  List.foldl_append

theorem history_append (t : Traffic) (moves moves' : List Move) :
    t.history (moves ++ moves') = t.history moves ++ (t.run moves).history moves' := by
  induction moves generalizing t with
  | nil => rfl
  | cons m moves ih => simp only [List.cons_append, history, run_cons, ih, List.append_assoc]

theorem history_singleton (t : Traffic) (m : Move) : t.history [m] = (t.deed? m).toList := List.append_nil _

end Traffic

/-! ## One step of a transfer -/

/-- A step settles a transfer, which posts it and gives it its receipt, or it leaves the
    tables and gives no receipt. -/
theorem Payment.Turn.posts {s : Store} {p : Payment} {o : Nat} {now : Instant} {ops : List Operation}
    {r : Payment × Store} (ht : Turn o now s p ops r) {w : Watch} (hw : w.store = s) (h : w.Kept)
    (hp : p.Follows (w.logs o)) :
    (r.1.receipt? = p.receipt? ∧ r.2.tables = s.tables) ∨
      ∃ receipt, p.receipt? = none ∧ r.1.receipt? = some receipt ∧ r.2.tables = s.tables.post receipt ∧
        receipt.Settles p.order ∧ s.tables.accounts.has p.order.source = true ∧
        s.tables.accounts.has p.order.destination = true := by
  have hsettles := (ht.settles hw h hp).2
  subst hw
  cases ht with
  | @commits receipt s' hs hc =>
    obtain ⟨x, hx, hknown, rfl⟩ := Store.commit_ok hc
    simp only [Follows, hs] at hp
    exact .inr ⟨receipt, by simp [receipt?, hs], rfl, h.settle hx hknown hp⟩
  | refused hs hc =>
    refine .inl ⟨by simp [receipt?, hs], ?_⟩
    rcases Store.commit_error hc with rfl | rfl <;> rfl
  | rests hs => exact .inl ⟨rfl, rfl⟩
  | begins hs | goesOn hs | asks hs | waits hs | agrees hs | fails hs | rollsBack hs =>
    refine .inl ⟨by simp [receipt?, hs], hsettles.resolve_right ?_⟩
    rintro ⟨receipt, hstage, -⟩
    simp [hs] at hstage

/-! ## The tables are the deeds -/

namespace Traffic

/-- What every move keeps while nobody empties the tables. -/
structure Recorded (t : Traffic) (deeds : History) : Prop where
  transfers : t.store.tables.transfers = deeds.receipts.map (·.transfer)
  entries : t.store.tables.entries = deeds.entries
  accounts : t.store.tables.accounts.Perm (deeds.accounts.map (Account.after t.store.tables.transfers))
  opened : deeds.accounts = t.opened
  named : ∀ x ∈ t.store.tables.transfers,
    t.store.tables.accounts.has x.source = true ∧ t.store.tables.accounts.has x.destination = true
  entered : ∀ o p, t.payments o = some p → o < t.entered
  once : deeds.owners.Nodup
  /-- A transfer that settled has been asked for, and shows its receipt as long as it is there. -/
  settled : ∀ o receipt, .settled o receipt ∈ deeds →
    o < t.entered ∧ ∀ p, t.payments o = some p → p.receipt? = some receipt
  complete : ∀ o receipt, t.receipt? o = some receipt → .settled o receipt ∈ deeds

theorem recorded_empty : Recorded {} [] where
  transfers := rfl
  entries := rfl
  accounts := .nil
  opened := rfl
  named x h := by cases h
  entered o p h := by cases h
  once := List.nodup_nil
  settled o r h := by cases h
  complete o r h := by cases h

variable {t : Traffic} {deeds : History}

/-- A move of one transfer that leaves the tables, and its receipt as far as it is still there. -/
theorem Recorded.quiet (h : t.Recorded deeds) {t' : Traffic} {o : Nat} {q : Option Payment}
    (htables : t'.store.tables = t.store.tables) (hopened : t'.opened = t.opened)
    (hpayments : t'.payments = Function.update t.payments o q) (hentered : t'.entered = t.entered)
    (hq : ∀ p', q = some p' → ∃ p, t.payments o = some p ∧ p'.receipt? = p.receipt?) : t'.Recorded deeds := by
  have hback (p : Nat) (p' : Payment) (hp' : t'.payments p = some p') :
      ∃ p₀, t.payments p = some p₀ ∧ p'.receipt? = p₀.receipt? := by
    rw [hpayments] at hp'
    by_cases hp : p = o
    · subst hp
      rw [Function.update_self] at hp'
      exact hq p' hp'
    · rw [Function.update_of_ne hp] at hp'
      exact ⟨p', hp', rfl⟩
  constructor
  · rw [htables]; exact h.transfers
  · rw [htables]; exact h.entries
  · rw [htables]; exact h.accounts
  · rw [hopened]; exact h.opened
  · rw [htables]; exact h.named
  · intro p p' hp'
    obtain ⟨p₀, hp₀, -⟩ := hback p p' hp'
    rw [hentered]
    exact h.entered p p₀ hp₀
  · exact h.once
  · intro p receipt hmem
    obtain ⟨hlt, hshows⟩ := h.settled p receipt hmem
    refine ⟨by rw [hentered]; exact hlt, ?_⟩
    intro p' hp'
    obtain ⟨p₀, hp₀, hreceipt⟩ := hback p p' hp'
    rw [hreceipt]
    exact hshows p₀ hp₀
  · intro p receipt hreceipt
    obtain ⟨p', hp', hr⟩ := Option.bind_eq_some_iff.1 hreceipt
    obtain ⟨p₀, hp₀, heq⟩ := hback p p' hp'
    refine h.complete p receipt ?_
    rw [receipt?, hp₀, Option.bind_some, ← heq, hr]

theorem InOrder.has_eq_false (h : t.InOrder) {id : Int} (hid : id ∈ t.drawn) :
    t.store.tables.accounts.has id = false := by
  obtain ⟨w, hw, hkept, -⟩ := h.watched
  exact hw ▸ hkept.has_eq_false hid

/-- A new account is put in its place, with its opening entry; no transfer has named it. -/
theorem Recorded.openAccount (h : t.Recorded deeds) (hio : t.InOrder) {a : Account} (ha : a.id ∈ t.drawn)
    (now : Instant) :
    (t.move (.openAccount a now)).Recorded (deeds ++ [.opened a t.store.next.entry now]) := by
  have hnew : t.store.tables.accounts.has a.id = false := hio.has_eq_false ha
  have hsame : a.after t.store.tables.transfers = a := by
    refine Account.after_eq_self ?_
    intro x hx
    have hother (id : Int) (hhas : t.store.tables.accounts.has id = true) : id ≠ a.id := by
      rintro rfl
      rw [hnew] at hhas
      cases hhas
    exact ⟨hother _ (h.named x hx).1, hother _ (h.named x hx).2⟩
  rw [t.move_openAccount ha]
  constructor
  · simp [h.transfers]
  · simp [Store.putAccount_tables, h.entries]
  · simp only [Store.putAccount_tables, History.accounts_opened, List.map_append, List.map_cons, hsame, List.map_nil]
    exact (Rows.put_perm hnew).trans ((h.accounts.cons a).trans (List.perm_append_singleton ..).symm)
  · simp [h.opened]
  · intro x hx
    rw [Store.putAccount_transfers] at hx
    have hstill (id : Int) (hhas : t.store.tables.accounts.has id = true) :
        (t.store.putAccount a now).tables.accounts.has id = true := by
      rw [Store.putAccount_accounts, Rows.has_put hio.books.sorted, hhas, Bool.or_true]
    exact ⟨hstill _ (h.named x hx).1, hstill _ (h.named x hx).2⟩
  · exact h.entered
  · rw [History.owners_opened]
    exact h.once
  · intro o receipt hmem
    exact h.settled o receipt (by simpa using hmem)
  · intro o receipt hreceipt
    exact List.mem_append_left _ (h.complete o receipt hreceipt)

/-- A transfer that is posted adds its record, its entries and their amounts, and its owner
    has its receipt. -/
theorem Recorded.posted (h : t.Recorded deeds) {o : Nat} {p : Payment} {receipt : TransferReceipt}
    {r : Payment × Store} (hp : t.payments o = some p) (hbefore : p.receipt? = none)
    (hafter : r.1.receipt? = some receipt) (htables : r.2.tables = t.store.tables.post receipt)
    (hsettles : receipt.Settles p.order) (hsource : t.store.tables.accounts.has p.order.source = true)
    (hdestination : t.store.tables.accounts.has p.order.destination = true) :
    (t.put o r).Recorded (deeds ++ [.settled o receipt]) := by
  have hfirst : ∀ receipt', .settled o receipt' ∉ deeds := by
    intro receipt' hmem
    have := (h.settled o receipt' hmem).2 p hp
    rw [hbefore] at this
    cases this
  constructor
  · simp [put, htables, Tables.post, h.transfers]
  · simp [put, htables, Tables.post, h.entries]
  · simp only [put, htables, Tables.post, History.accounts_settled]
    have hposted := h.accounts.map fun a => receipt.credit.apply (receipt.debit.apply a)
    rw [List.map_map] at hposted
    rwa [← List.map_congr_left fun a _ => hsettles.apply_after t.store.tables.transfers a]
  · simp [put, h.opened]
  · intro x hx
    simp only [put, htables, Tables.has_post]
    simp only [put, htables, Tables.post] at hx
    rcases List.mem_append.1 hx with hx | hx
    · exact h.named x hx
    · obtain rfl := List.mem_singleton.1 hx
      rw [← hsettles.transfer] at hsource hdestination
      exact ⟨hsource, hdestination⟩
  · exact (Function.forall_update_iff t.payments fun q p' => ∀ p₀, p' = some p₀ → q < t.entered).2
      ⟨fun _ _ => h.entered o p hp, fun q _ => h.entered q⟩
  · rw [History.owners_settled, List.nodup_append]
    refine ⟨h.once, List.nodup_singleton o, ?_⟩
    intro q hq q' hq' heq
    obtain rfl := List.mem_singleton.1 hq'
    obtain ⟨receipt', hmem⟩ := History.mem_owners.1 hq
    exact hfirst receipt' (heq ▸ hmem)
  · intro q receipt' hmem
    rcases List.mem_append.1 hmem with hmem | hmem
    · have hne : q ≠ o := fun e => hfirst receipt' (e ▸ hmem)
      obtain ⟨hlt, hshows⟩ := h.settled q receipt' hmem
      refine ⟨hlt, ?_⟩
      intro p' hp'
      exact hshows p' (by rwa [put_payments_of_ne _ _ hne] at hp')
    · cases List.mem_singleton.1 hmem
      refine ⟨h.entered o p hp, ?_⟩
      intro p' hp'
      rw [put_payments_self] at hp'
      cases hp'
      exact hafter
  · intro q receipt' hreceipt
    by_cases hq : q = o
    · subst hq
      rw [receipt?, put_payments_self, Option.bind_some, hafter] at hreceipt
      cases hreceipt
      exact List.mem_append_right _ (List.mem_singleton_self _)
    · rw [receipt?, put_payments_of_ne _ _ hq] at hreceipt
      exact List.mem_append_left _ (h.complete q receipt' hreceipt)

theorem Recorded.step (h : t.Recorded deeds) (hio : t.InOrder) (o : Nat) (now : Instant) :
    (t.move (.step o now)).Recorded (deeds ++ (t.deed? (.step o now)).toList) := by
  cases hp : t.payments o with
  | none =>
    have hmove : t.move (.step o now) = t := by simp [Traffic.move, hp]
    have hdeed : t.deed? (.step o now) = none := by simp [deed?, hmove, receipt?, hp]
    rw [hmove, hdeed, Option.toList_none, List.append_nil]
    exact h
  | some p =>
    have hmove : t.move (.step o now) = t.put o (p.step o now t.store) := by simp [Traffic.move, hp]
    have hbefore : t.receipt? o = p.receipt? := by simp [receipt?, hp]
    have hafter : (t.move (.step o now)).receipt? o = (p.step o now t.store).1.receipt? := by simp [receipt?, hmove]
    obtain ⟨w, hw, hkept, hfollows⟩ := hio.watched
    obtain ⟨ops, hturn⟩ := p.turn o now t.store
    rcases hturn.posts hw hkept.toKept (hfollows o p hp) with ⟨hsame, htables⟩ | ⟨receipt, hnone, hsome, hposted⟩
    · have hdeed : t.deed? (.step o now) = none := by
        simp only [deed?, hbefore, hafter, hsame]
        cases p.receipt? <;> rfl
      rw [hdeed, Option.toList_none, List.append_nil, hmove]
      exact h.quiet htables rfl rfl rfl fun p' hp' => ⟨p, hp, by cases hp'; exact hsame⟩
    · have hdeed : t.deed? (.step o now) = some (.settled o receipt) := by
        simp [deed?, hbefore, hafter, hnone, hsome]
      obtain ⟨htables, hsettles, hsource, hdestination⟩ := hposted
      rw [hdeed, hmove]
      exact h.posted hp hnone hsome htables hsettles hsource hdestination

theorem Recorded.stop (h : t.Recorded deeds) (o : Nat) : (t.move (.stop o)).Recorded deeds := by
  unfold Traffic.move
  dsimp only
  split
  · exact h
  · rename_i p hp
    refine h.quiet (o := o) (q := some (p.stop o t.store).1) ?_ rfl rfl rfl ?_
    · simp only [put, Payment.stop]
      split <;> rfl
    · rintro _ ⟨⟩
      refine ⟨p, hp, ?_⟩
      unfold Payment.stop
      split <;> simp_all [Payment.receipt?]

/-- An id that is drawn is no row yet. -/
theorem Recorded.draw (h : t.Recorded deeds) : (t.move .draw).Recorded deeds where
  transfers := h.transfers
  entries := h.entries
  accounts := h.accounts
  opened := h.opened
  named := h.named
  entered := h.entered
  once := h.once
  settled := h.settled
  complete := h.complete

theorem Recorded.enter (h : t.Recorded deeds) (order : TransferOrder) : (t.move (.enter order)).Recorded deeds where
  transfers := h.transfers
  entries := h.entries
  accounts := h.accounts
  opened := h.opened
  named := h.named
  entered := by
    refine (Function.forall_update_iff t.payments fun o p' => ∀ p, p' = some p → o < t.entered + 1).2
      ⟨fun _ _ => by omega, ?_⟩
    intro o _ p hp
    have := h.entered o p hp
    omega
  once := h.once
  settled := by
    intro o receipt hmem
    obtain ⟨hlt, hshows⟩ := h.settled o receipt hmem
    refine ⟨Nat.lt_succ_of_lt hlt, ?_⟩
    intro p hp
    exact hshows p (by rwa [enter_payments_of_ne _ _ (by omega)] at hp)
  complete := by
    intro o receipt hreceipt
    by_cases ho : o = t.entered
    · subst ho
      rw [receipt?, enter_payments_self] at hreceipt
      cases hreceipt
    · rw [receipt?, enter_payments_of_ne _ _ ho] at hreceipt
      exact h.complete o receipt hreceipt

/-- The step: what a move does is written down, and nothing else. -/
theorem Recorded.move (h : t.Recorded deeds) (hio : t.InOrder) {m : Move} (hm : m ≠ .clear) :
    (t.move m).Recorded (deeds ++ (t.deed? m).toList) := by
  cases m with
  | draw => simpa [deed?] using h.draw
  | openAccount a now =>
    by_cases ha : a.id ∈ t.drawn
    · simpa [deed?, ha] using h.openAccount hio ha now
    · rw [t.move_openAccount_of_not_drawn ha]
      simpa [deed?, ha] using h
  | clear => exact absurd rfl hm
  | enter order => simpa [deed?] using h.enter order
  | step o now => exact h.step hio o now
  | stop o => simpa [deed?] using h.stop o
  | drop o =>
    have hquiet : (t.move (.drop o)).Recorded deeds := h.quiet (o := o) (q := none) rfl rfl rfl rfl (by simp)
    simpa [deed?] using hquiet

theorem Recorded.run (h : t.Recorded deeds) (hio : t.InOrder) {moves : List Move} (hclear : .clear ∉ moves) :
    (t.run moves).Recorded (deeds ++ t.history moves) := by
  induction moves generalizing t deeds with
  | nil => simpa [history] using h
  | cons m moves ih =>
    rw [List.mem_cons, not_or] at hclear
    rw [run_cons, history, ← List.append_assoc]
    exact ih (h.move hio (Ne.symm hclear.1)) (hio.move m) hclear.2

theorem recorded_run {moves : List Move} (hclear : .clear ∉ moves) :
    (({} : Traffic).run moves).Recorded (({} : Traffic).history moves) :=
  recorded_empty.run inOrder_empty hclear

/-! ## Transfers that come to no good end -/

/-- The transfer of an owner was asked for and has failed, or was dropped. -/
def Lost (t : Traffic) (o : Nat) : Prop :=
  o < t.entered ∧ ∀ p, t.payments o = some p → ∃ e, p.stage = .finished (.error e)

theorem Lost.receipt? {o : Nat} (h : t.Lost o) : t.receipt? o = none := by
  cases hp : t.payments o with
  | none => simp [Traffic.receipt?, hp]
  | some p =>
    obtain ⟨e, he⟩ := h.2 p hp
    simp [Traffic.receipt?, hp, Payment.receipt?, he]

/-- What is lost stays lost: its owner's number is not given again. -/
theorem Lost.move {o : Nat} (h : t.Lost o) (m : Move) : (t.move m).Lost o := by
  cases m with
  | draw => exact h
  | openAccount a now =>
    unfold Traffic.move
    dsimp only
    split <;> exact h
  | clear => exact h
  | enter order =>
    refine ⟨Nat.lt_succ_of_lt h.1, ?_⟩
    intro p hp
    exact h.2 p (by rwa [enter_payments_of_ne _ _ (Nat.ne_of_lt h.1)] at hp)
  | step q now =>
    unfold Traffic.move
    dsimp only
    split
    · exact h
    · rename_i p hp
      refine ⟨h.1, ?_⟩
      intro p' hp'
      by_cases hq : o = q
      · subst hq
        obtain ⟨e, he⟩ := h.2 p hp
        rw [put_payments_self, Payment.step, he] at hp'
        cases hp'
        exact ⟨e, he⟩
      · exact h.2 p' (by rwa [put_payments_of_ne _ _ hq] at hp')
  | stop q =>
    unfold Traffic.move
    dsimp only
    split
    · exact h
    · rename_i p hp
      refine ⟨h.1, ?_⟩
      intro p' hp'
      by_cases hq : o = q
      · subst hq
        obtain ⟨e, he⟩ := h.2 p hp
        rw [put_payments_self, Payment.stop, he] at hp'
        cases hp'
        exact ⟨e, he⟩
      · exact h.2 p' (by rwa [put_payments_of_ne _ _ hq] at hp')
  | drop q =>
    refine ⟨h.1, ?_⟩
    intro p hp
    by_cases hq : o = q
    · subst hq
      rw [drop_payments_self] at hp
      cases hp
    · exact h.2 p (by rwa [drop_payments_of_ne _ hq] at hp)

theorem receipt?_of_deed? {m : Move} {o : Nat} {r : TransferReceipt} (h : t.deed? m = some (.settled o r)) :
    (t.move m).receipt? o = some r := by
  cases m with
  | step q now =>
    simp only [deed?] at h
    split at h
    · cases h
    · obtain ⟨r', hr', heq⟩ := Option.map_eq_some_iff.1 h
      cases heq
      exact hr'
  | openAccount a now =>
    simp only [deed?] at h
    split at h <;> cases h
  | _ => cases h

/-- The deeds of a run are the receipts there were at some time. -/
theorem exists_of_mem_history {o : Nat} {r : TransferReceipt} {moves : List Move}
    (h : .settled o r ∈ t.history moves) : ∃ before, before <+: moves ∧ (t.run before).receipt? o = some r := by
  induction moves generalizing t with
  | nil => cases h
  | cons m moves ih =>
    rcases List.mem_append.1 h with h | h
    · exact ⟨[m], ⟨moves, rfl⟩, receipt?_of_deed? (Option.mem_toList.1 h)⟩
    · obtain ⟨before, hle, hr⟩ := ih h
      exact ⟨m :: before, (List.prefix_cons_inj m).2 hle, hr⟩

theorem Lost.run {o : Nat} (h : t.Lost o) (moves : List Move) : (t.run moves).Lost o :=
  run_induction (I := fun t => t.Lost o) (fun _ m h => h.move m) h moves

theorem Lost.not_mem_owners {o : Nat} (h : t.Lost o) (moves : List Move) : o ∉ (t.history moves).owners := by
  intro hmem
  obtain ⟨r, hr⟩ := History.mem_owners.1 hmem
  obtain ⟨before, -, hreceipt⟩ := exists_of_mem_history hr
  rw [(h.run before).receipt?] at hreceipt
  cases hreceipt

/-- A transfer without a receipt has done nothing so far. -/
theorem Recorded.not_mem_owners (h : t.Recorded deeds) {o : Nat} {p : Payment} (hp : t.payments o = some p)
    (hreceipt : p.receipt? = none) : o ∉ deeds.owners := by
  intro hmem
  obtain ⟨r, hr⟩ := History.mem_owners.1 hmem
  rw [(h.settled o r hr).2 p hp] at hreceipt
  cases hreceipt

/-! ## The whole history -/

/-- As long as nobody empties the tables, whatever moves there were since the store was
    empty: the transfers are those of the receipts in the order of their commits; the
    entries are those of the openings and receipts, a debit with its credit; the accounts are
    those that were opened, in the order of their ids, each with its opening balance and what
    transfers brought and without what they took; the receipts are those that were given out,
    one to an owner; and a transfer that failed or was dropped before has done nothing. -/
theorem history_run {moves : List Move} (hclear : .clear ∉ moves) :
    let t := ({} : Traffic).run moves
    let deeds := ({} : Traffic).history moves
    t.store.tables.transfers = deeds.receipts.map (·.transfer) ∧
    t.store.tables.entries = deeds.entries ∧
    deeds.accounts = t.opened ∧
    t.store.tables.accounts.Pairwise (·.id < ·.id) ∧
    t.store.tables.accounts.Perm (t.opened.map fun a => { a with
      balance := a.balance + inflow t.store.tables.transfers a.id - outflow t.store.tables.transfers a.id }) ∧
    deeds.owners.Nodup ∧
    (∀ o r, .settled o r ∈ deeds ↔ ∃ before, before <+: moves ∧ (({} : Traffic).run before).receipt? o = some r) ∧
    (∀ o before p e, before <+: moves → (({} : Traffic).run before).payments o = some p →
      p.stage = .finished (.error e) → o ∉ deeds.owners) ∧
    ∀ o before p, before ++ [.drop o] <+: moves → (({} : Traffic).run before).payments o = some p →
      p.receipt? = none → o ∉ deeds.owners := by
  intro t deeds
  have h : t.Recorded deeds := recorded_run hclear
  have hbefore {before : List Move} (hle : before <+: moves) :
      (({} : Traffic).run before).Recorded (({} : Traffic).history before) :=
    recorded_run fun hmem => hclear (hle.subset hmem)
  have hsorted : t.store.tables.accounts.Sorted := (inOrder_run moves).books.sorted
  refine ⟨h.transfers, h.entries, h.opened, hsorted, h.opened ▸ h.accounts, h.once, ?_, ?_, ?_⟩
  · intro o r
    constructor
    · exact exists_of_mem_history
    · rintro ⟨before, ⟨after, rfl⟩, hr⟩
      simp only [deeds, history_append]
      exact List.mem_append_left _ ((hbefore ⟨after, rfl⟩).complete o r hr)
  · rintro o before p e ⟨after, rfl⟩ hp he
    have hb := hbefore (List.prefix_append before after)
    have hlost : (({} : Traffic).run before).Lost o :=
      ⟨hb.entered o p hp, fun p' hp' => ⟨e, by cases hp.symm.trans hp'; exact he⟩⟩
    simp only [deeds, history_append, History.owners_append, List.mem_append, not_or]
    exact ⟨hb.not_mem_owners hp (by simp [Payment.receipt?, he]), hlost.not_mem_owners after⟩
  · rintro o before p ⟨after, rfl⟩ hp hreceipt
    have hb := hbefore ⟨[.drop o] ++ after, (List.append_assoc ..).symm⟩
    have hlost : (({} : Traffic).run (before ++ [.drop o])).Lost o := by
      rw [run_append]
      exact ⟨hb.entered o p hp, fun p' hp' => by simp at hp'⟩
    simp only [deeds, history_append, history_singleton, History.owners_append, List.mem_append, not_or]
    exact ⟨⟨hb.not_mem_owners hp hreceipt, by simp [deed?, History.owners]⟩, hlost.not_mem_owners after⟩

/-- Two openings that overlap, and one that never comes to its end; then one transfer that is
    carried out, one that fails, one that is cancelled and one that is dropped. -/
def fourTransfers : List Move :=
  let opened : List Move := [.draw, .draw, .draw, .openAccount ⟨2, "bob", "EUR", 0, .epoch⟩ .epoch,
    .openAccount ⟨1, "ann", "EUR", 100, .epoch⟩ .epoch]
  let asked : List Move := [.enter ⟨1, 2, 30⟩, .enter ⟨1, 9, 5⟩, .enter ⟨2, 1, 5⟩, .enter ⟨1, 2, 5⟩]
  let stopped : List Move := [.step 2 .epoch, .stop 2, .step 2 .epoch, .step 3 .epoch, .drop 3]
  opened ++ asked ++ List.replicate 15 (.step 0 .epoch) ++ List.replicate 4 (.step 1 .epoch) ++ stopped

theorem history_run_fourTransfers :
    Move.clear ∉ fourTransfers ∧ (({} : Traffic).history fourTransfers).owners = [0] ∧
      (({} : Traffic).history fourTransfers).accounts.map (·.id) = [2, 1] ∧
      (({} : Traffic).run fourTransfers).store.tables.accounts.map (·.balance) = [70, 30] ∧
      (({} : Traffic).run fourTransfers).store.tables.transfers =
        (({} : Traffic).history fourTransfers).receipts.map (·.transfer) ∧
      (({} : Traffic).run fourTransfers).store.tables.transfers.map Transfer.order = [⟨1, 2, 30⟩] := by
  have hclear : Move.clear ∉ fourTransfers := by simp [fourTransfers]
  have h := history_run hclear
  exact ⟨hclear, by decide +kernel, by decide +kernel, by decide +kernel, h.1, by decide +kernel⟩

end Traffic

end Giro
