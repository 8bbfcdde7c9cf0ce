import Giro.Proofs.Books
import Giro.Proofs.Findings
import Giro.Proofs.Settlement

/-
  Giro.Proofs.Neutral — a transfer neither makes nor hides a fault, whatever the state of the
  tables was before.

  The books need not be in order: balances, entries and transfers may have been written in
  any way and may not fit together. The entries of a new transfer may then back an older one
  that lacked them, so that another transfer is reported. What stays is the number: as many
  transfers fail to find an entry as there are legs that are needed beyond those of the
  entries (`Holds.length_checkTransfers`), and both sides get the same two legs.

  Main statement: `transfer_neutral`.
-/

namespace Giro

namespace Audit

/-! ## How many issues each check has -/

theorem strangers_congr {accounts accounts' : List Account} (hids : accounts'.map (·.id) = accounts.map (·.id))
    (entries : List Entry) : strangers accounts' entries = strangers accounts entries := by
  rw [strangers, strangers, hids]

/-- Entries of listed accounts bring in no strangers. -/
theorem strangers_append {accounts : List Account} {entries entries' : List Entry}
    (h : ∀ e ∈ entries', ∃ a ∈ accounts, a.id = e.account) :
    strangers accounts (entries ++ entries') = strangers accounts entries := by
  have hknown : (entries'.map (·.account)).toFinset ⊆ (accounts.map (·.id)).toFinset := by
    intro id hid
    obtain ⟨e, he, rfl⟩ := List.mem_map.1 (List.mem_toFinset.1 hid)
    exact List.mem_toFinset.2 (List.mem_map.2 (h e he))
  rw [strangers, strangers, List.map_append, List.toFinset_append, Finset.union_sdiff_distrib,
    Finset.sdiff_eq_empty_iff_subset.2 hknown, Finset.union_empty]

theorem demand_append (transfers transfers' : List Transfer) :
    demand (transfers ++ transfers') = demand transfers + demand transfers' := by
  rw [demand, List.filter_append, List.flatMap_append, ← Multiset.coe_add]
  rfl

end Audit

/-! ## A transfer that is posted -/

/-- The audit of the tables. -/
def Tables.audit (t : Tables) : Audit := .ofRows t.accounts t.entries t.transfers

/-- By how much the balance of an account is more than the sum of its entries. An account that
    is not there has none. -/
def Tables.surplus (t : Tables) (account : Int) : Int :=
  (t.accounts.find? account).elim 0 (·.balance) - Audit.entrySum t.entries account

/-- How many entries of an account no transfer has taken. -/
def Tables.unpaired (t : Tables) (account : Int) : Int :=
  (Audit.leftovers (Audit.checkTransfers t.transfers (Audit.legCounts t.entries)).2).count account

namespace Tables

variable {t : Tables} {r : TransferReceipt} {order : TransferOrder}

/-- A transfer needs just the legs that it brings. -/
theorem legs_post (hr : r.Settles order) :
    ((t.post r).entries.map Audit.legOf : Multiset Audit.Leg) = (t.entries.map Audit.legOf : List Audit.Leg) +
        (Audit.legs r.transfer : Multiset Audit.Leg) ∧
      Audit.demand (t.post r).transfers = Audit.demand t.transfers + (Audit.legs r.transfer : Multiset Audit.Leg) := by
  constructor
  · rw [post, List.map_append, hr.legs, ← Multiset.coe_add]
  · rw [post, Audit.demand_append, Audit.demand_cons, if_pos hr.amount_pos]
    rfl

theorem unpaired_post (hr : r.Settles order) (account : Int) : (t.post r).unpaired account = t.unpaired account := by
  obtain ⟨hentries, hdemand⟩ := legs_post (t := t) hr
  rw [unpaired, unpaired, Audit.count_leftovers_checkTransfers, Audit.count_leftovers_checkTransfers, Audit.spareCount,
    Audit.spareCount, Audit.spareLegs, Audit.spareLegs, hentries, hdemand, add_tsub_add_eq_tsub_right]

theorem surplus_post (hr : r.Settles order) (hsource : t.accounts.has order.source = true)
    (hdestination : t.accounts.has order.destination = true) (account : Int) :
    (t.post r).surplus account = t.surplus account := by
  have hsum : Audit.entrySum (t.post r).entries account =
      Audit.entrySum t.entries account + Audit.entrySum [r.debit, r.credit] account := Audit.entrySum_append ..
  have hfind : (t.post r).accounts.find? account =
      (t.accounts.find? account).map fun a => r.credit.apply (r.debit.apply a) := Rows.find?_map r.apply_id ..
  rw [surplus, surplus, hsum, hfind]
  cases hfound : t.accounts.find? account with
  | some a =>
    obtain rfl : a.id = account := Rows.id_of_find? hfound
    simp only [Option.map_some, Option.elim_some, r.balance_apply]
    omega
  | none =>
    have hnot : ∀ e ∈ [r.debit, r.credit], e.account ≠ account := by
      intro e he heq
      have hno : t.accounts.has account = false := Rows.has_eq_false_iff.2 hfound
      rcases hr.account_mem he with hacc | hacc
      · rw [← heq, hacc, hsource] at hno
        cases hno
      · rw [← heq, hacc, hdestination] at hno
        cases hno
    rw [Audit.entrySum_eq_zero hnot, Int.add_zero]
    rfl

/-- The report has as many issues as before. -/
theorem length_issues_post (hr : r.Settles order) (hsorted : t.accounts.Sorted)
    (hsource : t.accounts.has order.source = true) (hdestination : t.accounts.has order.destination = true) :
    (t.post r).audit.issues.length = t.audit.issues.length := by
  have hids := t.post_ids r
  have hmismatches : (Audit.checkBalances (t.post r).accounts (Audit.entrySums (t.post r).entries)).1.length =
      (Audit.checkBalances t.accounts (Audit.entrySums t.entries)).1.length := by
    rw [Audit.length_checkBalances (hids ▸ hsorted.nodup_ids), Audit.length_checkBalances hsorted.nodup_ids]
    simp only [post, List.countP_map, Function.comp_def, Audit.count_entrySums, r.apply_id, r.balance_apply,
      Audit.entrySum_append, ne_eq, add_left_inj]
  have hstrangers : Audit.strangers (t.post r).accounts (t.post r).entries = Audit.strangers t.accounts t.entries := by
    rw [Audit.strangers_congr hids]
    refine Audit.strangers_append fun e he => ?_
    rcases hr.account_mem he with hacc | hacc <;> rw [hacc]
    · exact Rows.has_iff.1 hsource
    · exact Rows.has_iff.1 hdestination
  have hunbacked : (Audit.checkTransfers (t.post r).transfers (Audit.legCounts (t.post r).entries)).1.length =
      (Audit.checkTransfers t.transfers (Audit.legCounts t.entries)).1.length := by
    obtain ⟨hentries, hdemand⟩ := legs_post (t := t) hr
    rw [(Audit.holds_legCounts _).length_checkTransfers, (Audit.holds_legCounts _).length_checkTransfers, hentries,
      hdemand, add_tsub_add_eq_tsub_right, post, List.countP_append, List.countP_singleton,
      decide_eq_false (Int.not_le.2 hr.amount_pos)]
    rfl
  have hcrowded : Audit.checkLeftovers (t.post r).accounts
        (Audit.leftovers (Audit.checkTransfers (t.post r).transfers (Audit.legCounts (t.post r).entries)).2) =
      Audit.checkLeftovers t.accounts
        (Audit.leftovers (Audit.checkTransfers t.transfers (Audit.legCounts t.entries)).2) :=
    Audit.checkLeftovers_congr hids (unpaired_post hr)
  simp only [audit, Audit.ofRows, List.length_append, Audit.unknownAccounts_checkBalances, List.length_map, hmismatches,
    hstrangers, hunbacked, hcrowded]

/-- The audit is as it was, but for one more transfer that is checked. -/
theorem report_post (hr : r.Settles order) (hsorted : t.accounts.Sorted)
    (hsource : t.accounts.has order.source = true) (hdestination : t.accounts.has order.destination = true) :
    let report := t.audit.report
    let report' := (t.post r).audit.report
    report'.isValid = report.isValid ∧ report'.issues.length = report.issues.length ∧
      report'.accountsChecked = report.accountsChecked ∧ report'.totalBalance = report.totalBalance ∧
      report'.transfersChecked = report.transfersChecked + 1 := by
  intro report report'
  have hissues : (t.post r).audit.issues.length = t.audit.issues.length :=
    length_issues_post hr hsorted hsource hdestination
  refine ⟨?_, ?_, List.length_map _, t.total_post hr hsorted.nodup_ids hsource hdestination, List.length_append⟩
  · show (t.post r).audit.issues.isEmpty = t.audit.issues.isEmpty
    rw [Bool.eq_iff_iff, List.isEmpty_iff_length_eq_zero, List.isEmpty_iff_length_eq_zero, hissues]
  · show ((t.post r).audit.issues.map Issue.text).length = (t.audit.issues.map Issue.text).length
    rw [List.length_map, List.length_map, hissues]

end Tables

/-! ## A transfer that comes to a good end -/

/-- Whatever was done before, as long as no other transaction is open, a transfer that comes
    to a good end leaves the audit as it was, but for one more transfer that is checked: the
    tables are accepted or not as before, with as many issues, as many accounts and the same
    total. Of no account does the difference between balance and entries change, nor the
    number of entries that no transfer has taken. -/
theorem transfer_neutral (acts : List Registry.Act) {b : Bank} (hstore : b.store = (({} : Registry).run acts).store)
    (hrest : b.store.txs = []) {order : TransferOrder} {receipt : TransferReceipt} {o : Nat} {timer : Timer}
    {alarms : List Alarm} {verdict : Outcome TransferReceipt → Option Event}
    (hok : ((Job.start o timer [] alarms (Work.transfer order) verdict).poll b).1.stage = .finished (.ok receipt)) :
    let t := b.store.tables
    let t' := ((Job.start o timer [] alarms (Work.transfer order) verdict).poll b).2.store.tables
    (t'.audit.report.isValid = t.audit.report.isValid ∧
      t'.audit.report.issues.length = t.audit.report.issues.length ∧
      t'.audit.report.accountsChecked = t.audit.report.accountsChecked ∧
      t'.audit.report.totalBalance = t.audit.report.totalBalance ∧
      t'.audit.report.transfersChecked = t.audit.report.transfersChecked + 1) ∧
    ∀ account, t'.surplus account = t.surplus account ∧ t'.unpaired account = t.unpaired account := by
  intro t t'
  have hidle : b.store.Idle := Registry.idle_run acts hstore hrest
  obtain ⟨hpost, hsettles, hsource, hdestination⟩ := Job.poll_posts hidle hok
  have ht' : t' = t.post receipt := hpost
  rw [ht']
  exact ⟨Tables.report_post hsettles hidle.sorted hsource hdestination, fun account =>
    ⟨Tables.surplus_post hsettles hsource hdestination account, Tables.unpaired_post hsettles account⟩⟩

/-- A record of a transfer without its entries, and a balance that was written over. -/
def tampered : List Registry.Act :=
  [.step (.operation (.createAccount "anna" "USD" 100 .epoch)),
    .step (.operation (.createAccount "ben" "USD" 50 .epoch)),
    .step (.operation (.begin 5)),
    .step (.operation (.call 5 (.insertTransfer ⟨1, 2, 10⟩) .epoch)),
    .step (.operation (.call 5 (.update 1 70) .epoch)),
    .step (.operation (.commit 5))]

/-- The entries of the new transfer back the old one. -/
theorem transfer_neutral_tampered :
    let b : Bank := { store := (({} : Registry).run tampered).store }
    let look := (Job.start 7 ⟨60000, 0⟩ [] [] (Work.transfer ⟨1, 2, 10⟩) fun _ => none).poll b
    let receipt := TransferOrder.receipt ⟨1, 2, 10⟩ ⟨3, 2, 3⟩ .epoch ⟨1, "anna", "USD", 70, .epoch⟩
      ⟨2, "ben", "USD", 50, .epoch⟩
    b.store.txs = [] ∧ look.1.stage = .finished (.ok receipt) ∧
      b.store.tables.audit.issues = [.balanceMismatch 1 70 100, .noDebit 1 (-10) 1, .noCredit 1 10 2] ∧
      look.2.store.tables.audit.issues = [.balanceMismatch 1 60 90, .noDebit 2 (-10) 1, .noCredit 2 10 2] ∧
      look.2.store.tables.audit.report.issues.length = 3 ∧ look.2.store.tables.surplus 1 = -30 := by
  intro b look receipt
  subst look
  have hrest : b.store.txs = [] := rfl
  obtain ⟨hstage, hstore⟩ := Job.poll_settles (b := b) (Registry.idle_run tampered rfl hrest) ⟨1, 2, 10⟩
    (by decide) 7 ⟨60000, 0⟩ [] fun _ => none
  have hresult : (b.store.settle b.stamp ⟨1, 2, 10⟩).1 = .ok receipt := rfl
  rw [hresult] at hstage
  have hbefore : b.store.tables.audit.issues = [.balanceMismatch 1 70 100, .noDebit 1 (-10) 1, .noCredit 1 10 2] := by
    decide +kernel
  have hafter : (b.store.settle b.stamp ⟨1, 2, 10⟩).2.tables.audit.issues =
      [.balanceMismatch 1 60 90, .noDebit 2 (-10) 1, .noCredit 2 10 2] := by
    decide +kernel
  have hsurplus : b.store.tables.surplus 1 = -30 := by
    decide +kernel
  have hlength : b.store.tables.audit.report.issues.length = 3 := by
    decide +kernel
  obtain ⟨⟨-, hissues, -⟩, heach⟩ := transfer_neutral tampered (b := b) rfl hrest hstage
  refine ⟨hrest, hstage, hbefore, ?_, hissues.trans hlength, (heach 1).1.trans hsurplus⟩
  rw [hstore, hafter]

end Giro
