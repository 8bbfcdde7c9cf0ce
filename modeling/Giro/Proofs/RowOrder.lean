import Giro.Proofs.Findings

/-
  Giro.Proofs.RowOrder — what the order of the rows changes about an audit.

  Entries are only counted and summed up, so their order is forgotten at once
  (`ofRows_of_entries`). Transfers take their entries one after the other: in another order
  another one of them goes away empty, but as many do (`length_unbacked_of_transfers`), since
  the legs that are missing are a difference of multisets. Accounts with distinct ids are
  looked at one by one, so their issues move with them (`mismatches_of_distinct`).

  Main statement: `order_irrelevant`.
-/

namespace Giro

/-- What an issue is about: a listed account, an account that is not listed, or a transfer. -/
inductive Issue.Subject where
  | account
  | stranger
  | transfer
  deriving DecidableEq

def Issue.subject : Issue → Subject
  | balanceMismatch .. => .account
  | unknownAccount .. => .stranger
  | amountNotPositive .. => .transfer
  | noDebit .. => .transfer
  | noCredit .. => .transfer
  | unpaired .. => .account

namespace Audit

/-- The same audit but for the transfers that are reported: as many issues of transfers, in
    one place among the others, which are the same in the same order. -/
structure SameButTransfers (a b : Audit) : Prop where
  isValid : b.report.isValid = a.report.isValid
  count : b.report.issues.length = a.report.issues.length
  accountsChecked : b.report.accountsChecked = a.report.accountsChecked
  transfersChecked : b.report.transfersChecked = a.report.transfersChecked
  totalBalance : b.report.totalBalance = a.report.totalBalance
  issues : ∃ before after reported reported' : List Issue,
    a.issues = before ++ reported ++ after ∧ b.issues = before ++ reported' ++ after ∧
      reported'.length = reported.length ∧ (∀ i ∈ before ++ after, i.subject ≠ .transfer) ∧
      ∀ i ∈ reported ++ reported', i.subject = .transfer

/-- The same audit but for the order of the accounts: the issues of each account come in its
    turn, before all others and after them, and the others are the same in the same order. -/
structure SameButAccountOrder (accounts accounts' : List Account) (a b : Audit) : Prop where
  isValid : b.report.isValid = a.report.isValid
  count : b.report.issues.length = a.report.issues.length
  accountsChecked : b.report.accountsChecked = a.report.accountsChecked
  transfersChecked : b.report.transfersChecked = a.report.transfersChecked
  totalBalance : b.report.totalBalance = a.report.totalBalance
  issues : ∃ (before after : Account → List Issue) (others : List Issue),
    a.issues = accounts.flatMap before ++ others ++ accounts.flatMap after ∧
      b.issues = accounts'.flatMap before ++ others ++ accounts'.flatMap after ∧
      (∀ account, ∀ i ∈ before account ++ after account, i.subject = .account) ∧
      ∀ i ∈ others, i.subject ≠ .account

/-! ## What each check finds issues about -/

theorem mem_rowByRow {α β : Type} {find : List α → α → List β} {rows : List α} {b : β}
    (h : b ∈ rowByRow find rows) : ∃ before a, b ∈ find before a := by
  obtain ⟨i, -, hb⟩ := List.mem_flatMap.1 h
  exact ⟨_, _, hb⟩

theorem subject_of_mem_mismatch {sum : Int → Int} {before : List Account} {a : Account} {i : Issue}
    (h : i ∈ mismatch sum before a) : i.subject = .account := by
  obtain ⟨-, hi⟩ := List.mem_ite_nil_left.1 h
  rw [List.mem_singleton.1 hi, Issue.subject]

theorem subject_of_mem_unbacked {entries : List Entry} {before : List Transfer} {t : Transfer} {i : Issue}
    (h : i ∈ unbacked entries before t) : i.subject = .transfer := by
  unfold unbacked at h
  split at h
  · rw [List.mem_singleton.1 h, Issue.subject]
  · rcases List.mem_append.1 h with hout | hinto
    · obtain ⟨-, hi⟩ := List.mem_ite_nil_right.1 hout
      rw [List.mem_singleton.1 hi, Issue.subject]
    · obtain ⟨-, hi⟩ := List.mem_ite_nil_right.1 hinto
      rw [List.mem_singleton.1 hi, Issue.subject]

theorem subject_of_mem_crowded {entries : List Entry} {transfers : List Transfer} {a : Account} {i : Issue}
    (h : i ∈ crowded entries transfers a) : i.subject = .account := by
  obtain ⟨-, hi⟩ := List.mem_ite_nil_right.1 h
  rw [List.mem_singleton.1 hi, Issue.subject]

/-! ## Entries in another order -/

section Entries

variable {entries entries' : List Entry}

theorem entrySum_of_entries (h : entries'.Perm entries) : entrySum entries' = entrySum entries :=
  funext fun _ => ((h.filter _).map _).sum_eq

theorem strangers_of_entries (h : entries'.Perm entries) (accounts : List Account) :
    strangers accounts entries' = strangers accounts entries := by
  rw [strangers, strangers, List.toFinset_eq_of_perm _ _ (h.map _)]

theorem unbacked_of_entries (h : entries'.Perm entries) : unbacked entries' = unbacked entries := by
  funext before t
  simp only [unbacked, h.countP_eq]

theorem spareLegs_of_entries (h : entries'.Perm entries) (transfers : List Transfer) :
    spareLegs entries' transfers = spareLegs entries transfers := by
  rw [spareLegs, spareLegs, Multiset.coe_eq_coe.2 (h.map legOf)]

/-- The audit does not see the order of the entries. -/
theorem ofRows_of_entries (h : entries'.Perm entries) (accounts : List Account) (transfers : List Transfer) :
    ofRows accounts entries' transfers = ofRows accounts entries transfers := by
  have hcrowded : crowded entries' transfers = crowded entries transfers := by
    funext a
    rw [crowded, crowded, spareCount, spareCount, spareLegs_of_entries h]
  simp only [ofRows, checkBalances_entrySums, unknownAccounts_checkBalances, checkTransfers_legCounts,
    checkLeftovers_checkTransfers, entrySum_of_entries h, strangers_of_entries h, unbacked_of_entries h, hcrowded]

end Entries

/-! ## Transfers in another order -/

section Transfers

variable {transfers transfers' : List Transfer}

theorem demand_of_transfers (h : transfers'.Perm transfers) : demand transfers' = demand transfers :=
  Multiset.coe_eq_coe.2 ((h.filter _).flatMap_right _)

/-- As many legs are missing, whichever transfers lack them. -/
theorem length_unbacked_of_transfers (h : transfers'.Perm transfers) (entries : List Entry) :
    (rowByRow (unbacked entries) transfers').length = (rowByRow (unbacked entries) transfers).length := by
  rw [← checkTransfers_legCounts, ← checkTransfers_legCounts, (holds_legCounts entries).length_checkTransfers,
    (holds_legCounts entries).length_checkTransfers, h.countP_eq, demand_of_transfers h]

theorem crowded_of_transfers (h : transfers'.Perm transfers) (entries : List Entry) :
    crowded entries transfers' = crowded entries transfers := by
  funext a
  rw [crowded, crowded, spareCount, spareCount, spareLegs, spareLegs, demand_of_transfers h]

end Transfers

/-! ## Accounts in another order -/

section Accounts

variable {accounts accounts' : List Account}

/-- Each of several accounts with distinct ids is the first one of its id. -/
theorem mismatches_of_distinct (hdistinct : (accounts.map (·.id)).Nodup) (sum : Int → Int) :
    rowByRow (mismatch sum) accounts = accounts.flatMap (mismatch sum []) := by
  suffices hprefix : ∀ before : List Account, (∀ a ∈ accounts, a.id ∉ before.map (·.id)) →
      rowByRow (fun later => mismatch sum (before ++ later)) accounts = accounts.flatMap (mismatch sum []) by
    exact hprefix [] fun a _ => List.not_mem_nil
  induction accounts with
  | nil => intro before _; rfl
  | cons a accounts ih =>
    intro before hbefore
    obtain ⟨ha, haccounts⟩ := List.nodup_cons.1 hdistinct
    obtain ⟨hfirst, hrest⟩ := List.forall_mem_cons.1 hbefore
    have hlater : ∀ b ∈ accounts, b.id ∉ (before ++ [a]).map (·.id) := by
      intro b hb hmem
      rw [List.map_append, List.mem_append] at hmem
      rcases hmem with hmem | hmem
      · exact hrest b hb hmem
      · exact ha (List.mem_map.2 ⟨b, hb, List.mem_singleton.1 hmem⟩)
    have htail := ih haccounts (before ++ [a]) hlater
    simp only [List.append_assoc, List.singleton_append] at htail
    rw [rowByRow_cons, List.flatMap_cons, htail, List.append_nil, mismatch, if_neg hfirst]
    rfl

theorem strangers_of_accounts (h : accounts'.Perm accounts) (entries : List Entry) :
    strangers accounts' entries = strangers accounts entries := by
  rw [strangers, strangers, List.toFinset_eq_of_perm _ _ (h.map _)]

end Accounts

/-! ## The audit -/

/-- As many issues, and so accepted or not alike. -/
theorem isValid_of_length {a b : Audit} (h : b.issues.length = a.issues.length) :
    b.report.isValid = a.report.isValid ∧ b.report.issues.length = a.report.issues.length := by
  constructor
  · show b.issues.isEmpty = a.issues.isEmpty
    rw [Bool.eq_iff_iff, List.isEmpty_iff_length_eq_zero, List.isEmpty_iff_length_eq_zero, h]
  · show (b.issues.map Issue.text).length = (a.issues.map Issue.text).length
    rw [List.length_map, List.length_map, h]

section OfRows

variable {accounts accounts' : List Account} {entries : List Entry} {transfers transfers' : List Transfer}

theorem sameButTransfers (h : transfers'.Perm transfers) :
    SameButTransfers (ofRows accounts entries transfers) (ofRows accounts entries transfers') := by
  have hlength := length_unbacked_of_transfers h entries
  have hissues : (ofRows accounts entries transfers').issues.length = (ofRows accounts entries transfers).issues.length := by
    simp only [ofRows, checkTransfers_legCounts, checkLeftovers_checkTransfers, crowded_of_transfers h,
      List.length_append, hlength]
  obtain ⟨hvalid, hcount⟩ := isValid_of_length hissues
  let before := rowByRow (mismatch (entrySum entries)) accounts ++
    (strangers accounts entries).map fun id => Issue.unknownAccount id (entrySum entries id)
  refine ⟨hvalid, hcount, rfl, h.length_eq, rfl, before, accounts.flatMap (crowded entries transfers),
    rowByRow (unbacked entries) transfers, rowByRow (unbacked entries) transfers', ?_, ?_, hlength, ?_, ?_⟩
  · simp only [ofRows, checkBalances_entrySums, unknownAccounts_checkBalances, checkTransfers_legCounts,
      checkLeftovers_checkTransfers, before]
  · simp only [ofRows, checkBalances_entrySums, unknownAccounts_checkBalances, checkTransfers_legCounts,
      checkLeftovers_checkTransfers, crowded_of_transfers h, before]
  · intro i hi
    simp only [before, List.mem_append, List.mem_map, List.mem_flatMap] at hi
    rcases hi with (hi | ⟨id, -, rfl⟩) | ⟨a, -, hi⟩
    · obtain ⟨_, _, hi⟩ := mem_rowByRow hi
      simp [subject_of_mem_mismatch hi]
    · simp [Issue.subject]
    · simp [subject_of_mem_crowded hi]
  · intro i hi
    rcases List.mem_append.1 hi with hi | hi
    · obtain ⟨_, _, hi⟩ := mem_rowByRow hi
      exact subject_of_mem_unbacked hi
    · obtain ⟨_, _, hi⟩ := mem_rowByRow hi
      exact subject_of_mem_unbacked hi

theorem sameButAccountOrder (hdistinct : (accounts.map (·.id)).Nodup) (h : accounts'.Perm accounts) :
    SameButAccountOrder accounts accounts' (ofRows accounts entries transfers)
      (ofRows accounts' entries transfers) := by
  have hdistinct' : (accounts'.map (·.id)).Nodup := (h.map _).nodup_iff.2 hdistinct
  let others := (strangers accounts entries).map (fun id => Issue.unknownAccount id (entrySum entries id)) ++
    rowByRow (unbacked entries) transfers
  have hparts : ∀ listed : List Account, (listed.map (·.id)).Nodup → listed.Perm accounts →
      (ofRows listed entries transfers).issues = listed.flatMap (mismatch (entrySum entries) []) ++ others ++
        listed.flatMap (crowded entries transfers) := by
    intro listed hlisted hperm
    simp only [ofRows, checkBalances_entrySums, mismatches_of_distinct hlisted, unknownAccounts_checkBalances,
      checkTransfers_legCounts, checkLeftovers_checkTransfers, strangers_of_accounts hperm, others, List.append_assoc]
  have hissues : (ofRows accounts' entries transfers).issues.length = (ofRows accounts entries transfers).issues.length := by
    rw [hparts accounts' hdistinct' h, hparts accounts hdistinct (.refl _)]
    simp only [List.length_append, (h.flatMap_right _).length_eq]
  obtain ⟨hvalid, hcount⟩ := isValid_of_length hissues
  refine ⟨hvalid, hcount, h.length_eq, rfl, total_of_accounts h, mismatch (entrySum entries) [],
    crowded entries transfers, others, hparts accounts hdistinct (.refl _), hparts accounts' hdistinct' h, ?_, ?_⟩
  · intro account i hi
    rcases List.mem_append.1 hi with hi | hi
    · exact subject_of_mem_mismatch hi
    · exact subject_of_mem_crowded hi
  · intro i hi
    simp only [others, List.mem_append, List.mem_map] at hi
    rcases hi with ⟨id, -, rfl⟩ | hi
    · simp [Issue.subject]
    · obtain ⟨_, _, hi⟩ := mem_rowByRow hi
      simp [subject_of_mem_unbacked hi]

end OfRows

/-- What the order of the rows changes: that of the entries nothing at all; that of the
    transfers only which of them are reported; that of accounts with distinct ids only the
    order of their issues. So whoever lists the same rows, in whatever order, is accepted or
    refused alike. -/
theorem order_irrelevant (accounts : List Account) (entries : List Entry) (transfers : List Transfer) :
    (∀ entries', entries'.Perm entries →
      ofRows accounts entries' transfers = ofRows accounts entries transfers ∧
        (ofRows accounts entries' transfers).report = (ofRows accounts entries transfers).report) ∧
    (∀ transfers', transfers'.Perm transfers →
      SameButTransfers (ofRows accounts entries transfers) (ofRows accounts entries transfers')) ∧
    ((accounts.map (·.id)).Nodup → ∀ accounts', accounts'.Perm accounts →
      SameButAccountOrder accounts accounts' (ofRows accounts entries transfers)
        (ofRows accounts' entries transfers) ∧
      ∀ entries' transfers', entries'.Perm entries → transfers'.Perm transfers →
        (ofReads (.ok accounts') (.ok entries') (.ok transfers')).map isValid =
          (ofReads (.ok accounts) (.ok entries) (.ok transfers)).map isValid) := by
  refine ⟨?_, ?_, ?_⟩
  · intro entries' h
    have hsame := ofRows_of_entries h accounts transfers
    exact ⟨hsame, congrArg report hsame⟩
  · intro transfers' h
    exact sameButTransfers h
  · intro hdistinct accounts' haccounts
    refine ⟨sameButAccountOrder hdistinct haccounts, ?_⟩
    intro entries' transfers' hentries htransfers
    have hvalid : (ofRows accounts' entries' transfers').isValid = (ofRows accounts entries transfers).isValid := by
      calc (ofRows accounts' entries' transfers').isValid
          = (ofRows accounts' entries transfers').isValid := by rw [ofRows_of_entries hentries]
        _ = (ofRows accounts' entries transfers).isValid := (sameButTransfers htransfers).isValid
        _ = (ofRows accounts entries transfers).isValid := (sameButAccountOrder hdistinct haccounts).isValid
    exact congrArg Except.ok hvalid

/-- One payment was recorded twice and paid once. The record that comes second is reported,
    whichever it is. -/
theorem order_irrelevant_doubled :
    let accounts : List Account := [⟨1, "anna", "USD", -10, .epoch⟩, ⟨2, "ben", "USD", 15, .epoch⟩]
    let entries : List Entry := [⟨1, 1, -10, .epoch⟩, ⟨2, 2, 10, .epoch⟩]
    let transfers : List Transfer := [⟨1, 1, 2, 10, .epoch⟩, ⟨2, 1, 2, 10, .epoch⟩]
    (accounts.map (·.id)).Nodup ∧
      (ofRows accounts entries transfers).issues = [.balanceMismatch 2 15 10, .noDebit 2 (-10) 1, .noCredit 2 10 2] ∧
      (ofRows accounts.reverse entries.reverse transfers.reverse).issues =
        [.balanceMismatch 2 15 10, .noDebit 1 (-10) 1, .noCredit 1 10 2] ∧
      ofRows accounts entries.reverse transfers = ofRows accounts entries transfers ∧
      (ofRows accounts entries transfers.reverse).report.issues.length = 3 ∧
      (ofRows accounts.reverse entries transfers).report.totalBalance = 5 ∧
      (ofReads (.ok accounts.reverse) (.ok entries.reverse) (.ok transfers.reverse)).map isValid = .ok false := by
  intro accounts entries transfers
  have hdistinct : (accounts.map (·.id)).Nodup := by decide
  have hissues : (ofRows accounts entries transfers).issues =
      [.balanceMismatch 2 15 10, .noDebit 2 (-10) 1, .noCredit 2 10 2] := by
    decide +kernel
  have hreversed : (ofRows accounts.reverse entries.reverse transfers.reverse).issues =
      [.balanceMismatch 2 15 10, .noDebit 1 (-10) 1, .noCredit 1 10 2] := by
    decide +kernel
  have hlength : (ofRows accounts entries transfers).report.issues.length = 3 := by
    show ((ofRows accounts entries transfers).issues.map Issue.text).length = 3
    rw [hissues, List.length_map]
    rfl
  have hvalid : (ofRows accounts entries transfers).isValid = false := by
    rw [isValid, hissues]
    rfl
  obtain ⟨hentries, htransfers, haccounts⟩ := order_irrelevant accounts entries transfers
  obtain ⟨horder, hall⟩ := haccounts hdistinct accounts.reverse (List.reverse_perm _)
  refine ⟨hdistinct, hissues, hreversed, (hentries _ (List.reverse_perm _)).1, ?_, ?_, ?_⟩
  · exact (htransfers _ (List.reverse_perm _)).count.trans hlength
  · exact horder.totalBalance
  · exact (hall _ _ (List.reverse_perm _) (List.reverse_perm _)).trans (congrArg Except.ok hvalid)

end Audit

end Giro
