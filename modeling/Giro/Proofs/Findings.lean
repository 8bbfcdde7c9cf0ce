import Giro.Proofs.Audit

/-
  Giro.Proofs.Findings — what the audit reports, issue by issue, for any rows at all: ids
  may repeat, rows may come in any order and nothing need fit together.

  The audit works on tallies that it uses up as it goes. Here each issue has its reason in
  the rows themselves: a row and those before it (`rowByRow`). The tally of spare entries
  stands for a multiset of legs (`Holds`); taking an entry takes its leg out of it, if there
  is one left, so after any transfers the tally holds the legs of the entries less those
  that the transfers need (`Holds.checkTransfers`). That makes the legs that are spare in
  the end a difference of multisets (`spareLegs`), whichever transfer took which entry.

  Main statement: `issues_eq`.
-/

namespace Giro.Audit

/-! ## Row by row -/

/-- What `find` finds at each row, given the rows before it, in the order of the rows. -/
def rowByRow {α β : Type} (find : List α → α → List β) (rows : List α) : List β :=
  (List.finRange rows.length).flatMap fun i : Fin rows.length => find (rows.take i) rows[i]

theorem rowByRow_cons {α β : Type} (find : List α → α → List β) (a : α) (rows : List α) :
    rowByRow find (a :: rows) = find [] a ++ rowByRow (fun before => find (a :: before)) rows := by
  simp only [rowByRow, List.length_cons, List.finRange_succ, List.flatMap_cons, List.flatMap_map]
  rfl

theorem rowByRow_congr {α β : Type} {find find' : List α → α → List β} {rows : List α}
    (h : ∀ before, ∀ a ∈ rows, find before a = find' before a) : rowByRow find rows = rowByRow find' rows :=
  List.flatMap_congr fun _ _ => h _ _ (List.getElem_mem _)

/-- An account whose balance is not the sum of its entries. They count for the first account
    of their id; for any further one the sum is zero. -/
def mismatch (sum : Int → Int) (before : List Account) (a : Account) : List Issue :=
  let sum := if a.id ∈ before.map (·.id) then 0 else sum a.id
  if a.balance = sum then [] else [.balanceMismatch a.id a.balance sum]

/-- The ids that entries name and no account has, each once, in ascending order. -/
def strangers (accounts : List Account) (entries : List Entry) : List Int :=
  ((entries.map (·.account)).toFinset \ (accounts.map (·.id)).toFinset).sort (· ≤ ·)

/-- A transfer that moves nothing, or for which there is no debit or no credit entry: those
    before it with the same end and the same amount, which is positive, come first. -/
def unbacked (entries : List Entry) (before : List Transfer) (t : Transfer) : List Issue :=
  if t.amount ≤ 0 then [.amountNotPositive t.id t.amount]
  else
    (if entries.countP (legOf · = ⟨t.source, -t.amount⟩) ≤
        before.countP (fun u => u.source = t.source ∧ u.amount = t.amount)
      then [.noDebit t.id (-t.amount) t.source] else []) ++
    (if entries.countP (legOf · = ⟨t.destination, t.amount⟩) ≤
        before.countP (fun u => u.destination = t.destination ∧ u.amount = t.amount)
      then [.noCredit t.id t.amount t.destination] else [])

/-- The legs that transfers need entries for: those of a positive amount need both of theirs. -/
def demand (transfers : List Transfer) : Multiset Leg := ((transfers.filter (0 < ·.amount)).flatMap legs : List Leg)

/-- The legs of the entries less those that transfers need: of each leg as many as there are
    entries of it beyond that need. -/
def spareLegs (entries : List Entry) (transfers : List Transfer) : Multiset Leg :=
  (entries.map legOf : Multiset Leg) - demand transfers

/-- How many entries of an account no transfer needs. -/
def spareCount (entries : List Entry) (transfers : List Transfer) (account : Int) : Nat :=
  (spareLegs entries transfers).countP (·.account = account)

/-- An account with more than one spare entry. -/
def crowded (entries : List Entry) (transfers : List Transfer) (a : Account) : List Issue :=
  if 1 < spareCount entries transfers a.id then [.unpaired a.id (spareCount entries transfers a.id)] else []

/-- Everything that is wrong with the rows, in the order of the report. -/
def findings (accounts : List Account) (entries : List Entry) (transfers : List Transfer) : List Issue :=
  rowByRow (mismatch (entrySum entries)) accounts ++
    (strangers accounts entries).map (fun id => .unknownAccount id (entrySum entries id)) ++
    rowByRow (unbacked entries) transfers ++
    accounts.flatMap (crowded entries transfers)

/-! ## Balances -/

section CheckBalances

variable {accounts : List Account} {sums : Tally Int}

theorem checkBalances_eq (h : sums.keys.Nodup) :
    (checkBalances accounts sums).1 = rowByRow (mismatch sums.count) accounts := by
  induction accounts generalizing sums with
  | nil => rfl
  | cons a accounts ih =>
    rw [checkBalances_cons, rowByRow_cons, ih (Tally.nodup_keys_remove h a.id)]
    refine congrArg _ (rowByRow_congr fun before b _ => ?_)
    -- a sum that is used up counts as zero, as that of an account that is repeated
    have hsum : (if b.id ∈ before.map (·.id) then 0 else (sums.remove a.id).count b.id) =
        if b.id ∈ (a :: before).map (·.id) then 0 else sums.count b.id := by
      rw [Tally.count_remove h, List.map_cons]
      split <;> split <;> simp_all
    rw [mismatch, mismatch, hsum]

theorem nodup_keys_checkBalances (h : sums.keys.Nodup) : (checkBalances accounts sums).2.keys.Nodup := by
  induction accounts generalizing sums with
  | nil => exact h
  | cons a accounts ih =>
    rw [checkBalances_cons]
    exact ih (Tally.nodup_keys_remove h a.id)

/-- The sum of an account that is not listed stays as it is. -/
theorem count_checkBalances {k : Int} (hk : ∀ a ∈ accounts, a.id ≠ k) :
    (checkBalances accounts sums).2.count k = sums.count k := by
  induction accounts generalizing sums with
  | nil => rfl
  | cons a accounts ih =>
    obtain ⟨ha, haccounts⟩ := List.forall_mem_cons.1 hk
    rw [checkBalances_cons, ih haccounts, Tally.count_remove_of_ne ha.symm]

theorem unknownAccounts_eq (h : sums.keys.Nodup) :
    unknownAccounts sums = (sums.keys.toFinset.sort (· ≤ ·)).map fun id => .unknownAccount id (sums.count id) := by
  have hperm := List.mergeSort_perm sums fun p q => p.1 ≤ q.1
  have hsorted : (Tally.keys (sums.mergeSort fun p q => p.1 ≤ q.1)).Pairwise (· ≤ ·) := by
    rw [Tally.keys, List.pairwise_map]
    refine (List.pairwise_mergeSort ?_ ?_ sums).imp fun hle => of_decide_eq_true hle
    · simp only [decide_eq_true_eq]
      exact fun p q r => Int.le_trans
    · simp only [Bool.or_eq_true, decide_eq_true_eq]
      exact fun p q => Int.le_total _ _
  have hkeys : sums.keys.toFinset.sort (· ≤ ·) = Tally.keys (sums.mergeSort fun p q => p.1 ≤ q.1) := by
    have hperm_keys : (Tally.keys (sums.mergeSort fun p q => p.1 ≤ q.1)).Perm sums.keys := hperm.map Prod.fst
    rw [← List.toFinset_eq_of_perm _ _ hperm_keys]
    exact (List.toFinset_sort _ (hperm_keys.nodup_iff.2 h)).2 hsorted
  rw [hkeys, Tally.keys, List.map_map, unknownAccounts]
  refine List.map_congr_left fun p hp => ?_
  rw [Function.comp_apply, Tally.count_of_mem h (hperm.mem_iff.1 hp)]

end CheckBalances

/-- The sums that the accounts do not use up are those of strangers. -/
theorem unknownAccounts_checkBalances (accounts : List Account) (entries : List Entry) :
    unknownAccounts (checkBalances accounts (entrySums entries)).2 =
      (strangers accounts entries).map fun id => .unknownAccount id (entrySum entries id) := by
  have hnodup := nodup_keys_entrySums entries
  have hkeys : (checkBalances accounts (entrySums entries)).2.keys.toFinset =
      (entries.map (·.account)).toFinset \ (accounts.map (·.id)).toFinset := by
    ext k
    rw [List.mem_toFinset, mem_keys_checkBalances hnodup, mem_keys_entrySums]
    simp
  rw [unknownAccounts_eq (nodup_keys_checkBalances hnodup), hkeys, strangers]
  refine List.map_congr_left fun k hk => ?_
  obtain ⟨-, hlisted⟩ := Finset.mem_sdiff.1 ((Finset.mem_sort _).1 hk)
  have hne : ∀ a ∈ accounts, a.id ≠ k := fun a ha hid =>
    hlisted (List.mem_toFinset.2 (List.mem_map.2 ⟨a, ha, hid⟩))
  rw [count_checkBalances hne, count_entrySums]

/-! ## Transfers -/

/-- What a transfer lacks of the legs that are left, its debit before its credit. -/
def lacking (left : Multiset Leg) (t : Transfer) : List Issue :=
  if t.amount ≤ 0 then [.amountNotPositive t.id t.amount]
  else
    (if ⟨t.source, -t.amount⟩ ∈ left then [] else [.noDebit t.id (-t.amount) t.source]) ++
    (if ⟨t.destination, t.amount⟩ ∈ left then [] else [.noCredit t.id t.amount t.destination])

theorem demand_nil : demand [] = 0 := rfl

theorem demand_cons (t : Transfer) (transfers : List Transfer) :
    demand (t :: transfers) = if 0 < t.amount then
      ⟨t.source, -t.amount⟩ ::ₘ ⟨t.destination, t.amount⟩ ::ₘ demand transfers else demand transfers := by
  unfold demand
  split
  · rename_i hpos
    rw [List.filter_cons_of_pos (by simpa using hpos)]
    rfl
  · rename_i hpos
    rw [List.filter_cons_of_neg (by simpa using hpos)]

/-- A debit is needed as often as its account is the source of a transfer of its amount. -/
theorem count_demand_debit (transfers : List Transfer) {account amount : Int} (hpos : 0 < amount) :
    (demand transfers).count ⟨account, -amount⟩ =
      transfers.countP fun u => u.source = account ∧ u.amount = amount := by
  induction transfers with
  | nil => rfl
  | cons t transfers ih =>
    rw [demand_cons, List.countP_cons, ← ih]
    split
    · rw [Multiset.count_cons, Multiset.count_cons]
      simp only [Leg.mk.injEq, Int.neg_inj]
      grind
    · grind

theorem count_demand_credit (transfers : List Transfer) {account amount : Int} (hpos : 0 < amount) :
    (demand transfers).count ⟨account, amount⟩ =
      transfers.countP fun u => u.destination = account ∧ u.amount = amount := by
  induction transfers with
  | nil => rfl
  | cons t transfers ih =>
    rw [demand_cons, List.countP_cons, ← ih]
    split
    · rw [Multiset.count_cons, Multiset.count_cons]
      simp only [Leg.mk.injEq]
      grind
    · grind

/-- A tally of spare entries that stands for their legs. -/
structure Holds (spare : Tally Leg) (left : Multiset Leg) : Prop where
  count : ∀ leg, spare.count leg = left.count leg
  group : ∀ account, spare.groupSum Leg.account account = left.countP (·.account = account)

theorem holds_legCounts (entries : List Entry) : Holds (legCounts entries) (entries.map legOf : List Leg) where
  count leg := by rw [count_legCounts, Multiset.coe_count]
  group account := by rw [groupSum_legCounts, Multiset.coe_countP]

namespace Holds

variable {spare : Tally Leg} {left : Multiset Leg}

/-- Taking an entry takes its leg out, if one is left. -/
theorem takeOr (h : Holds spare left) (issue : Issue) (leg : Leg) :
    (takeOr issue leg spare).1 = (if leg ∈ left then [] else [issue]) ∧
      Holds (Audit.takeOr issue leg spare).2 (left.erase leg) := by
  rw [takeOr_eq, h.count]
  by_cases hleg : leg ∈ left
  · obtain ⟨rest, rfl⟩ := Multiset.exists_cons_of_mem hleg
    rw [Multiset.count_cons_self, if_pos (by omega), if_pos hleg, Multiset.erase_cons_head]
    refine ⟨rfl, ?_, ?_⟩
    · intro other
      rw [Tally.count_add, h.count, Multiset.count_cons]
      by_cases hother : leg = other
      · simp [hother]
      · simp [hother, Ne.symm hother]
    · intro account
      rw [Tally.groupSum_add, h.group, Multiset.countP_cons]
      split <;> simp
  · have hcount := Multiset.count_eq_zero.2 hleg
    rw [if_neg (by omega), if_neg hleg, Multiset.erase_of_notMem hleg]
    exact ⟨rfl, h⟩

/-- Each transfer takes its two entries from those that the transfers before it have left. -/
theorem checkTransfers (h : Holds spare left) (transfers : List Transfer) :
    (checkTransfers transfers spare).1 = rowByRow (fun before => lacking (left - demand before)) transfers ∧
      Holds (Audit.checkTransfers transfers spare).2 (left - demand transfers) := by
  induction transfers generalizing spare left with
  | nil =>
    rw [demand_nil, tsub_zero]
    exact ⟨rfl, h⟩
  | cons t transfers ih =>
    rw [rowByRow_cons, demand_nil, tsub_zero]
    by_cases hpos : 0 < t.amount
    · have hdemand : ∀ before, left - demand (t :: before) =
          (left.erase ⟨t.source, -t.amount⟩).erase ⟨t.destination, t.amount⟩ - demand before := by
        intro before
        rw [demand_cons, if_pos hpos, Multiset.sub_cons, Multiset.sub_cons]
      have hne : (⟨t.destination, t.amount⟩ : Leg) ≠ ⟨t.source, -t.amount⟩ := by
        simp only [ne_eq, Leg.mk.injEq]
        omega
      obtain ⟨hout, hdebit⟩ := h.takeOr (.noDebit t.id (-t.amount) t.source) ⟨t.source, -t.amount⟩
      obtain ⟨hinto, hcredit⟩ := hdebit.takeOr (.noCredit t.id t.amount t.destination) ⟨t.destination, t.amount⟩
      obtain ⟨hissues, hrest⟩ := ih hcredit
      simp only [Multiset.mem_erase_of_ne hne] at hinto
      simp only [hdemand, ← hissues, lacking, if_neg (Int.not_le.2 hpos), ← hout, ← hinto]
      rw [Audit.checkTransfers, if_neg (Int.not_le.2 hpos)]
      exact ⟨rfl, hrest⟩
    · have hdemand : ∀ before, left - demand (t :: before) = left - demand before := by
        intro before
        rw [demand_cons, if_neg hpos]
      obtain ⟨hissues, hrest⟩ := ih h
      simp only [hdemand, ← hissues, lacking, if_pos (Int.not_lt.1 hpos)]
      rw [Audit.checkTransfers, if_pos (Int.not_lt.1 hpos)]
      exact ⟨rfl, hrest⟩

end Holds

/-- Taking a leg out of what is left settles one that is needed, or else it is missing. -/
theorem card_cons_sub (leg : Leg) (needed left : Multiset Leg) :
    (leg ::ₘ needed - left).card = (if leg ∈ left then 0 else 1) + (needed - left.erase leg).card := by
  by_cases hleg : leg ∈ left
  · obtain ⟨rest, rfl⟩ := Multiset.exists_cons_of_mem hleg
    rw [if_pos hleg, Multiset.sub_cons, Multiset.erase_cons_head, Multiset.erase_cons_head, Nat.zero_add]
  · have hmissing : leg ::ₘ needed - left = leg ::ₘ (needed - left) := by
      ext other
      rw [Multiset.count_sub, Multiset.count_cons, Multiset.count_cons, Multiset.count_sub]
      by_cases hother : other = leg
      · rw [hother, Multiset.count_eq_zero.2 hleg]
        omega
      · simp [hother]
    rw [if_neg hleg, Multiset.erase_of_notMem hleg, hmissing, Multiset.card_cons, Nat.add_comm]

/-- The transfers that move nothing and the legs that are missing, whichever transfer takes
    which entry. -/
theorem Holds.length_checkTransfers {spare : Tally Leg} {left : Multiset Leg} (h : Holds spare left)
    (transfers : List Transfer) :
    (Audit.checkTransfers transfers spare).1.length =
      transfers.countP (·.amount ≤ 0) + (demand transfers - left).card := by
  induction transfers generalizing spare left with
  | nil => rw [demand_nil, zero_tsub]; rfl
  | cons t transfers ih =>
    rw [List.countP_cons, demand_cons]
    by_cases hpos : 0 < t.amount
    · obtain ⟨hout, hdebit⟩ := h.takeOr (.noDebit t.id (-t.amount) t.source) ⟨t.source, -t.amount⟩
      obtain ⟨hinto, hcredit⟩ := hdebit.takeOr (.noCredit t.id t.amount t.destination) ⟨t.destination, t.amount⟩
      have hrest := ih hcredit
      rw [if_pos hpos, card_cons_sub, card_cons_sub, Audit.checkTransfers, if_neg (Int.not_le.2 hpos)]
      simp only [List.length_append, hrest, hout, hinto, Int.not_le.2 hpos, decide_false]
      split <;> split <;> simp <;> omega
    · have hnothing : t.amount ≤ 0 := Int.not_lt.1 hpos
      rw [if_neg hpos, Audit.checkTransfers, if_pos hnothing]
      simp only [List.length_cons, ih h, hnothing, decide_true, if_true]
      omega

/-- A leg is left to a transfer when there are more entries of it than the transfers before
    it need. -/
theorem lacking_sub_demand (entries : List Entry) (before : List Transfer) (t : Transfer) :
    lacking ((entries.map legOf : List Leg) - demand before) t = unbacked entries before t := by
  unfold lacking unbacked
  by_cases hpos : t.amount ≤ 0
  · rw [if_pos hpos, if_pos hpos]
  · have hamount : 0 < t.amount := Int.not_le.1 hpos
    have hentries : ∀ leg, (entries.map legOf : Multiset Leg).count leg = entries.countP (legOf · = leg) := by
      intro leg
      rw [Multiset.coe_count, List.count, List.countP_map]
      rfl
    rw [if_neg hpos, if_neg hpos]
    simp only [Multiset.mem_sub, hentries, count_demand_debit before hamount, count_demand_credit before hamount]
    simp only [← Nat.not_lt, ite_not]

/-- After any transfers the counters stand for the legs of the entries that are left. -/
theorem holds_spareLegs (entries : List Entry) (transfers : List Transfer) :
    Holds (checkTransfers transfers (legCounts entries)).2 (spareLegs entries transfers) :=
  ((holds_legCounts entries).checkTransfers transfers).2

/-- The numbers of the entries that are left, account by account. -/
theorem count_leftovers_checkTransfers (entries : List Entry) (transfers : List Transfer) (account : Int) :
    (leftovers (checkTransfers transfers (legCounts entries)).2).count account =
      spareCount entries transfers account := by
  rw [count_leftovers, (holds_spareLegs entries transfers).group]
  rfl

/-! ## The audit -/

theorem checkBalances_entrySums (accounts : List Account) (entries : List Entry) :
    (checkBalances accounts (entrySums entries)).1 = rowByRow (mismatch (entrySum entries)) accounts := by
  rw [checkBalances_eq (nodup_keys_entrySums entries), funext (count_entrySums entries)]

theorem checkTransfers_legCounts (entries : List Entry) (transfers : List Transfer) :
    (checkTransfers transfers (legCounts entries)).1 = rowByRow (unbacked entries) transfers := by
  rw [((holds_legCounts entries).checkTransfers transfers).1]
  exact rowByRow_congr fun before t _ => lacking_sub_demand entries before t

theorem checkLeftovers_checkTransfers (accounts : List Account) (entries : List Entry) (transfers : List Transfer) :
    checkLeftovers accounts (leftovers (checkTransfers transfers (legCounts entries)).2) =
      accounts.flatMap (crowded entries transfers) := by
  rw [checkLeftovers, List.filterMap_eq_flatMap_toList]
  refine List.flatMap_congr fun a _ => ?_
  rw [count_leftovers_checkTransfers, crowded]
  split <;> split <;> first | rfl | omega

/-- The audit reports what is wrong with the rows, no more and no less, in this order and
    in these words. -/
theorem issues_eq (accounts : List Account) (entries : List Entry) (transfers : List Transfer) :
    (ofRows accounts entries transfers).issues = findings accounts entries transfers ∧
      (ofRows accounts entries transfers).report.issues = (findings accounts entries transfers).map Issue.text := by
  have hissues : (ofRows accounts entries transfers).issues = findings accounts entries transfers := by
    simp only [ofRows, findings, checkBalances_entrySums, unknownAccounts_checkBalances, checkTransfers_legCounts,
      checkLeftovers_checkTransfers]
  exact ⟨hissues, congrArg (List.map Issue.text) hissues⟩

end Giro.Audit
