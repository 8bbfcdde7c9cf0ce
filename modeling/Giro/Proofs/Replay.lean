import Giro.Proofs.History
import Giro.Proofs.Pairing

/-
  Giro.Proofs.Replay — what a good report says about the balances: played back from the
  transfers alone they come out as they are.

  In double entry the legs of an account are those of its transfers and one more at most,
  its opening. The first sum up to what flows in less what flows out (`legSum_legs`), a
  transfer of an account to itself adding nothing, and the last is the opening amount.
  Over all accounts what flows in is what flows out (`sum_flow`), so that the openings are
  all the money there is.

  Main statement: `replays_of_isValid`.
-/

namespace Giro.Audit

/-! ## Sums of legs -/

theorem legSum_append (l l' : List Leg) (account : Int) :
    legSum (l ++ l') account = legSum l account + legSum l' account := by
  simp [legSum]

theorem legSum_perm {l l' : List Leg} (h : l.Perm l') (account : Int) : legSum l account = legSum l' account :=
  ((h.filter _).map _).sum_eq

/-- A single leg of an account is the sum. -/
theorem legSum_of_countP_le_one {l : List Leg} {account : Int} (h : l.countP (·.account = account) ≤ 1) :
    legSum l account = 0 ∨ ∃ leg ∈ l, leg.account = account ∧ leg.amount = legSum l account := by
  rw [List.countP_eq_length_filter] at h
  unfold legSum
  cases hfilter : l.filter (·.account = account) with
  | nil => exact .inl rfl
  | cons leg rest =>
    obtain rfl : rest = [] := by
      rw [hfilter] at h
      exact List.eq_nil_of_length_eq_zero (Nat.le_zero.1 (Nat.le_of_succ_le_succ h))
    have hleg : leg ∈ l.filter (·.account = account) := hfilter ▸ List.mem_singleton_self leg
    obtain ⟨hmem, hacc⟩ := List.mem_filter.1 hleg
    exact .inr ⟨leg, hmem, of_decide_eq_true hacc, (Int.add_zero _).symm⟩

theorem flow_cons (side : Transfer → Int) (t : Transfer) (transfers : List Transfer) (account : Int) :
    flow side (t :: transfers) account = (if side t = account then t.amount else 0) + flow side transfers account := by
  rw [← flow_singleton, ← flow_append, List.singleton_append]

/-- The legs of transfers do to an account what the transfers do. -/
theorem legSum_legs (transfers : List Transfer) (account : Int) :
    legSum (transfers.flatMap legs) account = inflow transfers account - outflow transfers account := by
  induction transfers with
  | nil => rfl
  | cons t transfers ih =>
    have hlegs : legSum (legs t) account = (if t.destination = account then t.amount else 0) -
        if t.source = account then t.amount else 0 := by
      by_cases hs : t.source = account <;> by_cases hd : t.destination = account <;> simp [legSum, legs, hs, hd]
    rw [List.flatMap_cons, legSum_append, ih, hlegs, inflow, outflow, flow_cons, flow_cons]
    omega

/-! ## Sums over the accounts -/

/-- What flows on one side of transfers is the amount of them all, when the accounts on that
    side are all listed. -/
theorem sum_flow {side : Transfer → Int} {transfers : List Transfer} {ids : List Int} (hnodup : ids.Nodup)
    (hlisted : ∀ t ∈ transfers, side t ∈ ids) :
    (ids.map (flow side transfers)).sum = (transfers.map (·.amount)).sum := by
  induction transfers with
  | nil =>
    have hzero : flow side [] = fun _ => 0 := rfl
    rw [hzero]
    simp
  | cons t transfers ih =>
    obtain ⟨ht, hrest⟩ := List.forall_mem_cons.1 hlisted
    have hone : (ids.map fun id => if side t = id then t.amount else 0).sum = t.amount := by
      simp only [eq_comm (a := side t)]
      rw [List.sum_map_ite_eq, List.count_eq_one_of_mem hnodup ht]
      simp
    rw [funext (flow_cons side t transfers), List.sum_map_add, hone, ih hrest, List.map_cons, List.sum_cons]

/-! ## The report -/

variable {accounts : List Account} {entries : List Entry} {transfers : List Transfer}

/-- The balances are what the transfers make of these opening amounts. -/
structure Replays (accounts : List Account) (entries : List Entry) (transfers : List Transfer) (opening : Int → Int) :
    Prop where
  listed : ∀ t ∈ transfers, t.source ∈ accounts.map (·.id) ∧ t.destination ∈ accounts.map (·.id)
  /-- An account was opened with nothing or with the amount of one of its entries. -/
  opened : ∀ a ∈ accounts, opening a.id = 0 ∨ ∃ e ∈ entries, e.account = a.id ∧ e.amount = opening a.id
  balance : ∀ a ∈ accounts, a.balance = opening a.id + inflow transfers a.id - outflow transfers a.id

/-- The money is that of the openings: transfers neither make any nor lose any. -/
theorem Replays.total {opening : Int → Int} (h : Replays accounts entries transfers opening)
    (hdistinct : (accounts.map (·.id)).Nodup) : total accounts = (accounts.map fun a => opening a.id).sum := by
  have hflow : ∀ side : Transfer → Int, (∀ t ∈ transfers, side t ∈ accounts.map (·.id)) →
      (accounts.map fun a => flow side transfers a.id).sum = (transfers.map (·.amount)).sum := by
    intro side hside
    rw [← sum_flow hdistinct hside, List.map_map]
    rfl
  have hin : (accounts.map fun a => inflow transfers a.id).sum = (transfers.map (·.amount)).sum :=
    hflow _ fun t ht => (h.listed t ht).2
  have hout : (accounts.map fun a => outflow transfers a.id).sum = (transfers.map (·.amount)).sum :=
    hflow _ fun t ht => (h.listed t ht).1
  have hbalances : accounts.map (fun a => a.balance + outflow transfers a.id) =
      accounts.map (fun a => opening a.id + inflow transfers a.id) := by
    refine List.map_congr_left fun a ha => ?_
    rw [h.balance a ha]
    omega
  have hsum := congrArg List.sum hbalances
  rw [List.sum_map_add, List.sum_map_add, hin, hout] at hsum
  rw [total_eq_sum]
  exact add_right_cancel hsum

/-- Books in double entry play back from what each account has beyond its transfers. -/
theorem DoubleEntry.replays (h : DoubleEntry accounts entries transfers) :
    ∃ opening, Replays accounts entries transfers opening := by
  obtain ⟨spare, hperm, hspare⟩ := h.paired
  have hentry : ∀ leg ∈ transfers.flatMap legs ++ spare, ∃ e ∈ entries, legOf e = leg := fun leg hleg =>
    List.mem_map.1 (hperm.mem_iff.2 hleg)
  refine ⟨legSum spare, ?_, ?_, ?_⟩
  · have hlisted : ∀ t ∈ transfers, ∀ leg ∈ legs t, leg.account ∈ accounts.map (·.id) := by
      intro t ht leg hleg
      obtain ⟨e, he, rfl⟩ := hentry leg (List.mem_append_left _ (List.mem_flatMap.2 ⟨t, ht, hleg⟩))
      exact List.mem_map.2 (h.known e he)
    exact fun t ht => ⟨hlisted t ht ⟨t.source, -t.amount⟩ (by simp [legs]),
      hlisted t ht ⟨t.destination, t.amount⟩ (by simp [legs])⟩
  · intro a ha
    refine (legSum_of_countP_le_one (hspare a ha)).imp id ?_
    rintro ⟨leg, hleg, hacc, hamount⟩
    obtain ⟨e, he, rfl⟩ := hentry leg (List.mem_append_right _ hleg)
    exact ⟨e, he, hacc, hamount⟩
  · intro a ha
    rw [h.balanced a ha, entrySum_eq_legSum, legSum_perm hperm, legSum_append, legSum_legs]
    omega

/-- When the report on accounts with distinct ids finds nothing wrong, every transfer is
    between listed accounts, and there is an opening amount for each account, nothing or one
    of its entries, from which the transfers lead to its balance; the total that is reported
    is the sum of these openings. -/
theorem replays_of_isValid (hdistinct : (accounts.map (·.id)).Nodup)
    (hvalid : (ofRows accounts entries transfers).report.isValid = true) :
    ∃ opening, Replays accounts entries transfers opening ∧
      (ofRows accounts entries transfers).report.totalBalance = (accounts.map fun a => opening a.id).sum := by
  obtain ⟨opening, hopening⟩ := ((issues_eq_nil_iff hdistinct).1 (List.isEmpty_iff.1 hvalid)).replays
  exact ⟨opening, hopening, hopening.total hdistinct⟩

theorem replays_lookalikes :
    (lookalikeAccounts.map (·.id)).Nodup ∧
      (ofRows lookalikeAccounts lookalikeEntries lookalikeTransfers).report.isValid = true ∧
      ∃ opening, Replays lookalikeAccounts lookalikeEntries lookalikeTransfers opening ∧
        (ofRows lookalikeAccounts lookalikeEntries lookalikeTransfers).report.totalBalance =
          (lookalikeAccounts.map fun a => opening a.id).sum := by
  have hdistinct : (lookalikeAccounts.map (·.id)).Nodup := by decide
  have hvalid : (ofRows lookalikeAccounts lookalikeEntries lookalikeTransfers).report.isValid = true := by
    decide +kernel
  exact ⟨hdistinct, hvalid, replays_of_isValid hdistinct hvalid⟩

end Giro.Audit
