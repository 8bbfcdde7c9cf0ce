import Giro.Audit
import Giro.Proofs.Tally

/-
  Giro.Proofs.Audit — the audit accepts books in double entry and no others
  (`issues_eq_nil_iff`).

  In double entry every balance is the sum of its account's entries, and the entries are
  the two legs of each transfer and at most one more per account, its opening. Each check
  of the audit passes just when one of these holds.
-/

namespace Giro.Audit

/-- The two sides of a transfer. -/
def legs (t : Transfer) : List Leg := [⟨t.source, -t.amount⟩, ⟨t.destination, t.amount⟩]

/-- The sum of an account's entries. -/
def entrySum (entries : List Entry) (account : Int) : Int :=
  ((entries.filter (·.account = account)).map (·.amount)).sum

/-- The sum of the legs of an account. -/
def legSum (legs : List Leg) (account : Int) : Int := ((legs.filter (·.account = account)).map (·.amount)).sum

theorem entrySum_eq_legSum (entries : List Entry) (account : Int) :
    entrySum entries account = legSum (entries.map legOf) account := by
  rw [legSum, List.filter_map, List.map_map]
  rfl

/-- Books in double entry. -/
structure DoubleEntry (accounts : List Account) (entries : List Entry) (transfers : List Transfer) : Prop where
  distinct : (accounts.map (·.id)).Nodup
  balanced : ∀ a ∈ accounts, a.balance = entrySum entries a.id
  known : ∀ e ∈ entries, ∃ a ∈ accounts, a.id = e.account
  positive : ∀ t ∈ transfers, 0 < t.amount
  /-- The entries pair off with the legs of the transfers, but for one of each account. -/
  paired : ∃ spare : List Leg, (entries.map legOf).Perm (transfers.flatMap legs ++ spare) ∧
    ∀ a ∈ accounts, spare.countP (·.account = a.id) ≤ 1

/-! ## Balances -/

theorem count_entrySums (entries : List Entry) (account : Int) :
    (entrySums entries).count account = entrySum entries account := by
  have h := Tally.count_addAll Entry.account Entry.amount entries [] account
  rwa [Tally.count, Int.zero_add] at h

theorem nodup_keys_entrySums (entries : List Entry) : (entrySums entries).keys.Nodup :=
  Tally.nodup_keys_addAll (t := []) List.nodup_nil _ _ _

theorem mem_keys_entrySums {entries : List Entry} {account : Int} :
    account ∈ (entrySums entries).keys ↔ ∃ e ∈ entries, e.account = account :=
  Tally.mem_keys_addAll.trans (or_iff_right List.not_mem_nil)

theorem checkBalances_cons (a : Account) (accounts : List Account) (sums : Tally Int) :
    checkBalances (a :: accounts) sums =
      ((if a.balance = sums.count a.id then [] else [.balanceMismatch a.id a.balance (sums.count a.id)]) ++
        (checkBalances accounts (sums.remove a.id)).1, (checkBalances accounts (sums.remove a.id)).2) := by
  simp only [checkBalances]
  split <;> rfl

/-- The sums left over are those that no listed account used. -/
theorem mem_keys_checkBalances {accounts : List Account} {sums : Tally Int} (hsums : sums.keys.Nodup) {k : Int} :
    k ∈ (checkBalances accounts sums).2.keys ↔ k ∈ sums.keys ∧ ∀ a ∈ accounts, a.id ≠ k := by
  induction accounts generalizing sums with
  | nil => simp [checkBalances]
  | cons a accounts ih =>
    rw [checkBalances_cons, ih (Tally.nodup_keys_remove hsums a.id), Tally.mem_keys_remove hsums, List.forall_mem_cons,
      and_assoc, ne_comm]

/-- Of accounts with distinct ids each balance is compared with the account's own sum. -/
theorem length_checkBalances {accounts : List Account} {sums : Tally Int} (hdistinct : (accounts.map (·.id)).Nodup) :
    (checkBalances accounts sums).1.length = accounts.countP fun a => a.balance ≠ sums.count a.id := by
  induction accounts generalizing sums with
  | nil => rfl
  | cons a accounts ih =>
    obtain ⟨ha, haccounts⟩ := List.nodup_cons.1 hdistinct
    have hrest : (accounts.countP fun b => b.balance ≠ (sums.remove a.id).count b.id) =
        accounts.countP fun b => b.balance ≠ sums.count b.id := by
      refine List.countP_congr fun b hb => ?_
      have hne : b.id ≠ a.id := fun e => ha (List.mem_map.2 ⟨b, hb, e⟩)
      rw [Tally.count_remove_of_ne hne]
    rw [checkBalances_cons, List.length_append, ih haccounts, hrest, List.countP_cons, Nat.add_comm]
    by_cases hbalance : a.balance = sums.count a.id <;> simp [hbalance]

theorem checkBalances_eq_nil_iff {accounts : List Account} {sums : Tally Int}
    (hdistinct : (accounts.map (·.id)).Nodup) :
    (checkBalances accounts sums).1 = [] ↔ ∀ a ∈ accounts, a.balance = sums.count a.id := by
  rw [← List.length_eq_zero_iff, length_checkBalances hdistinct, List.countP_eq_zero]
  simp

/-- No sum is left when every entry belongs to an account. -/
theorem unknownAccounts_eq_nil_iff {sums : Tally Int} : unknownAccounts sums = [] ↔ ∀ k, k ∉ sums.keys := by
  rw [← List.eq_nil_iff_forall_not_mem, Tally.keys, List.map_eq_nil_iff, unknownAccounts, List.map_eq_nil_iff]
  constructor
  · intro h
    exact List.length_eq_zero_iff.1 (by rw [← List.length_mergeSort, h, List.length_nil])
  · rintro rfl
    simp

/-! ## Transfers -/

theorem count_legCounts (entries : List Entry) (leg : Leg) :
    (legCounts entries).count leg = (entries.map legOf).count leg := by
  have h := Tally.count_addAll legOf (fun _ => 1) entries [] leg
  rw [Tally.count, Int.zero_add] at h
  rw [legCounts, ← Tally.addAll, h, List.count, List.countP_map, List.countP_eq_length_filter]
  simp [Function.comp_def, beq_eq_decide]

theorem groupSum_legCounts (entries : List Entry) (account : Int) :
    (legCounts entries).groupSum Leg.account account = (entries.map legOf).countP (·.account = account) := by
  suffices ∀ t : Tally Leg, (t.addAll legOf (fun _ => 1) entries).groupSum Leg.account account =
      t.groupSum Leg.account account + (entries.map legOf).countP (·.account = account) by
    have hall := this []
    rw [show Tally.groupSum Leg.account account [] = 0 from rfl, Int.zero_add] at hall
    exact hall
  induction entries with
  | nil => simp [Tally.addAll]
  | cons e entries ih =>
    intro t
    show ((t.add (legOf e) 1).addAll legOf (fun _ => 1) entries).groupSum Leg.account account = _
    rw [ih, Tally.groupSum_add, List.map_cons, List.countP_cons]
    by_cases h : (legOf e).account = account
    · simp [h]; omega
    · simp [h]

theorem takeOr_eq (issue : Issue) (leg : Leg) (spare : Tally Leg) :
    takeOr issue leg spare = if 0 < spare.count leg then ([], spare.add leg (-1)) else ([issue], spare) := by
  unfold takeOr take
  split <;> simp_all

/-- The spare entries after a transfer has used up its two. -/
def afterLegs (t : Transfer) (spare : Tally Leg) : Tally Leg :=
  (spare.add ⟨t.source, -t.amount⟩ (-1)).add ⟨t.destination, t.amount⟩ (-1)

theorem count_legs (t : Transfer) (leg : Leg) :
    (((legs t).count leg : Nat) : Int) =
      (if (⟨t.source, -t.amount⟩ : Leg) = leg then 1 else 0) +
        if (⟨t.destination, t.amount⟩ : Leg) = leg then 1 else 0 := by
  simp only [legs, List.count_cons, List.count_nil, beq_iff_eq]
  split <;> split <;> rfl

theorem count_afterLegs (t : Transfer) (spare : Tally Leg) (leg : Leg) :
    (afterLegs t spare).count leg = spare.count leg - (legs t).count leg := by
  rw [afterLegs, Tally.count_add, Tally.count_add, count_legs]
  split <;> split <;> omega

theorem groupSum_afterLegs (t : Transfer) (spare : Tally Leg) (account : Int) :
    (afterLegs t spare).groupSum Leg.account account =
      spare.groupSum Leg.account account - (legs t).countP (·.account = account) := by
  rw [afterLegs, Tally.groupSum_add, Tally.groupSum_add]
  simp only [legs, List.countP_cons, List.countP_nil]
  split <;> split <;> simp_all <;> omega

section CheckTransfers

variable {t : Transfer} {transfers : List Transfer} {spare : Tally Leg}

/-- A transfer whose legs are both there uses them up. -/
theorem checkTransfers_cons (hpos : 0 < t.amount) (hout : 0 < spare.count ⟨t.source, -t.amount⟩)
    (hinto : 0 < (spare.add ⟨t.source, -t.amount⟩ (-1)).count ⟨t.destination, t.amount⟩) :
    checkTransfers (t :: transfers) spare = checkTransfers transfers (afterLegs t spare) := by
  rw [checkTransfers, if_neg (Int.not_le.2 hpos)]
  simp only [takeOr_eq, hout, hinto, if_true, List.nil_append, afterLegs]

/-- Only such a transfer passes. -/
theorem legs_of_checkTransfers_cons (h : (checkTransfers (t :: transfers) spare).1 = []) :
    0 < t.amount ∧ 0 < spare.count ⟨t.source, -t.amount⟩ ∧
      0 < (spare.add ⟨t.source, -t.amount⟩ (-1)).count ⟨t.destination, t.amount⟩ := by
  rw [checkTransfers] at h
  split at h
  · cases h
  · rename_i hpos
    simp only [takeOr_eq, List.append_eq_nil_iff] at h
    obtain ⟨⟨hout, hinto⟩, -⟩ := h
    have hout' : 0 < spare.count ⟨t.source, -t.amount⟩ := by
      by_contra hno
      simp [hno] at hout
    rw [if_pos hout'] at hinto
    refine ⟨by omega, hout', ?_⟩
    by_contra hno
    simp [hno] at hinto

/-- The transfers pass one after the other just when there are entries for all their legs
    together: it does not matter which transfer takes which of several like entries. -/
theorem checkTransfers_eq_nil_iff (hspare : ∀ leg, 0 ≤ spare.count leg) :
    (checkTransfers transfers spare).1 = [] ↔
      (∀ t ∈ transfers, 0 < t.amount) ∧ ∀ leg, (transfers.flatMap legs).count leg ≤ spare.count leg := by
  induction transfers generalizing spare with
  | nil => simpa [checkTransfers] using hspare
  | cons t transfers ih =>
    have hcount : ∀ leg, (((t :: transfers).flatMap legs).count leg : Int) ≤ spare.count leg ↔
        ((transfers.flatMap legs).count leg : Int) ≤ (afterLegs t spare).count leg := by
      intro leg
      rw [count_afterLegs, List.flatMap_cons, List.count_append]
      omega
    rw [List.forall_mem_cons, and_assoc]
    simp only [hcount]
    constructor
    · intro h
      obtain ⟨hpos, hout, hinto⟩ := legs_of_checkTransfers_cons h
      have hafter : ∀ leg, 0 ≤ (afterLegs t spare).count leg := by
        intro leg
        rw [Tally.count_add] at hinto
        have := hspare leg
        rw [count_afterLegs, count_legs]
        split <;> split <;> simp_all <;> omega
      rw [checkTransfers_cons hpos hout hinto, ih hafter] at h
      exact ⟨hpos, h⟩
    · rintro ⟨hpos, hrest, hlegs⟩
      have hafter : ∀ leg, 0 ≤ (afterLegs t spare).count leg := fun leg =>
        Int.le_trans (Int.natCast_nonneg _) (hlegs leg)
      have hout := hafter ⟨t.source, -t.amount⟩
      have hinto := hafter ⟨t.destination, t.amount⟩
      rw [count_afterLegs, count_legs] at hout hinto
      rw [checkTransfers_cons hpos, ih hafter]
      · exact ⟨hrest, hlegs⟩
      · rw [if_pos rfl] at hout
        split at hout <;> omega
      · rw [Tally.count_add]
        rw [if_pos rfl] at hinto
        split at hinto <;> simp_all <;> omega

/-- What is spare on an account when the transfers have passed. -/
theorem groupSum_checkTransfers (h : (checkTransfers transfers spare).1 = []) (account : Int) :
    (checkTransfers transfers spare).2.groupSum Leg.account account =
      spare.groupSum Leg.account account - (transfers.flatMap legs).countP (·.account = account) := by
  induction transfers generalizing spare with
  | nil => simp [checkTransfers]
  | cons t transfers ih =>
    obtain ⟨hpos, hout, hinto⟩ := legs_of_checkTransfers_cons h
    rw [checkTransfers_cons hpos hout hinto] at h ⊢
    rw [ih h, groupSum_afterLegs, List.flatMap_cons, List.countP_append]
    omega

end CheckTransfers

theorem checkLeftovers_eq_nil_iff {accounts : List Account} {left : Tally Int} :
    checkLeftovers accounts left = [] ↔ ∀ a ∈ accounts, left.count a.id ≤ 1 := by
  rw [checkLeftovers, List.filterMap_eq_nil_iff]
  refine forall₂_congr fun a _ => ?_
  simp

/-- Only the ids of the accounts matter to what is left. -/
theorem checkLeftovers_congr {accounts accounts' : List Account} {left left' : Tally Int}
    (hids : accounts'.map (·.id) = accounts.map (·.id)) (hleft : ∀ id, left'.count id = left.count id) :
    checkLeftovers accounts' left' = checkLeftovers accounts left := by
  have hid : ∀ (accounts : List Account) (left : Tally Int), checkLeftovers accounts left =
      (accounts.map (·.id)).filterMap fun id =>
        if 1 < left.count id then some (.unpaired id (left.count id)) else none := by
    intro accounts left
    rw [List.filterMap_map]
    rfl
  rw [hid, hid, hids]
  simp only [hleft]

theorem count_leftovers (spare : Tally Leg) (account : Int) :
    (leftovers spare).count account = spare.groupSum Leg.account account := by
  have h := Tally.count_addAll (fun p : Leg × Int => p.1.account) (·.2) spare [] account
  rwa [Tally.count, Int.zero_add] at h

theorem total_eq_sum (accounts : List Account) : total accounts = (accounts.map (·.balance)).sum := by
  induction accounts with
  | nil => rfl
  | cons a accounts ih => rw [total, ih, List.map_cons, List.sum_cons]

theorem total_of_accounts {accounts accounts' : List Account} (h : accounts'.Perm accounts) :
    total accounts' = total accounts := by
  rw [total_eq_sum, total_eq_sum, (h.map _).sum_eq]

/-! ## The audit -/

section OfRows

variable {accounts : List Account} {entries : List Entry} {transfers : List Transfer}

/-- The four checks, each as what it finds in order. -/
theorem ofRows_issues_eq_nil (hdistinct : (accounts.map (·.id)).Nodup) :
    (ofRows accounts entries transfers).issues = [] ↔
      (∀ a ∈ accounts, a.balance = entrySum entries a.id) ∧ (∀ e ∈ entries, ∃ a ∈ accounts, a.id = e.account) ∧
        (∀ t ∈ transfers, 0 < t.amount) ∧
        (∀ leg, (transfers.flatMap legs).count leg ≤ (entries.map legOf).count leg) ∧
        ∀ a ∈ accounts, (entries.map legOf).countP (·.account = a.id) ≤
          (transfers.flatMap legs).countP (·.account = a.id) + 1 := by
  have hbalances : (checkBalances accounts (entrySums entries)).1 = [] ↔
      ∀ a ∈ accounts, a.balance = entrySum entries a.id := by
    rw [checkBalances_eq_nil_iff hdistinct]
    exact forall₂_congr fun a _ => by rw [count_entrySums]
  have hunknown : unknownAccounts (checkBalances accounts (entrySums entries)).2 = [] ↔
      ∀ e ∈ entries, ∃ a ∈ accounts, a.id = e.account := by
    rw [unknownAccounts_eq_nil_iff]
    simp only [mem_keys_checkBalances (nodup_keys_entrySums entries), mem_keys_entrySums]
    constructor
    · intro h e he
      by_contra hno
      exact h e.account ⟨⟨e, he, rfl⟩, fun a ha hid => hno ⟨a, ha, hid⟩⟩
    · rintro h k ⟨⟨e, he, rfl⟩, hne⟩
      obtain ⟨a, ha, hid⟩ := h e he
      exact hne a ha hid
  have htransfers : (checkTransfers transfers (legCounts entries)).1 = [] ↔ (∀ t ∈ transfers, 0 < t.amount) ∧
      ∀ leg, (transfers.flatMap legs).count leg ≤ (entries.map legOf).count leg := by
    rw [checkTransfers_eq_nil_iff fun leg => by rw [count_legCounts]; exact Int.natCast_nonneg _]
    simp only [count_legCounts, Int.ofNat_le]
  simp only [ofRows, List.append_eq_nil_iff, hbalances, hunknown, and_assoc]
  refine and_congr_right fun _ => and_congr_right fun _ => ?_
  rw [← and_assoc (a := ∀ t ∈ transfers, 0 < t.amount), ← htransfers]
  refine and_congr_right fun hpass => ?_
  rw [checkLeftovers_eq_nil_iff]
  refine forall₂_congr fun a _ => ?_
  rw [count_leftovers, groupSum_checkTransfers hpass, groupSum_legCounts]
  omega

/-- The audit finds nothing in books in double entry, and only in these. -/
theorem issues_eq_nil_iff (hdistinct : (accounts.map (·.id)).Nodup) :
    (ofRows accounts entries transfers).issues = [] ↔ DoubleEntry accounts entries transfers := by
  rw [ofRows_issues_eq_nil hdistinct]
  constructor
  · rintro ⟨hbalanced, hknown, hpos, hlegs, hspare⟩
    have hperm : (entries.map legOf).Perm
        (transfers.flatMap legs ++ (entries.map legOf).diff (transfers.flatMap legs)) :=
      (List.subperm_append_diff_self_of_count_le fun leg _ => hlegs leg).symm
    refine ⟨hdistinct, hbalanced, hknown, hpos, _, hperm, ?_⟩
    intro a ha
    have := hspare a ha
    rw [hperm.countP_eq, List.countP_append] at this
    omega
  · rintro ⟨-, hbalanced, hknown, hpos, spare, hperm, hspare⟩
    refine ⟨hbalanced, hknown, hpos, ?_, ?_⟩
    · intro leg
      rw [hperm.count_eq, List.count_append]
      omega
    · intro a ha
      have := hspare a ha
      rw [hperm.countP_eq, List.countP_append]
      omega

theorem issues_eq_nil (h : DoubleEntry accounts entries transfers) : (ofRows accounts entries transfers).issues = [] :=
  (issues_eq_nil_iff h.distinct).2 h

end OfRows

end Giro.Audit
