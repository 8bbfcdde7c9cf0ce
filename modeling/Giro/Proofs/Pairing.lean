import Giro.Proofs.Audit

/-
  Giro.Proofs.Pairing — what the audit accepts, entry by entry (`isValid_iff`).

  A pairing deals the entries out: each transfer gets a debit entry and a credit entry of
  its own, known by their places in the list. The audit never looks for one. It counts
  like entries and lets each transfer take any that are left; a pairing exists just when
  the counts suffice (`exists_pairing_iff`).
-/

namespace Giro.Audit

/-- A debit and a credit entry for each transfer, by their places in the lists. No entry is
    used twice. -/
structure Pairing (entries : List Entry) (transfers : List Transfer) where
  debit : Fin transfers.length → Fin entries.length
  credit : Fin transfers.length → Fin entries.length
  debit_account : ∀ i, entries[debit i].account = transfers[i].source
  debit_amount : ∀ i, entries[debit i].amount = -transfers[i].amount
  credit_account : ∀ i, entries[credit i].account = transfers[i].destination
  credit_amount : ∀ i, entries[credit i].amount = transfers[i].amount
  debit_injective : Function.Injective debit
  credit_injective : Function.Injective credit
  debit_ne_credit : ∀ i j, debit i ≠ credit j

variable {accounts : List Account} {entries : List Entry} {transfers : List Transfer}

/-- Of the places in a list without repetitions at most one is so, or they are all the same. -/
theorem countP_le_one_iff {n : Nat} {places : List (Fin n)} (h : places.Nodup) (so : Fin n → Bool) :
    places.countP so ≤ 1 ↔ ∀ j ∈ places, ∀ k ∈ places, so j = true → so k = true → j = k := by
  rw [List.countP_eq_length_filter, ← List.toFinset_card_of_nodup (h.filter so), Finset.card_le_one]
  simp only [List.mem_toFinset, List.mem_filter]
  exact ⟨fun hall j hj k hk hsj hsk => hall j ⟨hj, hsj⟩ k ⟨hk, hsk⟩,
    fun hall j hj k hk => hall j hj.1 k hk.1 hj.2 hk.2⟩

/-! ## From a pairing to counts -/

namespace Pairing

variable (p : Pairing entries transfers)

/-- No transfer has the entry at this place. -/
def Unused (k : Fin entries.length) : Prop := ∀ i, p.debit i ≠ k ∧ p.credit i ≠ k

/-- Every account has at most one entry that no transfer has. -/
def LeavesOne (accounts : List Account) : Prop :=
  ∀ a ∈ accounts, ∀ j k, p.Unused j → p.Unused k → entries[j].account = a.id → entries[k].account = a.id → j = k

/-- The places that the transfers have, transfer by transfer. -/
def used : List (Fin entries.length) := (List.finRange transfers.length).flatMap fun i => [p.debit i, p.credit i]

/-- The places that are left. -/
def left : List (Fin entries.length) := (List.finRange entries.length).filter (· ∉ p.used)

theorem mem_left {k : Fin entries.length} : k ∈ p.left ↔ p.Unused k := by
  simp only [left, used, Unused, List.mem_filter, List.mem_finRange, List.mem_flatMap, List.mem_cons,
    List.not_mem_nil, or_false, true_and, decide_eq_true_eq, not_exists, not_or]
  exact forall_congr' fun i => and_congr ne_comm ne_comm

theorem nodup_left : p.left.Nodup := (List.nodup_finRange _).filter _

theorem nodup_used : p.used.Nodup := by
  refine List.nodup_flatMap.2 ⟨fun i _ => by simpa using p.debit_ne_credit i i, ?_⟩
  refine (List.nodup_finRange _).imp ?_
  intro i j hij
  have hdebit : p.debit i ≠ p.debit j := p.debit_injective.ne hij
  have hcredit : p.credit i ≠ p.credit j := p.credit_injective.ne hij
  simp [List.Disjoint, Function.onFun, hdebit, hcredit, p.debit_ne_credit i j, (p.debit_ne_credit j i).symm]

/-- Every place is used or left. -/
theorem used_append_left : (p.used ++ p.left).Perm (List.finRange entries.length) := by
  have hnodup : (p.used ++ p.left).Nodup :=
    p.nodup_used.append p.nodup_left fun k hk hleft => by simp [left, hk] at hleft
  refine (List.perm_ext_iff_of_nodup hnodup (List.nodup_finRange _)).2 fun k => ?_
  by_cases hk : k ∈ p.used <;> simp [left, hk]

/-- At the used places stand the legs of the transfers. -/
theorem map_used : p.used.map (fun k => legOf entries[k]) = transfers.flatMap legs := by
  have hlegs : ∀ i, [p.debit i, p.credit i].map (fun k => legOf entries[k]) = legs transfers[i] := by
    intro i
    simp only [List.map_cons, List.map_nil, legOf, legs, p.debit_account, p.debit_amount, p.credit_account,
      p.credit_amount]
  rw [used, List.map_flatMap]
  simp only [hlegs]
  rw [← List.flatMap_map (fun i : Fin transfers.length => transfers[i]) legs]
  congr 1
  exact List.map_getElem_finRange transfers

end Pairing

/-! ## From counts to a pairing -/

/-- The legs of a transfer stand one behind the other. -/
theorem getElem?_flatMap_legs (transfers : List Transfer) (i : Nat) :
    (transfers.flatMap legs)[2 * i]? = transfers[i]?.map (fun t => ⟨t.source, -t.amount⟩) ∧
      (transfers.flatMap legs)[2 * i + 1]? = transfers[i]?.map (fun t => ⟨t.destination, t.amount⟩) := by
  induction transfers generalizing i with
  | nil => simp
  | cons t transfers ih =>
    cases i with
    | zero => exact ⟨rfl, rfl⟩
    | succ i => exact ih i

theorem length_flatMap_legs (transfers : List Transfer) : (transfers.flatMap legs).length = 2 * transfers.length := by
  induction transfers with
  | nil => rfl
  | cons t transfers ih => rw [List.flatMap_cons, List.length_append, ih, List.length_cons]; simp [legs]; omega

/-- Places at which the legs of the transfers stand first, and then the rest. -/
structure Deal (entries : List Entry) (transfers : List Transfer) where
  places : List (Fin entries.length)
  rest : List Leg
  perm : places.Perm (List.finRange entries.length)
  legs_eq : places.map (fun k => legOf entries[k]) = transfers.flatMap legs ++ rest

namespace Deal

variable (d : Deal entries transfers)

theorem nodup : d.places.Nodup := d.perm.nodup_iff.2 (List.nodup_finRange _)

theorem lt_length (i : Fin transfers.length) : 2 * i.val + 1 < d.places.length := by
  have h := congrArg List.length d.legs_eq
  rw [List.length_map, List.length_append, length_flatMap_legs] at h
  omega

/-- The leg at a place before the rest. -/
theorem legOf_get {n : Nat} (h : n < d.places.length) {leg : Leg} (hleg : (transfers.flatMap legs)[n]? = some leg) :
    legOf entries[d.places.get ⟨n, h⟩] = leg := by
  have hn := congrArg (·[n]?) d.legs_eq
  have hlt : n < (transfers.flatMap legs).length := (List.getElem?_eq_some_iff.1 hleg).1
  simp only [List.getElem?_map, List.getElem?_append_left hlt, hleg, List.getElem?_eq_getElem h, Option.map_some,
    Option.some.injEq] at hn
  exact hn

theorem debit_leg (i : Fin transfers.length) :
    legOf entries[d.places.get ⟨2 * i, by have := d.lt_length i; omega⟩] =
      ⟨transfers[i].source, -transfers[i].amount⟩ := by
  refine d.legOf_get _ ?_
  rw [(getElem?_flatMap_legs transfers i).1, List.getElem?_eq_getElem i.isLt]
  rfl

theorem credit_leg (i : Fin transfers.length) :
    legOf entries[d.places.get ⟨2 * i + 1, d.lt_length i⟩] = ⟨transfers[i].destination, transfers[i].amount⟩ := by
  refine d.legOf_get _ ?_
  rw [(getElem?_flatMap_legs transfers i).2, List.getElem?_eq_getElem i.isLt]
  rfl

/-- Two and two from the start, each transfer takes its entries. -/
def pairing : Pairing entries transfers where
  debit i := d.places.get ⟨2 * i, by have := d.lt_length i; omega⟩
  credit i := d.places.get ⟨2 * i + 1, d.lt_length i⟩
  debit_account i := congrArg Leg.account (d.debit_leg i)
  debit_amount i := congrArg Leg.amount (d.debit_leg i)
  credit_account i := congrArg Leg.account (d.credit_leg i)
  credit_amount i := congrArg Leg.amount (d.credit_leg i)
  debit_injective i j h := by
    have := Fin.val_eq_of_eq (d.nodup.injective_get h)
    dsimp only at this
    omega
  credit_injective i j h := by
    have := Fin.val_eq_of_eq (d.nodup.injective_get h)
    dsimp only at this
    omega
  debit_ne_credit i j h := by
    have := Fin.val_eq_of_eq (d.nodup.injective_get h)
    dsimp only at this
    omega

/-- What no transfer takes is in the rest. -/
theorem mem_drop_of_unused {k : Fin entries.length} (h : d.pairing.Unused k) :
    k ∈ d.places.drop (2 * transfers.length) := by
  have hk : k ∈ d.places := d.perm.mem_iff.2 (List.mem_finRange k)
  obtain ⟨n, hn, rfl⟩ := List.mem_iff_getElem.1 hk
  by_cases hlt : n < 2 * transfers.length
  · obtain ⟨hdebit, hcredit⟩ := h ⟨n / 2, by omega⟩
    rcases Nat.mod_two_eq_zero_or_one n with hmod | hmod
    · exact absurd (congrArg d.places.get (Fin.ext (by dsimp only; omega))) hdebit
    · exact absurd (congrArg d.places.get (Fin.ext (by dsimp only; omega))) hcredit
  · exact List.mem_drop_iff_getElem.2 ⟨n - 2 * transfers.length, by omega, by congr 1; omega⟩

theorem map_drop : (d.places.drop (2 * transfers.length)).map (fun k => legOf entries[k]) = d.rest := by
  rw [List.map_drop, d.legs_eq, ← length_flatMap_legs, List.drop_left]

end Deal

/-! ## The audit -/

/-- The entries can be dealt out just when their legs are those of the transfers and one
    more of each account at most. -/
theorem exists_pairing_iff :
    (∃ p : Pairing entries transfers, p.LeavesOne accounts) ↔
      ∃ rest : List Leg, (entries.map legOf).Perm (transfers.flatMap legs ++ rest) ∧
        ∀ a ∈ accounts, rest.countP (·.account = a.id) ≤ 1 := by
  have hmap : (List.finRange entries.length).map (fun k => legOf entries[k]) = entries.map legOf := by
    conv_rhs => rw [← List.map_getElem_finRange entries, List.map_map]
    rfl
  constructor
  · rintro ⟨p, hp⟩
    refine ⟨p.left.map fun k => legOf entries[k], ?_, ?_⟩
    · rw [← p.map_used, ← List.map_append, ← hmap]
      exact (p.used_append_left.map _).symm
    · intro a ha
      rw [List.countP_map, countP_le_one_iff p.nodup_left]
      intro j hj k hk hja hka
      exact hp a ha j k (p.mem_left.1 hj) (p.mem_left.1 hk) (by simpa [legOf] using hja) (by simpa [legOf] using hka)
  · rintro ⟨rest, hperm, hrest⟩
    obtain ⟨places, hlegs, hplaces⟩ : Relation.Comp (· = List.map (fun k => legOf entries[k]) ·) List.Perm
        (transfers.flatMap legs ++ rest) (List.finRange entries.length) := by
      rw [List.eq_map_comp_perm]
      rw [← hmap] at hperm
      exact hperm.symm
    let d : Deal entries transfers := ⟨places, rest, hplaces, hlegs.symm⟩
    refine ⟨d.pairing, ?_⟩
    intro a ha j k hj hk hja hka
    have hone : d.rest.countP (·.account = a.id) ≤ 1 := hrest a ha
    have hdrop : (d.places.drop (2 * transfers.length)).Nodup := d.nodup.sublist (List.drop_sublist _ _)
    rw [← d.map_drop, List.countP_map, countP_le_one_iff hdrop] at hone
    exact hone j (d.mem_drop_of_unused hj) k (d.mem_drop_of_unused hk) (by simpa [legOf] using hja)
      (by simpa [legOf] using hka)

/-- The audit of a ledger, in which no two accounts have one id, finds it valid just when
    every balance is the sum of the account's entries, every entry is of an account that
    there is, every transfer moves a positive amount, and the entries can be dealt out: to
    each transfer a debit of its source and a credit of its destination, and to each
    account at most one more. -/
theorem isValid_iff (hdistinct : (accounts.map (·.id)).Nodup) :
    (ofRows accounts entries transfers).report.isValid = true ↔
      (∀ a ∈ accounts, a.balance = entrySum entries a.id) ∧ (∀ e ∈ entries, ∃ a ∈ accounts, a.id = e.account) ∧
        (∀ t ∈ transfers, 0 < t.amount) ∧ ∃ p : Pairing entries transfers, p.LeavesOne accounts := by
  have hvalid : (ofRows accounts entries transfers).report.isValid = true ↔
      (ofRows accounts entries transfers).issues = [] := List.isEmpty_iff
  rw [hvalid, issues_eq_nil_iff hdistinct, exists_pairing_iff]
  constructor
  · rintro ⟨-, hbalanced, hknown, hpos, hpaired⟩
    exact ⟨hbalanced, hknown, hpos, hpaired⟩
  · rintro ⟨hbalanced, hknown, hpos, hpaired⟩
    exact ⟨hdistinct, hbalanced, hknown, hpos, hpaired⟩

/-- Two accounts; the first one was opened with 10. -/
def lookalikeAccounts : List Account := [⟨1, "ann", "EUR", 20, .epoch⟩, ⟨2, "bob", "EUR", -10, .epoch⟩]

/-- A transfer of 10 to the first account, and one from it to itself. -/
def lookalikeTransfers : List Transfer := [⟨1, 2, 1, 10, .epoch⟩, ⟨2, 1, 1, 10, .epoch⟩]

/-- The opening entry looks just like either credit. -/
def lookalikeEntries : List Entry :=
  [⟨1, 1, 10, .epoch⟩, ⟨2, 2, -10, .epoch⟩, ⟨3, 1, 10, .epoch⟩, ⟨4, 1, -10, .epoch⟩, ⟨5, 1, 10, .epoch⟩]

theorem isValid_lookalikes :
    (lookalikeAccounts.map (·.id)).Nodup ∧
      (ofRows lookalikeAccounts lookalikeEntries lookalikeTransfers).report.isValid = true ∧
      ∃ p : Pairing lookalikeEntries lookalikeTransfers, p.LeavesOne lookalikeAccounts := by
  have hdistinct : (lookalikeAccounts.map (·.id)).Nodup := by decide
  have hvalid : (ofRows lookalikeAccounts lookalikeEntries lookalikeTransfers).report.isValid = true := by
    decide +kernel
  obtain ⟨-, -, -, hpairing⟩ := (isValid_iff hdistinct).1 hvalid
  exact ⟨hdistinct, hvalid, hpairing⟩

end Giro.Audit
