import Giro.Proofs.Findings

/-
  Giro.Proofs.Words — the audit in machine words.

  The audit reckons with whole numbers of any size. Here it is gone through once more with
  each number in a word: sums in 128 bits, amounts in 64, and counters, which have no sign,
  in 64. The first result that does not fit its word stops it (`Checked.ofRows`).

  Rows of 64-bit numbers never stop it, if there are fewer than 2^63 accounts and entries.
  Each row moves a running sum by 2^63 at most. Only positive amounts are negated, so never
  the least amount, which has no opposite. And a counter goes down only from above zero: at
  any time the counters stand for a part of the entries (`Holds`), and what one account has
  left over is a part of that.

  Main statement: `never_overflows`.
-/

namespace Giro

/-! ## Words -/

/-- The words in which an audit keeps its numbers. -/
inductive Word where
  /-- Signed, of 64 bits. -/
  | amount
  /-- Signed, of 128 bits. -/
  | sum
  /-- Without a sign, of 64 bits. -/
  | counter
  deriving DecidableEq

/-- A result that does not fit its word. -/
structure Overflow where
  word : Word
  result : Int
  deriving DecidableEq

namespace Word

def least : Word → Int
  | amount => Amount.least
  | sum => -2 ^ 127
  | counter => 0

def greatest : Word → Int
  | amount => Amount.greatest
  | sum => 2 ^ 127 - 1
  | counter => 2 ^ 64 - 1

def Fits (w : Word) (n : Int) : Prop := w.least ≤ n ∧ n ≤ w.greatest

instance (w : Word) (n : Int) : Decidable (w.Fits n) := inferInstanceAs (Decidable (_ ∧ _))

/-- Puts a result into the word. -/
def hold (w : Word) (n : Int) : Except Overflow Int := if w.Fits n then .ok n else .error ⟨w, n⟩

theorem hold_of_fits {w : Word} {n : Int} (h : w.Fits n) : w.hold n = .ok n := if_pos h

/-- The opposite of a positive amount is an amount. -/
theorem fits_neg {n : Int} (h : Amount.Fits n) (hpos : 0 < n) : amount.Fits (-n) := by
  have hgreatest : n ≤ 9223372036854775807 := h.2
  show -9223372036854775808 ≤ -n ∧ -n ≤ 9223372036854775807
  omega

example : amount.hold (-Amount.least) = .error ⟨amount, 9223372036854775808⟩ := rfl

/-- Fewer than 2^63 amounts have a sum. -/
theorem fits_sum {ns : List Int} (hlength : ns.length < 2 ^ 63) (h : ∀ n ∈ ns, Amount.Fits n) :
    sum.Fits ns.sum := by
  have hleast := List.card_nsmul_le_sum ns Amount.least fun n hn => (h n hn).1
  have hgreatest := List.sum_le_card_nsmul ns Amount.greatest fun n hn => (h n hn).2
  rw [nsmul_eq_mul] at hleast hgreatest
  unfold Amount.least at hleast
  unfold Amount.greatest at hgreatest
  show -2 ^ 127 ≤ ns.sum ∧ ns.sum ≤ 2 ^ 127 - 1
  omega

end Word

namespace Tally

variable {κ ι : Type} [DecidableEq κ]

/-- Adds to the number under a key, which is kept in the word. -/
def addIn (w : Word) (k : κ) (n : Int) (t : Tally κ) : Except Overflow (Tally κ) := do
  let _ ← w.hold (t.count k + n)
  return t.add k n

/-- Adds the number `g x` under the key `f x` for each `x`, one after the other. -/
def addAllIn (w : Word) (f : ι → κ) (g : ι → Int) (xs : List ι) : Except Overflow (Tally κ) :=
  xs.foldlM (fun t x => t.addIn w (f x) (g x)) []

theorem addIn_of_fits {w : Word} {k : κ} {n : Int} {t : Tally κ} (h : w.Fits (t.count k + n)) :
    t.addIn w k n = .ok (t.add k n) := by
  rw [addIn, Word.hold_of_fits h]
  rfl

end Tally

namespace Audit

/-! ## The checked audit -/

namespace Checked

def entrySums (entries : List Entry) : Except Overflow (Tally Int) :=
  Tally.addAllIn .sum Entry.account Entry.amount entries

def total (accounts : List Account) : Except Overflow Int :=
  accounts.foldlM (fun n a => Word.sum.hold (n + a.balance)) 0

def legCounts (entries : List Entry) : Except Overflow (Tally Leg) := Tally.addAllIn .counter legOf (fun _ => 1) entries

def take (leg : Leg) (spare : Tally Leg) : Except Overflow (Option (Tally Leg)) :=
  if 0 < spare.count leg then some <$> spare.addIn .counter leg (-1) else .ok none

def takeOr (issue : Issue) (leg : Leg) (spare : Tally Leg) : Except Overflow (List Issue × Tally Leg) := do
  match ← take leg spare with
  | some spare => return ([], spare)
  | none => return ([issue], spare)

def checkTransfers : List Transfer → Tally Leg → Except Overflow (List Issue × Tally Leg)
  | [], spare => return ([], spare)
  | t :: transfers, spare => do
    if t.amount ≤ 0 then
      let (issues, spare) ← checkTransfers transfers spare
      return (.amountNotPositive t.id t.amount :: issues, spare)
    else
      let debit ← Word.amount.hold (-t.amount)
      let (out, spare) ← takeOr (.noDebit t.id debit t.source) ⟨t.source, debit⟩ spare
      let (into, spare) ← takeOr (.noCredit t.id t.amount t.destination) ⟨t.destination, t.amount⟩ spare
      let (issues, spare) ← checkTransfers transfers spare
      return (out ++ into ++ issues, spare)

/-- The order in which the spare entries are added up: by account, then by amount. -/
def inOrder (p q : Leg × Int) : Bool :=
  p.1.account < q.1.account ∨ p.1.account = q.1.account ∧ p.1.amount ≤ q.1.amount

def leftovers (spare : Tally Leg) : Except Overflow (Tally Int) :=
  Tally.addAllIn .counter (fun p : Leg × Int => p.1.account) (·.2) (spare.mergeSort inOrder)

/-- Audits the given rows with every sum, every negated amount and every counter in its word. -/
def ofRows (accounts : List Account) (entries : List Entry) (transfers : List Transfer) : Except Overflow Audit := do
  let sums ← entrySums entries
  let total ← total accounts
  let (mismatches, rest) := checkBalances accounts sums
  let counts ← legCounts entries
  let (unbacked, spare) ← checkTransfers transfers counts
  let left ← leftovers spare
  return {
    issues := mismatches ++ unknownAccounts rest ++ unbacked ++ checkLeftovers accounts left
    accountsChecked := accounts.length
    transfersChecked := transfers.length
    totalBalance := total }

end Checked

/-- A count of some of so many things. -/
def CountUpTo (most : Nat) (n : Int) : Prop := 0 ≤ n ∧ n ≤ most

theorem CountUpTo.mono {most most' : Nat} {n : Int} (h : CountUpTo most n) (hle : most ≤ most') :
    CountUpTo most' n :=
  ⟨h.1, Int.le_trans h.2 (Int.ofNat_le.2 hle)⟩

theorem CountUpTo.fits {most : Nat} {n : Int} (h : CountUpTo most n) (hmost : most < 2 ^ 63) :
    Word.counter.Fits n := by
  obtain ⟨hzero, hle⟩ := h
  show 0 ≤ n ∧ n ≤ 2 ^ 64 - 1
  omega

/-- The numbers that an audit comes to on its way, whatever part of the rows it has read. -/
structure Bounded (accounts : List Account) (entries : List Entry) (transfers : List Transfer) : Prop where
  entrySum : ∀ read, read <+: entries → ∀ account, Word.sum.Fits ((entrySums read).count account)
  total : ∀ read, read <+: accounts → Word.sum.Fits (Audit.total read)
  negation : ∀ t ∈ transfers, 0 < t.amount → Word.amount.Fits (-t.amount)
  legCount : ∀ read, read <+: entries → ∀ leg, CountUpTo entries.length ((legCounts read).count leg)
  spare : ∀ read, read <+: transfers → ∀ leg,
    CountUpTo entries.length ((checkTransfers read (legCounts entries)).2.count leg)
  /-- When a transfer has taken one entry and not yet the other. -/
  taken : ∀ read, read <+: transfers → ∀ issue taken leg,
    CountUpTo entries.length ((takeOr issue taken (checkTransfers read (legCounts entries)).2).2.count leg)
  /-- In whatever order the spare entries are added up. -/
  leftover : ∀ read, read.Subperm (checkTransfers transfers (legCounts entries)).2 → ∀ account,
    CountUpTo entries.length ((leftovers read).count account)

/-! ## Sums -/

/-- A fold in which no step is stopped. -/
theorem foldlM_eq_ok {σ ι : Type} {step : σ → ι → Except Overflow σ} {next : σ → ι → σ} {xs : List ι} {s : σ}
    (h : ∀ read x, read ++ [x] <+: xs → step (read.foldl next s) x = .ok (next (read.foldl next s) x)) :
    xs.foldlM step s = .ok (xs.foldl next s) := by
  induction xs generalizing s with
  | nil => rfl
  | cons x xs ih =>
    have hx : step s x = .ok (next s x) := h [] x (List.prefix_append [x] xs)
    rw [List.foldlM_cons, hx]
    exact ih fun read y hread => h (x :: read) y ((List.prefix_cons_inj x).2 hread)

theorem addAllIn_eq {κ ι : Type} [DecidableEq κ] {w : Word} {f : ι → κ} {g : ι → Int} {xs : List ι}
    (h : ∀ read, read <+: xs → ∀ k, w.Fits ((Tally.addAll f g read []).count k)) :
    Tally.addAllIn w f g xs = .ok (Tally.addAll f g xs []) := by
  refine foldlM_eq_ok fun read x hread => Tally.addIn_of_fits ?_
  have hcount := h _ hread (f x)
  rw [Tally.addAll, List.foldl_append, List.foldl_cons, List.foldl_nil, Tally.count_add, if_pos rfl] at hcount
  exact hcount

theorem fits_entrySums {entries : List Entry} (hlength : entries.length < 2 ^ 63)
    (hentries : ∀ e ∈ entries, Amount.Fits e.amount) (account : Int) :
    Word.sum.Fits ((entrySums entries).count account) := by
  rw [count_entrySums, entrySum]
  refine Word.fits_sum ?_ ?_
  · rw [List.length_map]
    exact Nat.lt_of_le_of_lt (List.length_filter_le _ _) hlength
  · intro n hn
    obtain ⟨e, he, rfl⟩ := List.mem_map.1 hn
    exact hentries e (List.mem_filter.1 he).1

theorem fits_total {accounts : List Account} (hlength : accounts.length < 2 ^ 63)
    (haccounts : ∀ a ∈ accounts, Amount.Fits a.balance) : Word.sum.Fits (total accounts) := by
  rw [total_eq_sum]
  exact Word.fits_sum (by rwa [List.length_map]) (List.forall_mem_map.2 haccounts)

/-- The total, added up in the order of the accounts. -/
theorem total_eq_foldl (accounts : List Account) :
    total accounts = accounts.foldl (fun n a => n + a.balance) 0 := by
  rw [total_eq_sum, List.sum_eq_foldl, List.foldl_map]

theorem Checked.total_eq {accounts : List Account}
    (h : ∀ read, read <+: accounts → Word.sum.Fits (Audit.total read)) :
    Checked.total accounts = .ok (Audit.total accounts) := by
  rw [total_eq_foldl]
  refine foldlM_eq_ok fun read a hread => Word.hold_of_fits ?_
  have htotal := h _ hread
  rw [total_eq_foldl, List.foldl_append] at htotal
  exact htotal

/-! ## Counters -/

section Counters

variable {spare : Tally Leg} {left : Multiset Leg}

/-- A counter is never below zero, and never above the number of legs that are left. -/
theorem Holds.count_upTo (h : Holds spare left) (leg : Leg) : CountUpTo left.card (spare.count leg) := by
  rw [h.count]
  exact ⟨Int.natCast_nonneg _, Int.ofNat_le.2 (Multiset.count_le_card leg left)⟩

/-- Taking an entry counts down from above zero. -/
theorem Checked.takeOr_eq (h : Holds spare left) (hcard : left.card < 2 ^ 63) (issue : Issue) (leg : Leg) :
    Checked.takeOr issue leg spare = .ok (Audit.takeOr issue leg spare) := by
  obtain ⟨-, hle⟩ := h.count_upTo leg
  rw [Audit.takeOr_eq, Checked.takeOr, Checked.take]
  split
  · have hdown : CountUpTo left.card (spare.count leg + -1) := ⟨by omega, by omega⟩
    rw [Tally.addIn_of_fits (hdown.fits hcard)]
    rfl
  · rfl

theorem Checked.checkTransfers_eq (h : Holds spare left) (hcard : left.card < 2 ^ 63) {transfers : List Transfer}
    (htransfers : ∀ t ∈ transfers, Amount.Fits t.amount) :
    Checked.checkTransfers transfers spare = .ok (Audit.checkTransfers transfers spare) := by
  -- the legs that are left grow fewer with each transfer
  induction transfers generalizing spare left with
  | nil => rfl
  | cons t transfers ih =>
    obtain ⟨ht, htransfers⟩ := List.forall_mem_cons.1 htransfers
    rw [Checked.checkTransfers, Audit.checkTransfers]
    by_cases hpos : 0 < t.amount
    · have herase : ∀ {left : Multiset Leg} (leg : Leg), left.card < 2 ^ 63 → (left.erase leg).card < 2 ^ 63 :=
        fun _ hcard => Nat.lt_of_le_of_lt (Multiset.card_erase_le ..) hcard
      have hdebit := (h.takeOr (.noDebit t.id (-t.amount) t.source) ⟨t.source, -t.amount⟩).2
      have hcredit := (hdebit.takeOr (.noCredit t.id t.amount t.destination) ⟨t.destination, t.amount⟩).2
      rw [if_neg (Int.not_le.2 hpos), if_neg (Int.not_le.2 hpos), Word.hold_of_fits (Word.fits_neg ht hpos)]
      dsimp only [bind, Except.bind]
      rw [Checked.takeOr_eq h hcard]
      dsimp only
      rw [Checked.takeOr_eq hdebit (herase _ hcard)]
      dsimp only
      rw [ih hcredit (herase _ (herase _ hcard)) htransfers]
      rfl
    · rw [if_pos (Int.not_lt.1 hpos), if_pos (Int.not_lt.1 hpos), ih h hcard htransfers]
      rfl

end Counters

/-! ## Leftovers -/

theorem nodup_keys_takeOr {spare : Tally Leg} (h : spare.keys.Nodup) (issue : Issue) (leg : Leg) :
    (takeOr issue leg spare).2.keys.Nodup := by
  rw [takeOr_eq]
  split
  · exact Tally.nodup_keys_add h _ _
  · exact h

theorem nodup_keys_checkTransfers {spare : Tally Leg} (h : spare.keys.Nodup) (transfers : List Transfer) :
    (checkTransfers transfers spare).2.keys.Nodup := by
  induction transfers generalizing spare with
  | nil => exact h
  | cons t transfers ih =>
    rw [checkTransfers]
    split
    · exact ih h
    · exact ih (nodup_keys_takeOr (nodup_keys_takeOr h _ _) _ _)

section Leftovers

variable {spare : Tally Leg} {left : Multiset Leg}

/-- Any part of the counters comes to no more than the legs that are left. -/
theorem Holds.leftovers_upTo (h : Holds spare left) (hkeys : spare.keys.Nodup) {read : Tally Leg}
    (hread : read.Subperm spare) (account : Int) : CountUpTo left.card ((leftovers read).count account) := by
  have hnonneg : ∀ p ∈ spare, 0 ≤ p.2 := fun p hp => Tally.count_of_mem hkeys hp ▸ (h.count_upTo p.1).1
  obtain ⟨hzero, hle⟩ := Tally.groupSum_subperm hread hnonneg Leg.account account
  rw [h.group] at hle
  rw [count_leftovers]
  exact ⟨hzero, hle.trans (Int.ofNat_le.2 (Multiset.countP_le_card _ _))⟩

theorem Checked.leftovers_eq (h : Holds spare left) (hkeys : spare.keys.Nodup) (hcard : left.card < 2 ^ 63) :
    Checked.leftovers spare = .ok (Audit.leftovers (spare.mergeSort inOrder)) := by
  refine addAllIn_eq fun read hread account => ?_
  have hpart : read.Subperm spare := hread.sublist.subperm.trans (List.mergeSort_perm spare inOrder).subperm
  exact (h.leftovers_upTo hkeys hpart account).fits hcard

end Leftovers

/-- The order in which the spare entries are added up does not matter. -/
theorem checkLeftovers_mergeSort (accounts : List Account) (spare : Tally Leg) (le : Leg × Int → Leg × Int → Bool) :
    checkLeftovers accounts (leftovers (spare.mergeSort le)) = checkLeftovers accounts (leftovers spare) := by
  refine checkLeftovers_congr rfl fun account => ?_
  rw [count_leftovers, count_leftovers]
  exact (((List.mergeSort_perm spare le).filter _).map _).sum_eq

/-! ## The audit -/

section OfRows

variable {accounts : List Account} {entries : List Entry} {transfers : List Transfer}

theorem card_spareLegs_le (entries : List Entry) (transfers : List Transfer) :
    (spareLegs entries transfers).card ≤ entries.length := by
  have hle : (spareLegs entries transfers).card ≤ (entries.map legOf : Multiset Leg).card :=
    Multiset.card_le_card (Multiset.sub_le_self _ _)
  rwa [Multiset.coe_card, List.length_map] at hle

theorem nodup_keys_legCounts (entries : List Entry) : (legCounts entries).keys.Nodup :=
  Tally.nodup_keys_addAll (t := []) List.nodup_nil _ _ _

theorem bounded (haccounts : ∀ a ∈ accounts, Amount.Fits a.balance) (hentries : ∀ e ∈ entries, Amount.Fits e.amount)
    (htransfers : ∀ t ∈ transfers, Amount.Fits t.amount) (haccounts_length : accounts.length < 2 ^ 63)
    (hentries_length : entries.length < 2 ^ 63) : Bounded accounts entries transfers where
  entrySum read hread account :=
    fits_entrySums (Nat.lt_of_le_of_lt hread.length_le hentries_length)
      (fun e he => hentries e (hread.subset he)) account
  total read hread :=
    fits_total (Nat.lt_of_le_of_lt hread.length_le haccounts_length) fun a ha => haccounts a (hread.subset ha)
  negation t ht hpos := Word.fits_neg (htransfers t ht) hpos
  legCount read hread leg := by
    refine ((holds_legCounts read).count_upTo leg).mono ?_
    rw [Multiset.coe_card, List.length_map]
    exact hread.length_le
  spare read _ leg := ((holds_spareLegs entries read).count_upTo leg).mono (card_spareLegs_le entries read)
  taken read _ issue taken leg := by
    refine (((holds_spareLegs entries read).takeOr issue taken).2.count_upTo leg).mono ?_
    exact Nat.le_trans (Multiset.card_erase_le ..) (card_spareLegs_le entries read)
  leftover read hread account := by
    have hkeys := nodup_keys_checkTransfers (nodup_keys_legCounts entries) transfers
    exact ((holds_spareLegs entries transfers).leftovers_upTo hkeys hread account).mono
      (card_spareLegs_le entries transfers)

theorem Checked.ofRows_eq (h : Bounded accounts entries transfers) (hlength : entries.length < 2 ^ 63)
    (htransfers : ∀ t ∈ transfers, Amount.Fits t.amount) :
    Checked.ofRows accounts entries transfers = .ok (Audit.ofRows accounts entries transfers) := by
  have hsums : Checked.entrySums entries = .ok (Audit.entrySums entries) := addAllIn_eq h.entrySum
  have hcounts : Checked.legCounts entries = .ok (Audit.legCounts entries) :=
    addAllIn_eq fun read hread leg => (h.legCount read hread leg).fits hlength
  have hcard : (entries.map legOf : Multiset Leg).card < 2 ^ 63 := by rwa [Multiset.coe_card, List.length_map]
  have hpaired := Checked.checkTransfers_eq (holds_legCounts entries) hcard htransfers
  have hleft := Checked.leftovers_eq (holds_spareLegs entries transfers)
    (nodup_keys_checkTransfers (nodup_keys_legCounts entries) transfers)
    (Nat.lt_of_le_of_lt (card_spareLegs_le entries transfers) hlength)
  rw [Checked.ofRows, hsums, Checked.total_eq h.total, hcounts]
  dsimp only [bind, Except.bind]
  rw [hpaired]
  dsimp only
  rw [hleft]
  dsimp only [pure, Except.pure]
  rw [checkLeftovers_mergeSort]
  rfl

/-- Whatever 64-bit numbers the rows hold, and in whatever order they come, an audit of fewer
    than 2^63 accounts and entries is never stopped: in words it reports what it does in whole
    numbers. Its sums stay within 128 bits and its negated amounts within 64, and its counters
    are at any time numbers of some of the entries, never below zero and never more than all. -/
theorem never_overflows (haccounts : ∀ a ∈ accounts, Amount.Fits a.balance)
    (hentries : ∀ e ∈ entries, Amount.Fits e.amount) (htransfers : ∀ t ∈ transfers, Amount.Fits t.amount)
    (haccounts_length : accounts.length < 2 ^ 63) (hentries_length : entries.length < 2 ^ 63) :
    Checked.ofRows accounts entries transfers = .ok (ofRows accounts entries transfers) ∧
      Bounded accounts entries transfers := by
  have h := bounded haccounts hentries htransfers haccounts_length hentries_length
  exact ⟨Checked.ofRows_eq h hentries_length htransfers, h⟩

end OfRows

/-- Balances at both ends of the range. -/
def extremeAccounts : List Account :=
  [⟨1, "ann", "EUR", Amount.least, .epoch⟩, ⟨2, "bob", "EUR", Amount.greatest, .epoch⟩,
    ⟨1, "ann", "EUR", Amount.least, .epoch⟩]

/-- The entries of the first account have a sum that no row can store; the last one is of no account. -/
def extremeEntries : List Entry :=
  [⟨1, 1, Amount.least, .epoch⟩, ⟨2, 1, Amount.least, .epoch⟩, ⟨3, 2, Amount.greatest, .epoch⟩,
    ⟨4, 1, -Amount.greatest, .epoch⟩, ⟨5, 3, Amount.least, .epoch⟩]

/-- Of the second and the third transfer only one finds its two entries. -/
def extremeTransfers : List Transfer :=
  [⟨1, 1, 2, Amount.least, .epoch⟩, ⟨2, 1, 2, Amount.greatest, .epoch⟩, ⟨3, 1, 2, Amount.greatest, .epoch⟩]

theorem never_overflows_extremes :
    (∀ a ∈ extremeAccounts, Amount.Fits a.balance) ∧ (∀ e ∈ extremeEntries, Amount.Fits e.amount) ∧
      (∀ t ∈ extremeTransfers, Amount.Fits t.amount) ∧ extremeAccounts.length < 2 ^ 63 ∧
      extremeEntries.length < 2 ^ 63 ∧ ¬ Word.amount.Fits ((entrySums extremeEntries).count 1) ∧
      Checked.ofRows extremeAccounts extremeEntries extremeTransfers =
        .ok (ofRows extremeAccounts extremeEntries extremeTransfers) ∧
      Bounded extremeAccounts extremeEntries extremeTransfers := by
  have haccounts : ∀ a ∈ extremeAccounts, Amount.Fits a.balance := by decide
  have hentries : ∀ e ∈ extremeEntries, Amount.Fits e.amount := by decide
  have htransfers : ∀ t ∈ extremeTransfers, Amount.Fits t.amount := by decide
  obtain ⟨hchecked, hbounded⟩ := never_overflows haccounts hentries htransfers (by decide) (by decide)
  exact ⟨haccounts, hentries, htransfers, by decide, by decide, by decide, hchecked, hbounded⟩

end Audit

end Giro
