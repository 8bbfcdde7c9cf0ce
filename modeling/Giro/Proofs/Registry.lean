import Giro.Proofs.Posting
import Giro.Proofs.Step

/-
  Giro.Proofs.Registry — every id is given once.

  Whoever opens an account draws its id first and puts the row later, if at all;
  `Store.createAccount` does both at once (`createAccount_eq`). Here the two are acts of
  their own beside the steps of the store, so that anything may come between them. A call
  that stages a record stays one step: it looks for the accounts before it draws the id, but
  only emptying the tables takes away what it saw (Proofs/Publication, "Calls in parts").

  A registry is a store with everything that ever got an id in it, whatever became of it:
  committed, staged, rolled back or emptied away. Transfers and entries are journals of one
  kind (`Journal`): calls stage records, a commit appends those of its transaction, and a
  counter numbers them. `Journal.Filed` says that each id below the counter was given to
  one record, and that each record is in one place at most. `Registry.Kept` is what every
  act keeps, `Kept.act` the act and `kept_run` the run.

  Main statement: `numbering_run`.
-/

namespace Giro

/-! ## Numbers -/

/-- These are the numbers below `next`, each once: `next` is the next one to be given. -/
structure Counted (ids : List Int) (next : Int) : Prop where
  nodup : ids.Nodup
  range : ∀ id ∈ ids, 1 ≤ id ∧ id < next
  next_eq : next = ids.length + 1

namespace Counted

variable {ids : List Int} {next : Int}

theorem nil : Counted [] 1 := ⟨List.nodup_nil, fun _ h => (List.not_mem_nil h).elim, rfl⟩

theorem snoc (h : Counted ids next) : Counted (ids ++ [next]) (next + 1) := by
  refine ⟨?_, ?_, ?_⟩
  · refine h.nodup.append (List.nodup_singleton _) ?_
    intro id hid hnext
    obtain rfl := List.mem_singleton.1 hnext
    have := h.range id hid
    omega
  · intro id hid
    have hlen := h.next_eq
    rcases List.mem_append.1 hid with hid | hid
    · have := h.range id hid
      omega
    · obtain rfl := List.mem_singleton.1 hid
      omega
  · have := h.next_eq
    simp only [List.length_append, List.length_singleton]
    omega

/-- A counter of 64 bits holds them as long as it has not run out. -/
theorem fits (h : Counted ids next) (hlen : (ids.length : Int) < Amount.greatest) : Amount.Fits next := by
  have := h.next_eq
  simp only [Amount.Fits, Amount.least, Amount.greatest] at hlen ⊢
  omega

end Counted

/-! ## Journals -/

/-- Records of one kind: calls stage them, a commit appends those of its transaction, and a
    counter numbers them. -/
structure Journal (α : Type) where
  rows : Tables → List α
  /-- The record that an answer gives. -/
  new : Exchange → Option α
  number : α → Int
  /-- The accounts that a record names. -/
  accounts : α → List Int
  counter : Counters → Int
  rows_empty : rows {} = []
  rows_publish (t : Tables) (x : Transaction) : rows (t.publish x) = rows t ++ rows x.draft
  rows_answer (d : Tables) (committed : Rows) (id : Int) (now : Instant) (c : Call) :
    rows (d.answer committed id now c).2 = rows d ++ (new ⟨c, (d.answer committed id now c).1⟩).toList
  new_error (c : Call) (e : LedgerError) : new ⟨c, .error e⟩ = none
  new_answer (d : Tables) (committed : Rows) (n : Counters) (now : Instant) (c : Call) :
    ∀ a ∈ new ⟨c, (d.answer committed (c.number n) now c).1⟩,
      number a = counter n ∧ ∀ id ∈ accounts a, committed.has id = true
  counter_draw (n : Counters) (c : Call) (r : Outcome c.Reply) :
    counter (c.draw n r) = counter n + (new ⟨c, r⟩).toList.length
  counter_account (n : Counters) (k : Int) : counter { n with account := k } = counter n

namespace Journal

def transfers : Journal Transfer where
  rows := Tables.transfers
  new := Exchange.transfer?
  number := (·.id)
  accounts t := [t.source, t.destination]
  counter := Counters.transfer
  rows_empty := rfl
  rows_publish _ _ := rfl
  rows_answer := Tables.answer_transfers
  new_error c e := by cases c <;> rfl
  new_answer d committed n now c := by
    cases c with
    | insertTransfer order =>
      simp only [Tables.answer]
      split
      · intro a ha; cases ha
      split
      · intro a ha; cases ha
      split
      · intro a ha; cases ha
      · rename_i hsource hdestination _
        intro a ha
        cases ha
        exact ⟨rfl, by simp_all⟩
    | _ => intro a ha; cases ha
  counter_draw n c r := by cases c <;> cases r <;> simp [Call.draw, Exchange.transfer?]
  counter_account _ _ := rfl

def entries : Journal Entry where
  rows := Tables.entries
  new := Exchange.entry?
  number := (·.id)
  accounts e := [e.account]
  counter := Counters.entry
  rows_empty := rfl
  rows_publish _ _ := rfl
  rows_answer := Tables.answer_entries
  new_error c e := by cases c <;> rfl
  new_answer d committed n now c := by
    cases c with
    | insertEntry account amount =>
      simp only [Tables.answer]
      split
      · intro a ha; cases ha
      · rename_i haccount
        intro a ha
        cases ha
        exact ⟨rfl, by simpa using haccount⟩
    | _ => intro a ha; cases ha
  counter_draw n c r := by cases c <;> cases r <;> simp [Call.draw, Exchange.entry?]
  counter_account _ _ := rfl

/-! ## Where records are -/

variable {α : Type} (J : Journal α) {s s' : Store} {x x' : Transaction} {o : Nat}

/-- What open transactions have staged. -/
def staged (s : Store) : List α := s.txs.flatMap fun x => J.rows x.draft

/-- What is committed or staged. -/
def present (s : Store) : List α := J.rows s.tables ++ J.staged s

/-- What a step records. -/
def recorded (s : Store) (st : Store.Step) : List α := ((s.exchange? st).bind J.new).toList

/-- At most one record is new: it gets the number that the counter showed, and it names
    accounts that are there. -/
inductive Adds (n n' : Counters) (rows : Rows) : List α → Prop
  | none : J.counter n' = J.counter n → Adds n n' rows []
  | one {a : α} : J.number a = J.counter n → (∀ id ∈ J.accounts a, rows.has id = true) →
      J.counter n' = J.counter n + 1 → Adds n n' rows [a]

theorem adds_answer (d : Tables) (committed : Rows) (n : Counters) (now : Instant) {c : Call} {r : Outcome c.Reply}
    (hr : (d.answer committed (c.number n) now c).1 = r) :
    J.Adds n (c.draw n r) committed (J.new ⟨c, r⟩).toList := by
  have hcounter := J.counter_draw n c r
  have hnew := J.new_answer d committed n now c
  rw [hr] at hnew
  cases ha : J.new ⟨c, r⟩ with
  | none =>
    rw [ha] at hcounter
    exact .none (by simpa using hcounter)
  | some a =>
    obtain ⟨hnumber, haccounts⟩ := hnew a ha
    rw [ha] at hcounter
    exact .one hnumber haccounts (by simpa using hcounter)

/-! ## A step of the store -/

theorem staged_of_tx (hu : (s.txs.map (·.owner)).Nodup) (hx : s.tx? o = some x) :
    (J.staged s).Perm (J.rows x.draft ++ J.staged (s.forget o)) :=
  (Store.txs_perm hu hx).flatMap_right _

theorem staged_forget (s : Store) (o : Nat) : (J.staged (s.forget o)).Sublist (J.staged s) :=
  List.Sublist.flatMap List.filter_sublist _

theorem staged_begin (s : Store) (o : Nat) : J.staged (s.begin o) = J.staged (s.forget o) := by
  show ((s.forget o).txs ++ [({ owner := o } : Transaction)]).flatMap _ = _
  rw [List.flatMap_append, List.flatMap_singleton]
  show _ ++ J.rows {} = _
  rw [J.rows_empty, List.append_nil]
  rfl

theorem staged_of_keeps (h : List.Forall₂ Transaction.Keeps s.txs s'.txs) : J.staged s' = J.staged s := by
  unfold staged
  generalize s.txs = txs, s'.txs = txs' at h
  induction h with
  | nil => rfl
  | cons hx _ ih => rw [List.flatMap_cons, List.flatMap_cons, hx.draft, ih]

/-- An answer stages what it gives. -/
theorem staged_answered {c : Call} {id : Int} {now : Instant} {r : Outcome c.Reply}
    (hu : (s.txs.map (·.owner)).Nodup) (hx : s.tx? o = some x) (ha : Store.Answered s x c id now r s' x') :
    (J.staged s').Perm (J.rows x.draft ++ (J.new ⟨c, r⟩).toList ++ J.staged (s.forget o)) := by
  have hrows := J.rows_answer x.draft s.tables.accounts id now c
  rw [ha.answer] at hrows
  rw [← hrows]
  exact (ha.txs_perm hu hx).flatMap_right _

/-- No step makes two of one record, or brings one back. -/
theorem count_present_step [DecidableEq α] (h : s.Sound) {st : Store.Step}
    (hst : ¬ st.Opens) (a : α) :
    (J.present (s.step st)).count a ≤ (J.present s).count a + (J.recorded s st).count a := by
  have hstepped := Store.stepped h st
  unfold recorded
  generalize s.exchange? st = e, s.step st = s' at hstepped ⊢
  have hforget (o : Nat) : (J.staged (s.forget o)).count a ≤ (J.staged s).count a := (J.staged_forget s o).count_le a
  simp only [present, List.count_append]
  cases hstepped with
  | still _ htables _ htxs =>
    rw [htables, J.staged_of_keeps htxs]
    omega
  | opened => exact absurd ⟨_, _, _, _, rfl⟩ hst
  | emptied =>
    have hempty : J.rows s.clear.tables = [] := J.rows_empty
    have hstaged : J.staged s.clear = J.staged s := rfl
    rw [hempty, hstaged, List.count_nil]
    omega
  | begun o =>
    have := hforget o
    rw [J.staged_begin, Store.begin_tables]
    omega
  | @answered o c now x x' r _ hx ha _ =>
    have hbefore := (J.staged_of_tx h.owners hx).count_eq a
    have hafter := (J.staged_answered h.owners hx ha).count_eq a
    rw [ha.tables, Option.bind_some]
    simp only [List.count_append] at hbefore hafter
    omega
  | ended o _ =>
    have := hforget o
    rw [Store.forget_tables]
    omega
  | @published o x hx _ =>
    have hbefore := (J.staged_of_tx h.owners hx).count_eq a
    have hrows : J.rows (s.tables.publish x) = J.rows s.tables ++ J.rows x.draft := J.rows_publish ..
    have hstaged : J.staged { s.forget o with tables := s.tables.publish x } = J.staged (s.forget o) := rfl
    rw [hrows, hstaged]
    simp only [List.count_append] at hbefore ⊢
    omega

theorem adds_step (h : s.Sound) {st : Store.Step}
    (hst : ¬ st.Opens) :
    J.Adds s.next (s.step st).next s.tables.accounts (J.recorded s st) := by
  have hstepped := Store.stepped h st
  unfold recorded
  generalize s.exchange? st = e, s.step st = s' at hstepped ⊢
  cases hstepped with
  | still he _ hnext _ =>
    rw [hnext]
    have hnone : e.bind J.new = none := by
      cases e with
      | none => rfl
      | some a =>
        obtain ⟨c, r⟩ := a
        have hr := he _ rfl
        cases r with
        | error err => exact J.new_error c err
        | ok reply => cases hr
    rw [hnone]
    exact .none rfl
  | opened => exact absurd ⟨_, _, _, _, rfl⟩ hst
  | emptied => exact .none rfl
  | begun o => exact .none rfl
  | @answered o c now x x' r _ hx ha hnext =>
    rw [hnext]
    exact J.adds_answer x.draft s.tables.accounts s.next now (by rw [ha.answer])
  | ended o _ => exact .none rfl
  | published _ _ => exact .none rfl

/-- Each number below the counter was given to one record, and each record is committed once,
    or staged once by one open transaction, or gone. -/
structure Filed (s : Store) (made : List α) : Prop where
  counted : Counted (made.map J.number) (J.counter s.next)
  once : (J.present s).Subperm made

variable {J} {made : List α}

theorem Adds.mem {n n' : Counters} {rows : Rows} {new : List α} (h : J.Adds n n' rows new) {a : α} (ha : a ∈ new) :
    J.number a = J.counter n ∧ ∀ id ∈ J.accounts a, rows.has id = true := by
  cases h with
  | none _ => cases ha
  | one hnumber hnamed _ =>
    obtain rfl := List.mem_singleton.1 ha
    exact ⟨hnumber, hnamed⟩

theorem Adds.lt {n n' : Counters} {rows : Rows} {new : List α} (h : J.Adds n n' rows new) {a : α} (ha : a ∈ new) :
    J.number a < J.counter n' := by
  cases h with
  | none _ => cases ha
  | one hnumber _ hcounter =>
    obtain rfl := List.mem_singleton.1 ha
    omega

theorem Adds.le {n n' : Counters} {rows : Rows} {new : List α} (h : J.Adds n n' rows new) :
    J.counter n ≤ J.counter n' := by
  cases h with
  | none hcounter => omega
  | one _ _ hcounter => omega

theorem Adds.counted {n n' : Counters} {rows : Rows} {new : List α} (h : J.Adds n n' rows new)
    (hmade : Counted (made.map J.number) (J.counter n)) : Counted ((made ++ new).map J.number) (J.counter n') := by
  cases h with
  | none hcounter => rwa [List.append_nil, hcounter]
  | one hnumber _ hcounter =>
    rw [List.map_append, List.map_singleton, hnumber, hcounter]
    exact hmade.snoc

theorem Filed.nodup (h : J.Filed s made) : ((J.present s).map J.number).Nodup := by
  obtain ⟨l, hperm, hsub⟩ := h.once
  exact (hperm.map J.number).nodup_iff.1 (h.counted.nodup.sublist (hsub.map J.number))

theorem Filed.number_lt {s : Store} {made : List α} (h : J.Filed s made) {a : α} (ha : a ∈ J.present s) :
    J.number a < J.counter s.next :=
  (h.counted.range _ (List.mem_map_of_mem (h.once.subset ha))).2

theorem Filed.step [DecidableEq α] (h : J.Filed s made) (hs : s.Sound) {st : Store.Step}
    (hst : ¬ st.Opens) :
    J.Filed (s.step st) (made ++ J.recorded s st) := by
  refine ⟨(J.adds_step hs hst).counted h.counted, List.subperm_ext_iff.2 ?_⟩
  intro a _
  have := J.count_present_step hs hst a
  have := h.once.count_le a
  rw [List.count_append]
  omega

/-- Drawing the id of an account is nothing to a journal. -/
theorem Filed.drawAccount (h : J.Filed s made) : J.Filed s.drawAccount made where
  counted := by
    show Counted _ (J.counter { s.next with account := s.next.account + 1 })
    rw [J.counter_account]
    exact h.counted
  once := h.once

/-- Records that are committed at once, outside any transaction. -/
theorem Filed.append [DecidableEq α] (h : J.Filed s made) {new : List α} {rows : Rows}
    (hrows : J.rows s'.tables = J.rows s.tables ++ new) (htxs : s'.txs = s.txs)
    (hadds : J.Adds s.next s'.next rows new) : J.Filed s' (made ++ new) := by
  refine ⟨hadds.counted h.counted, List.subperm_ext_iff.2 ?_⟩
  intro a _
  have := h.once.count_le a
  simp only [present, staged, hrows, htxs, List.count_append] at this ⊢
  omega

end Journal

/-- The entry of the opening balance, unless that is zero. -/
theorem Store.putAccount_entries {s : Store} (hs : s.tables.accounts.Sorted) (a : Account) (now : Instant) :
    ∃ opening, (s.putAccount a now).tables.entries = s.tables.entries ++ opening ∧
      Journal.entries.Adds s.next (s.putAccount a now).next (s.putAccount a now).tables.accounts opening := by
  have hput : (Rows.put a s.tables.accounts).has a.id = true := by
    rw [Rows.has_put hs, decide_eq_true rfl, Bool.true_or]
  unfold putAccount
  dsimp only
  split
  · exact ⟨[], (List.append_nil _).symm, .none rfl⟩
  · refine ⟨[_], rfl, .one rfl ?_ rfl⟩
    intro id hid
    obtain rfl := List.mem_singleton.1 hid
    exact hput

/-! ## The registry -/

/-- A store with all that ever got an id. -/
structure Registry where
  store : Store := {}
  /-- The ids of accounts that were given. -/
  accounts : List Int := []
  /-- The ids among them that were drawn and whose row was not put yet. -/
  drawn : List Int := []
  transfers : List Transfer := []
  entries : List Entry := []
  /-- The counters as they were when the tables were emptied last. -/
  since : Counters := {}

/-- What somebody does: a step of the store, or half the opening of an account. -/
inductive Registry.Act where
  | step (st : Store.Step)
  | draw
  | put (a : Account) (now : Instant)

namespace Registry

def draw (r : Registry) : Registry :=
  { r with
    store := r.store.drawAccount
    accounts := r.accounts ++ [r.store.next.account]
    drawn := r.drawn ++ [r.store.next.account] }

/-- Puts the row of an account, if its id was drawn for it. -/
def put (r : Registry) (a : Account) (now : Instant) : Registry :=
  if a.id ∈ r.drawn then
    { r with
      store := r.store.putAccount a now
      drawn := r.drawn.erase a.id
      entries := r.entries ++ (r.store.putAccount a now).tables.entries.drop r.store.tables.entries.length }
  else r

def step (r : Registry) (st : Store.Step) : Registry :=
  { r with
    store := r.store.step st
    transfers := r.transfers ++ Journal.transfers.recorded r.store st
    entries := r.entries ++ Journal.entries.recorded r.store st
    since := match st with
      | .operation .clear => r.store.next
      | _ => r.since }

/-- An account that is opened at once is drawn and put with nothing in between. -/
def act (r : Registry) : Act → Registry
  | .step (.operation (.createAccount owner currency balance now)) =>
    r.draw.put ⟨r.store.next.account, owner, currency, balance, now⟩ now
  | .step st => r.step st
  | .draw => r.draw
  | .put a now => r.put a now

def run (r : Registry) (acts : List Act) : Registry := acts.foldl act r

theorem run_append (r : Registry) (acts acts' : List Act) : r.run (acts ++ acts') = (r.run acts).run acts' :=
  List.foldl_append

variable {r : Registry}

theorem act_step (r : Registry) {st : Store.Step}
    (hst : ¬ st.Opens) :
    r.act (.step st) = r.step st := by
  cases st with
  | operation op =>
    cases op with
    | createAccount => exact absurd ⟨_, _, _, _, rfl⟩ hst
    | _ => rfl
  | _ => rfl

theorem step_since (r : Registry) {st : Store.Step} (hclear : st ≠ .operation .clear) :
    (r.step st).since = r.since := by
  cases st with
  | operation op =>
    cases op with
    | clear => exact absurd rfl hclear
    | _ => rfl
  | _ => rfl

theorem put_store (r : Registry) {a : Account} (ha : a.id ∈ r.drawn) (now : Instant) :
    (r.put a now).store = r.store.putAccount a now := by
  rw [put, if_pos ha]

theorem put_of_not_drawn (r : Registry) {a : Account} (ha : a.id ∉ r.drawn) (now : Instant) : r.put a now = r :=
  if_neg ha

theorem put_drawn (r : Registry) (a : Account) (now : Instant) : (r.put a now).drawn = r.drawn.erase a.id := by
  unfold put
  split
  · rfl
  · rename_i ha
    exact (List.erase_of_not_mem ha).symm

theorem put_eq (r : Registry) {a : Account} {now : Instant} {opening : List Entry} (ha : a.id ∈ r.drawn)
    (hentries : (r.store.putAccount a now).tables.entries = r.store.tables.entries ++ opening) :
    r.put a now = { r with
      store := r.store.putAccount a now
      drawn := r.drawn.erase a.id
      entries := r.entries ++ opening } := by
  rw [put, if_pos ha, hentries, List.drop_left]

/-- The id was given to an account whose row was put. The row may be gone since. -/
def Known (r : Registry) (id : Int) : Prop := id ∈ r.accounts ∧ id ∉ r.drawn

/-- The acts of the registry are the steps of the store. -/
theorem act_store (r : Registry) (hs : r.store.Sound) (st : Store.Step) :
    (r.act (.step st)).store = r.store.step st := by
  by_cases hst : st.Opens
  · obtain ⟨owner, currency, balance, now, rfl⟩ := hst
    obtain ⟨opening, hentries, -⟩ := Store.putAccount_entries (s := r.draw.store) hs.sorted
      ⟨r.store.next.account, owner, currency, balance, now⟩ now
    show (r.draw.put _ now).store = (r.store.createAccount owner currency balance now).2
    rw [put_eq r.draw (List.mem_append_right _ (List.mem_singleton.2 rfl)) hentries, Store.createAccount_eq]
    rfl
  · rw [act_step r hst]
    rfl

/-- What every act keeps. -/
structure Kept (r : Registry) : Prop where
  sound : r.store.Sound
  accounts : Counted r.accounts r.store.next.account
  drawn : r.drawn.Nodup
  issued : ∀ id ∈ r.drawn, id ∈ r.accounts
  known : ∀ row, r.store.tables.accounts.has row = true → r.Known row
  transfers : Journal.transfers.Filed r.store r.transfers
  entries : Journal.entries.Filed r.store r.entries

theorem kept_empty : Kept {} where
  sound := Store.idle_empty.sound
  accounts := .nil
  drawn := List.nodup_nil
  issued _ h := (List.not_mem_nil h).elim
  known _ h := by cases h
  transfers := ⟨.nil, List.nil_subperm⟩
  entries := ⟨.nil, List.nil_subperm⟩

theorem Kept.known_draw (h : r.Kept) {id : Int} (hid : r.Known id) : r.draw.Known id := by
  refine ⟨List.mem_append_left _ hid.1, ?_⟩
  intro hdrawn
  rcases List.mem_append.1 hdrawn with hdrawn | hnext
  · exact hid.2 hdrawn
  · obtain rfl := List.mem_singleton.1 hnext
    have := h.accounts.range _ hid.1
    omega

theorem Known.put {id : Int} (hid : r.Known id) (a : Account) (now : Instant) : (r.put a now).Known id := by
  unfold Registry.put
  split
  · exact ⟨hid.1, fun hdrawn => hid.2 (List.mem_of_mem_erase hdrawn)⟩
  · exact hid

theorem Kept.draw (h : r.Kept) : r.draw.Kept where
  sound := h.sound.ofTxs rfl h.sound.sorted
  accounts := h.accounts.snoc
  drawn := by
    refine h.drawn.append (List.nodup_singleton _) ?_
    intro id hid hnext
    obtain rfl := List.mem_singleton.1 hnext
    have := h.accounts.range _ (h.issued _ hid)
    omega
  issued id hid := by
    rcases List.mem_append.1 hid with hid | hid
    · exact List.mem_append_left _ (h.issued id hid)
    · exact List.mem_append_right _ hid
  known row hrow := h.known_draw (h.known row hrow)
  transfers := h.transfers.drawAccount
  entries := h.entries.drawAccount

theorem Kept.put (h : r.Kept) (a : Account) (now : Instant) : (r.put a now).Kept := by
  by_cases ha : a.id ∈ r.drawn
  · obtain ⟨opening, hentries, hadds⟩ := Store.putAccount_entries h.sound.sorted a now
    rw [put_eq r ha hentries]
    have hnothing : Journal.transfers.Adds r.store.next (r.store.putAccount a now).next [] [] :=
      .none (Store.putAccount_nextTransfer ..)
    have htransfers := h.transfers.append ((Store.putAccount_transfers ..).trans (List.append_nil _).symm)
      (Store.putAccount_txs ..) hnothing
    rw [List.append_nil] at htransfers
    exact {
      sound := h.sound.ofTxs (Store.putAccount_txs ..) (by rw [Store.putAccount_accounts]; exact h.sound.sorted.put a)
      accounts := by
        show Counted _ (r.store.putAccount a now).next.account
        rw [Store.putAccount_nextAccount]
        exact h.accounts
      drawn := h.drawn.erase _
      issued := fun id hid => h.issued id (List.mem_of_mem_erase hid)
      known := by
        intro row hrow
        have hrow : (r.store.putAccount a now).tables.accounts.has row = true := hrow
        rw [Store.putAccount_accounts, Rows.has_put h.sound.sorted, Bool.or_eq_true, decide_eq_true_iff] at hrow
        rcases hrow with rfl | hrow
        · exact ⟨h.issued _ ha, h.drawn.not_mem_erase⟩
        · obtain ⟨hgiven, hput⟩ := h.known row hrow
          exact ⟨hgiven, fun hdrawn => hput (List.mem_of_mem_erase hdrawn)⟩
      transfers := htransfers
      entries := h.entries.append hentries (Store.putAccount_txs ..) hadds }
  · rw [put_of_not_drawn r ha]
    exact h

theorem Kept.step (h : r.Kept) {st : Store.Step} (hst : ¬ st.Opens) : (r.step st).Kept where
  sound := h.sound.step st
  accounts := by
    show Counted _ (r.store.step st).next.account
    rw [Store.nextAccount_step h.sound hst]
    exact h.accounts
  drawn := h.drawn
  issued := h.issued
  known row hrow := by
    by_cases hclear : st = .operation .clear
    · subst hclear
      cases hrow
    · exact h.known row (by rwa [← h.sound.has_step hst hclear])
  transfers := h.transfers.step h.sound hst
  entries := h.entries.step h.sound hst

theorem Kept.act (h : r.Kept) (a : Act) : (r.act a).Kept := by
  cases a with
  | draw => exact h.draw
  | put a now => exact h.put a now
  | step st =>
    by_cases hst : st.Opens
    · obtain ⟨owner, currency, balance, now, rfl⟩ := hst
      exact h.draw.put _ now
    · rw [act_step r hst]
      exact h.step hst

theorem Kept.run (h : r.Kept) (acts : List Act) : (r.run acts).Kept := by
  induction acts generalizing r with
  | nil => exact h
  | cons a acts ih => exact ih (h.act a)

theorem kept_run (acts : List Act) : (({} : Registry).run acts).Kept := kept_empty.run acts

/-- Whoever waits has an open transaction. -/
theorem Kept.line_act (h : r.Kept) (hline : ∀ q ∈ r.store.waiting, ∃ x, r.store.tx? q.owner = some x) (a : Act) :
    ∀ q ∈ (r.act a).store.waiting, ∃ x, (r.act a).store.tx? q.owner = some x := by
  cases a with
  | draw => exact hline
  | put a now =>
    by_cases ha : a.id ∈ r.drawn
    · rw [Registry.act, put_store r ha, Store.putAccount_waiting]
      intro q hq
      rw [Store.tx?_of_txs (Store.putAccount_txs ..)]
      exact hline q hq
    · rw [Registry.act, put_of_not_drawn r ha]
      exact hline
  | step st =>
    rw [act_store r h.sound]
    exact Store.step_line h.sound hline st

/-- Whatever was done, when no transaction is open the store is at rest. -/
theorem idle_run (acts : List Act) {s : Store} (hstore : s = (({} : Registry).run acts).store) (htxs : s.txs = []) :
    s.Idle := by
  subst hstore
  have hline : ∀ r : Registry, r.Kept → (∀ q ∈ r.store.waiting, ∃ x, r.store.tx? q.owner = some x) →
      ∀ q ∈ (r.run acts).store.waiting, ∃ x, (r.run acts).store.tx? q.owner = some x := by
    clear htxs
    induction acts with
    | nil => exact fun _ _ hline => hline
    | cons a acts ih => exact fun r h hline => ih (r.act a) (h.act a) (h.line_act hline a)
  exact Store.idle_of_line (kept_run acts).sound (hline {} kept_empty fun _ hq => (List.not_mem_nil hq).elim) htxs

/-- What somebody does to the tables: accounts are opened, in one act or in two, the tables are
    emptied, or a transaction is published. -/
inductive Act.Writes (s : Store) : Act → Prop
  | opening (owner currency : String) (balance : Int) (now : Instant) :
      Writes s (.step (.operation (.createAccount owner currency balance now)))
  | putting (a : Account) (now : Instant) : Writes s (.put a now)
  | emptying : Writes s (.step (.operation .clear))
  | publishing {o : Nat} : (s.commit o).1 = .ok () → Writes s (.step (.operation (.commit o)))

/-- Nobody else changes the tables. -/
theorem Kept.tables_act (h : r.Kept) {a : Act} (ha : ¬ a.Writes r.store) :
    (r.act a).store.tables = r.store.tables := by
  have hs := h.sound
  cases a with
  | draw => rfl
  | put a now => exact absurd (.putting a now) ha
  | step st =>
    have hst : ¬ st.Opens := by
      rintro ⟨owner, currency, balance, now, rfl⟩
      exact ha (.opening ..)
    show (r.act (.step st)).store.tables = _
    rw [act_step _ hst]
    have hstepped := Store.stepped hs st
    show (r.store.step st).tables = _
    cases st with
    | operation op =>
      cases op with
      | createAccount owner currency balance now => exact absurd (.opening ..) ha
      | clear => exact absurd .emptying ha
      | commit o =>
        rcases hc : r.store.commit o with ⟨result, s'⟩
        have herror : result ≠ .ok () := by
          intro heq
          subst heq
          exact ha (.publishing (by rw [hc]))
        show (r.store.commit o).2.tables = _
        cases result with
        | ok _ => exact absurd rfl herror
        | error e => rcases Store.commit_error hc with hs' | hs' <;> rw [hc, hs']; rfl
      | _ => exact Store.apply_tables hs _ rfl (by simp)
    | _ => exact (hstepped.parts (by simp)).1

/-- What got an id is never taken out of the registry. -/
theorem grows_act (r : Registry) (a : Act) :
    r.accounts <+: (r.act a).accounts ∧ r.transfers <+: (r.act a).transfers ∧ r.entries <+: (r.act a).entries := by
  have hput (r : Registry) (a : Account) (now : Instant) : (r.put a now).accounts = r.accounts ∧
      (r.put a now).transfers = r.transfers ∧ r.entries <+: (r.put a now).entries := by
    unfold put
    split
    · exact ⟨rfl, rfl, List.prefix_append _ _⟩
    · exact ⟨rfl, rfl, List.prefix_refl _⟩
  cases a with
  | draw => exact ⟨List.prefix_append _ _, List.prefix_refl _, List.prefix_refl _⟩
  | put a now =>
    obtain ⟨haccounts, htransfers, hentries⟩ := hput r a now
    rw [act, haccounts, htransfers]
    exact ⟨List.prefix_refl _, List.prefix_refl _, hentries⟩
  | step st =>
    by_cases hst : st.Opens
    · obtain ⟨owner, currency, balance, now, rfl⟩ := hst
      obtain ⟨haccounts, htransfers, hentries⟩ := hput r.draw ⟨r.store.next.account, owner, currency, balance, now⟩ now
      rw [act, haccounts, htransfers]
      exact ⟨List.prefix_append _ _, List.prefix_refl _, hentries⟩
    · rw [act_step r hst]
      exact ⟨List.prefix_refl _, List.prefix_append _ _, List.prefix_append _ _⟩

theorem grows_run (r : Registry) (acts : List Act) : r.accounts <+: (r.run acts).accounts ∧
    r.transfers <+: (r.run acts).transfers ∧ r.entries <+: (r.run acts).entries := by
  induction acts generalizing r with
  | nil => exact ⟨List.prefix_refl _, List.prefix_refl _, List.prefix_refl _⟩
  | cons a acts ih =>
    obtain ⟨haccounts, htransfers, hentries⟩ := r.grows_act a
    obtain ⟨haccounts', htransfers', hentries'⟩ := ih (r.act a)
    exact ⟨haccounts.trans haccounts', htransfers.trans htransfers', hentries.trans hentries'⟩

/-- Ids are given in ascending order. -/
theorem Kept.next_le_act (h : r.Kept) (a : Act) : r.store.next.transfer ≤ (r.act a).store.next.transfer ∧
    r.store.next.entry ≤ (r.act a).store.next.entry := by
  obtain ⟨-, htransfers, hentries⟩ := r.grows_act a
  have hlen := htransfers.length_le
  have hlen' := hentries.length_le
  have htransfer : r.store.next.transfer = _ := h.transfers.counted.next_eq
  have htransfer' : (r.act a).store.next.transfer = _ := (h.act a).transfers.counted.next_eq
  have hentry : r.store.next.entry = _ := h.entries.counted.next_eq
  have hentry' : (r.act a).store.next.entry = _ := (h.act a).entries.counted.next_eq
  simp only [List.length_map] at htransfer htransfer' hentry hentry'
  omega

end Registry

/-- Where ids are unique, a transfer is found by its id. -/
theorem Store.transfer?_eq_some_iff {s : Store} (h : (s.tables.transfers.map (·.id)).Nodup) {id : Int} {t : Transfer} :
    s.transfer? id = some t ↔ t ∈ s.tables.transfers ∧ t.id = id := by
  constructor
  · intro ht
    exact ⟨List.mem_of_find?_eq_some ht, by simpa using List.find?_some ht⟩
  · intro ⟨hmem, hid⟩
    cases hfound : s.transfer? id with
    | none => exact absurd hid (by simpa using List.find?_eq_none.1 hfound t hmem)
    | some t' =>
      have hid' : t'.id = id := by simpa using List.find?_some hfound
      rw [List.inj_on_of_nodup_map h (List.mem_of_find?_eq_some hfound) hmem (hid'.trans hid.symm)]

namespace Registry

/-- Whatever was done since the store was empty:
    1. the ids of accounts, of transfers and of entries that were ever given are the numbers
       below their counters, each given once;
    2. as long as a counter of 64 bits has not run out, it holds the next one;
    3. a row of an account has an id that was given for it, and is the only one;
    4. a transfer that is committed, or staged by an open transaction, got its id, and no two
       of them share one; and so it is with entries;
    5. accounts are listed in ascending order of ids, and reading a transfer by its id gives
       just the committed transfer of this id;
    6. and what got an id stays in the registry, so that no id is given again. -/
theorem numbering_run (acts : List Act) :
    let r := ({} : Registry).run acts
    let s := r.store
    (Counted r.accounts s.next.account ∧ Counted (r.transfers.map (·.id)) s.next.transfer ∧
      Counted (r.entries.map (·.id)) s.next.entry) ∧
    (((r.accounts.length : Int) < Amount.greatest → Amount.Fits s.next.account) ∧
      ((r.transfers.length : Int) < Amount.greatest → Amount.Fits s.next.transfer) ∧
      ((r.entries.length : Int) < Amount.greatest → Amount.Fits s.next.entry)) ∧
    (∀ a ∈ s.tables.accounts, a.id ∈ r.accounts ∧ a.id ∉ r.drawn) ∧
    ((s.tables.transfers ++ s.txs.flatMap (·.transfers)).Subperm r.transfers ∧
      ((s.tables.transfers ++ s.txs.flatMap (·.transfers)).map (·.id)).Nodup) ∧
    ((s.tables.entries ++ s.txs.flatMap (·.entries)).Subperm r.entries ∧
      ((s.tables.entries ++ s.txs.flatMap (·.entries)).map (·.id)).Nodup) ∧
    s.tables.accounts.Pairwise (·.id < ·.id) ∧
    (∀ id t, s.transfer? id = some t ↔ t ∈ s.tables.transfers ∧ t.id = id) ∧
    ∀ later, r.accounts <+: (r.run later).accounts ∧ r.transfers <+: (r.run later).transfers ∧
      r.entries <+: (r.run later).entries := by
  intro r s
  have h : r.Kept := kept_run acts
  have hcommitted : (s.tables.transfers.map (·.id)).Nodup := by
    have hall : ((s.tables.transfers ++ Journal.transfers.staged s).map (·.id)).Nodup := h.transfers.nodup
    rw [List.map_append] at hall
    exact hall.of_append_left
  refine ⟨⟨h.accounts, h.transfers.counted, h.entries.counted⟩, ⟨h.accounts.fits, ?_, ?_⟩, ?_,
    ⟨h.transfers.once, h.transfers.nodup⟩, ⟨h.entries.once, h.entries.nodup⟩, h.sound.sorted,
    fun id t => Store.transfer?_eq_some_iff hcommitted, r.grows_run⟩
  · intro hlen
    exact h.transfers.counted.fits (by rwa [List.length_map])
  · intro hlen
    exact h.entries.counted.fits (by rwa [List.length_map])
  · intro a ha
    exact h.known a.id (Rows.has_of_mem ha)

end Registry

end Giro
