import Giro.Proofs.Registry

/-
  Giro.Proofs.Publication — what the tables show of a transaction, and when.

  A chronicle is a registry with the transcript of each open transaction next to it. What
  the transaction has staged can be read off the transcript (`Stages`, kept by every act):
  the balances that it wrote last and the records it was given, in this order. A commit
  that succeeds makes just this of the tables, in one step (`Stages.publish`). Opening an
  account, emptying and such a commit are all that changes the tables, so while they are
  not emptied they only grow (`Tables.Grows`).

  This is also why a call that stages a record may be one step, although it looks for the
  accounts first and draws the id later: an account that was seen is still there, so the
  call is as good as made at one of these moments (`Kept.insertTransfer_in_parts`,
  `Kept.insertEntry_in_parts`). Emptying the tables after the looks is like emptying them
  after the call (`Store.insertTransferInParts_clear`, `Store.insertEntryInParts_clear`).

  Main statement: `publishing_run`.
-/

namespace Giro

/-! ## Tables that grow -/

/-- Records are appended, and of an account that is there the balance alone changes. -/
structure Tables.Grows (t t' : Tables) : Prop where
  transfers : t.transfers <+: t'.transfers
  entries : t.entries <+: t'.entries
  accounts : ∀ id a, t.accounts.find? id = some a → ∃ balance, t'.accounts.find? id = some { a with balance }

namespace Tables.Grows

theorem refl (t : Tables) : t.Grows t where
  transfers := List.prefix_refl _
  entries := List.prefix_refl _
  accounts _ a ha := ⟨a.balance, ha⟩

theorem trans {t t' t'' : Tables} (h : t.Grows t') (h' : t'.Grows t'') : t.Grows t'' where
  transfers := h.transfers.trans h'.transfers
  entries := h.entries.trans h'.entries
  accounts id a ha := by
    obtain ⟨balance, ha'⟩ := h.accounts id a ha
    exact h'.accounts id { a with balance } ha'

theorem has {t t' : Tables} (h : t.Grows t') {id : Int} (hid : t.accounts.has id = true) :
    t'.accounts.has id = true := by
  obtain ⟨a, ha⟩ := Option.isSome_iff_exists.1 hid
  obtain ⟨balance, ha'⟩ := h.accounts id a ha
  exact Rows.has_of_find? ha'

end Tables.Grows

/-! ## Calls in parts

A call that stages a record looks for the accounts that it names, and draws the id after
that. The tables are free between one look and the next, and before the id is drawn. -/

namespace Store

variable {s : Store}

/-- Stages a transfer whose accounts were seen. -/
def recordTransfer (s : Store) (x : Transaction) (order : TransferOrder) (now : Instant) : Outcome Transfer × Store :=
  if order.amount ≤ 0 then (.error (.storage (.amountNotPositive order.amount)), s)
  else
    let t : Transfer := ⟨s.next.transfer, order.source, order.destination, order.amount, now⟩
    (.ok t, { s.setTx { x with transfers := x.transfers ++ [t] } with next.transfer := s.next.transfer + 1 })

/-- Stages an entry whose account was seen. -/
def recordEntry (s : Store) (x : Transaction) (account amount : Int) (now : Instant) : Outcome Entry × Store :=
  let e : Entry := ⟨s.next.entry, account, amount, now⟩
  (.ok e, { s.setTx { x with entries := x.entries ++ [e] } with next.entry := s.next.entry + 1 })

/-- The source is looked for in `s`, the destination in `s'`, and the record is made in `s''`. -/
def insertTransferInParts (s s' s'' : Store) (x : Transaction) (order : TransferOrder) (now : Instant) :
    Outcome Transfer × Store :=
  if !s.tables.accounts.has order.source then (.error (.accountNotFound order.source), s)
  else if !s'.tables.accounts.has order.destination then (.error (.accountNotFound order.destination), s')
  else s''.recordTransfer x order now

/-- The account is looked for in `s`, and the record is made in `s'`. -/
def insertEntryInParts (s s' : Store) (x : Transaction) (account amount : Int) (now : Instant) :
    Outcome Entry × Store :=
  if !s.tables.accounts.has account then (.error (.accountNotFound account), s)
  else s'.recordEntry x account amount now

theorem insertTransfer_of_has (x : Transaction) {order : TransferOrder} (now : Instant)
    (hsource : s.tables.accounts.has order.source = true)
    (hdestination : s.tables.accounts.has order.destination = true) :
    s.insertTransfer x order now = s.recordTransfer x order now := by
  rw [insertTransfer, if_neg (by simpa using hsource), if_neg (by simpa using hdestination)]
  rfl

theorem insertEntry_of_has (x : Transaction) {account : Int} (amount : Int) (now : Instant)
    (haccount : s.tables.accounts.has account = true) :
    s.insertEntry x account amount now = s.recordEntry x account amount now := by
  rw [insertEntry, if_neg (by simpa using haccount)]
  rfl

/-- When the tables are emptied after the looks, it is as if they were emptied after the call. -/
theorem insertTransferInParts_clear (x : Transaction) {order : TransferOrder} (now : Instant)
    (hsource : s.tables.accounts.has order.source = true)
    (hdestination : s.tables.accounts.has order.destination = true) :
    insertTransferInParts s s s.clear x order now =
      ((s.insertTransfer x order now).1, (s.insertTransfer x order now).2.clear) := by
  rw [insertTransferInParts, if_neg (by simpa using hsource), if_neg (by simpa using hdestination),
    insertTransfer_of_has x now hsource hdestination]
  unfold recordTransfer
  split <;> rfl

theorem insertEntryInParts_clear (x : Transaction) {account : Int} (amount : Int) (now : Instant)
    (haccount : s.tables.accounts.has account = true) :
    insertEntryInParts s s.clear x account amount now =
      ((s.insertEntry x account amount now).1, (s.insertEntry x account amount now).2.clear) := by
  rw [insertEntryInParts, if_neg (by simpa using haccount), insertEntry_of_has x amount now haccount]
  rfl

end Store

/-- A transcript changes the balance of an account at most. -/
theorem Transcript.leave_balance (l : Transcript) (a : Account) : ∃ balance, l.leave a = { a with balance } := by
  induction l generalizing a with
  | nil => exact ⟨a.balance, rfl⟩
  | cons e l ih =>
    have hstep : ∃ balance, e.leave a = { a with balance } := by
      rw [Exchange.leave_eq]
      split
      · cases e.call with
        | update _ balance => exact ⟨balance, rfl⟩
        | _ => exact ⟨a.balance, rfl⟩
      · exact ⟨a.balance, rfl⟩
    obtain ⟨balance, hstep⟩ := hstep
    show ∃ balance, Transcript.leave l (e.leave a) = _
    rw [hstep]
    exact ih { a with balance }

/-! ## What a transcript stages -/

/-- A transaction with the transcript `l` has staged `d`: of accounts that are still there the
    balances that it wrote last, and the records that it was given. -/
structure Stages (r : Registry) (l : Transcript) (d : Tables) : Prop where
  known : ∀ row, d.accounts.has row = true → r.Known row
  untouched : ∀ a, d.accounts.find? a.id = none → l.leave a = a
  written : ∀ a b, r.store.tables.accounts.find? a.id = some a → d.accounts.find? a.id = some b → b = l.leave a
  transfers : d.transfers = l.transfers
  entries : d.entries = l.entries

namespace Stages

variable {r r' : Registry} {l : Transcript} {d : Tables}

theorem nil (r : Registry) : Stages r [] {} where
  known _ h := by cases h
  untouched _ _ := rfl
  written _ _ _ h := by cases h
  transfers := rfl
  entries := rfl

/-- The rows may change where nothing is staged, and a staged row may go but not come back. -/
theorem frame (h : Stages r l d) (hknown : ∀ row, r.Known row → r'.Known row)
    (hfind : ∀ row, d.accounts.has row = true → ∀ a, r'.store.tables.accounts.find? row = some a →
      r.store.tables.accounts.find? row = some a) : Stages r' l d where
  known row hrow := hknown row (h.known row hrow)
  untouched := h.untouched
  written a b ha hb := h.written a b (hfind a.id (Rows.has_of_find? hb) a ha) hb
  transfers := h.transfers
  entries := h.entries

theorem snoc (h : Stages r l d) (hr : r.Kept) (hd : d.accounts.Sorted) (c : Call) (id : Int) (now : Instant) :
    Stages r (l ++ [⟨c, (d.answer r.store.tables.accounts id now c).1⟩])
      (d.answer r.store.tables.accounts id now c).2 where
  known row hrow := by
    rcases Tables.has_of_has_answer hd hrow with hst | ⟨-, hhas⟩
    · exact h.known row hst
    · exact hr.known row hhas
  untouched a ha := by
    have hst : d.accounts.find? a.id = none := by
      cases hst : d.accounts.find? a.id with
      | none => rfl
      | some b =>
        have hhas : (d.answer r.store.tables.accounts id now c).2.accounts.has a.id = true :=
          Tables.has_answer hd (Rows.has_of_find? hst)
        rw [Rows.has, ha] at hhas
        cases hhas
    rw [Transcript.leave_append, h.untouched a hst]
    show Exchange.leave a _ = a
    rw [Exchange.leave_eq, if_neg]
    rintro ⟨hc, hok⟩
    have hhas := Tables.has_of_answer_ok hd hc hok
    rw [Rows.has, ha] at hhas
    cases hhas
  written a b ha hb := by
    have hseen : d.look r.store.tables.accounts a.id = some (l.leave a) := by
      unfold Tables.look
      cases hst : d.accounts.find? a.id with
      | none => rw [h.untouched a hst, Option.none_or, ha]
      | some b => rw [h.written a b ha hst, Option.some_or]
    rw [Transcript.leave_append]
    show b = Exchange.leave (l.leave a) _
    rw [Exchange.leave_eq, Transcript.leave_id]
    rw [Tables.find?_answer hd] at hb
    split at hb
    · rename_i hc
      rw [hseen] at hb
      rcases Tables.answer_of_row? d r.store.tables.accounts id now hc with ⟨hl, -, -⟩ | ⟨-, -, hok, -⟩
      · rw [hseen] at hl
        cases hl
      · rw [if_pos ⟨hc, hok⟩]
        exact (Option.some.inj hb).symm
    · rename_i hc
      rw [if_neg fun hboth => hc hboth.1]
      exact h.written a b ha hb
  transfers := by rw [Tables.answer_transfers, h.transfers, Transcript.transfers_snoc]
  entries := by rw [Tables.answer_entries, h.entries, Transcript.entries_snoc]

/-- Publishing gives each account the balance that was written last, and adds the records. -/
theorem publish {x : Transaction} (h : Stages r l x.draft) (hr : r.Kept) (hd : x.accounts.Sorted)
    (hthere : ∀ a ∈ x.accounts, r.store.tables.accounts.has a.id = true) :
    r.store.tables.publish x = ⟨r.store.tables.accounts.map l.leave, r.store.tables.transfers ++ l.transfers,
      r.store.tables.entries ++ l.entries⟩ := by
  have hsorted := hr.sound.sorted
  have haccounts : Rows.putAll x.accounts r.store.tables.accounts = r.store.tables.accounts.map l.leave := by
    refine (hsorted.putAll _).ext (hsorted.map l.leave_id) ?_
    intro id
    rw [Rows.find?_map l.leave_id, Rows.find?_putAll hd hsorted]
    cases hst : x.accounts.find? id with
    | none =>
      rw [Option.none_or]
      cases ha : r.store.tables.accounts.find? id with
      | none => rfl
      | some a =>
        have hid : a.id = id := Rows.id_of_find? ha
        rw [Option.map_some, h.untouched a (by rw [hid]; exact hst)]
    | some b =>
      rw [Option.some_or]
      obtain ⟨a, ha⟩ : ∃ a, r.store.tables.accounts.find? id = some a := by
        have hhas := hthere b (Rows.mem_of_find? hst)
        rw [Rows.id_of_find? hst] at hhas
        exact Option.isSome_iff_exists.1 hhas
      have hid : a.id = id := Rows.id_of_find? ha
      rw [ha, Option.map_some, h.written a b (by rw [hid]; exact ha) (by rw [hid]; exact hst)]
  have htransfers : x.transfers = l.transfers := h.transfers
  have hentries : x.entries = l.entries := h.entries
  rw [Tables.publish, haccounts, htransfers, hentries]

end Stages

/-! ## The chronicle -/

/-- A registry with what each open transaction was asked and answered so far. -/
structure Chronicle where
  registry : Registry := {}
  logs : Nat → Transcript := fun _ => []

namespace Chronicle

def watch (c : Chronicle) : Watch := { store := c.registry.store, logs := c.logs }

def act (c : Chronicle) (a : Registry.Act) : Chronicle where
  registry := c.registry.act a
  logs := match a with
    | .step (.operation op) => (c.watch.apply op).logs
    | _ => c.logs

def run (c : Chronicle) (acts : List Registry.Act) : Chronicle := acts.foldl act c

variable {c : Chronicle}

/-- What every act keeps. -/
structure Kept (c : Chronicle) : Prop where
  registry : c.registry.Kept
  stages {o : Nat} {x : Transaction} : c.registry.store.tx? o = some x → Stages c.registry (c.logs o) x.draft

theorem Kept.draw (h : c.Kept) : Kept { c with registry := c.registry.draw } where
  registry := h.registry.draw
  stages hx := (h.stages hx).frame (fun _ => h.registry.known_draw) fun _ _ _ ha => ha

/-- The account that is put was not there before, and so nobody has staged it. -/
theorem Kept.put (h : c.Kept) (a : Account) (now : Instant) : Kept { c with registry := c.registry.put a now } where
  registry := h.registry.put a now
  stages {o x} hx := by
    by_cases ha : a.id ∈ c.registry.drawn
    · have hstore := c.registry.put_store ha now
      show Stages (c.registry.put a now) (c.logs o) x.draft
      have hx : (c.registry.put a now).store.tx? o = some x := hx
      rw [hstore, Store.tx?_of_txs (Store.putAccount_txs ..)] at hx
      have hstages := h.stages hx
      refine hstages.frame (fun _ hid => hid.put a now) ?_
      intro row hrow b hb
      have hne : row ≠ a.id := by
        intro heq
        subst heq
        exact (hstages.known a.id hrow).2 ha
      rwa [hstore, Store.putAccount_accounts, Rows.find?_put h.registry.sound.sorted, if_neg hne] at hb
    · have hsame := c.registry.put_of_not_drawn ha now
      show Stages (c.registry.put a now) (c.logs o) x.draft
      rw [hsame]
      exact h.stages (hsame ▸ hx)

theorem Kept.step (h : c.Kept) {st : Store.Step} (hst : ¬ st.Opens) : (c.act (.step st)).Kept := by
  have hs := h.registry.sound
  have hact : c.registry.act (.step st) = c.registry.step st := Registry.act_step _ hst
  refine ⟨h.registry.act _, ?_⟩
  intro o x hx
  have hx : (c.registry.act (.step st)).store.tx? o = some x := hx
  show Stages (c.registry.act (.step st)) ((c.act (.step st)).logs o) x.draft
  rw [hact] at hx ⊢
  have hframe {l : Transcript} {d : Tables} (hstages : Stages c.registry l d)
      (hfind : ∀ row, d.accounts.has row = true → ∀ a, (c.registry.store.step st).tables.accounts.find? row = some a →
        c.registry.store.tables.accounts.find? row = some a) : Stages (c.registry.step st) l d :=
    hstages.frame (fun _ hid => hid) hfind
  have hstepped := Store.stepped hs st
  cases st with
  | operation op =>
    show Stages _ ((c.watch.apply op).logs o) x.draft
    cases c.watch.origin hs op hx with
    | opened _ hx₀ hlog => rw [hlog, hx₀]; exact .nil _
    | @asked y c' id now r _ hy ha hlog =>
      have hnew := (h.stages hy).snoc h.registry (hs.drafts hy) c' id now
      have hanswer : y.draft.answer c.registry.store.tables.accounts id now c' = (r, x.draft) := ha.answer
      rw [hanswer] at hnew
      rw [hlog]
      refine hframe hnew ?_
      intro row _ a ha'
      have htables : (c.registry.store.apply op).tables = c.registry.store.tables := ha.tables
      rwa [Store.step, htables] at ha'
    | stayed hp hlog hother =>
      rw [hlog]
      have hstages := h.stages hp
      refine hframe hstages ?_
      intro row hrow a ha
      have hlt := (h.registry.accounts.range row (hstages.known row hrow).1).2
      exact hs.find?_of_apply hp hother hrow hlt ha
  | seek p row | lock p row =>
    obtain ⟨htables, -, htxs⟩ := hstepped.parts (by simp)
    obtain ⟨y, hy, hkeeps⟩ := Store.tx?_of_keeps htxs hx
    rw [hkeeps.draft]
    refine hframe (h.stages hy) ?_
    intro row _ a ha
    rwa [htables] at ha

theorem Kept.act (h : c.Kept) (a : Registry.Act) : (c.act a).Kept := by
  cases a with
  | draw => exact h.draw
  | put a now => exact h.put a now
  | step st =>
    by_cases hst : st.Opens
    · obtain ⟨owner, currency, balance, now, rfl⟩ := hst
      exact h.draw.put _ now
    · exact h.step hst

theorem Kept.run (h : c.Kept) (acts : List Registry.Act) : (c.run acts).Kept := by
  induction acts generalizing c with
  | nil => exact h
  | cons a acts ih => exact ih (h.act a)

theorem kept_empty : Kept {} where
  registry := Registry.kept_empty
  stages hx := by cases hx

theorem kept_run (acts : List Registry.Act) : (({} : Chronicle).run acts).Kept := kept_empty.run acts

/-! ## What an act makes of the tables -/

/-- What a commit that succeeds makes of the tables. -/
theorem Kept.commit (h : c.Kept) {o : Nat} (hok : (c.registry.store.commit o).1 = .ok ()) :
    (c.registry.store.commit o).2.tables = ⟨c.registry.store.tables.accounts.map (c.logs o).leave,
      c.registry.store.tables.transfers ++ (c.logs o).transfers,
      c.registry.store.tables.entries ++ (c.logs o).entries⟩ := by
  rcases hc : c.registry.store.commit o with ⟨r, s'⟩
  rw [hc] at hok
  subst hok
  obtain ⟨x, hx, hthere, rfl⟩ := Store.commit_ok hc
  exact (h.stages hx).publish h.registry (h.registry.sound.drafts hx) hthere

theorem Kept.grows_put (h : c.Kept) (a : Account) (now : Instant) :
    c.registry.store.tables.Grows (c.registry.put a now).store.tables := by
  by_cases ha : a.id ∈ c.registry.drawn
  · obtain ⟨opening, hentries, -⟩ := Store.putAccount_entries h.registry.sound.sorted a now
    rw [c.registry.put_store ha]
    refine ⟨?_, ?_, ?_⟩
    · rw [Store.putAccount_transfers]
    · rw [hentries]
      exact List.prefix_append _ _
    · intro id b hb
      have hne : id ≠ a.id := by
        intro heq
        subst heq
        exact (h.registry.known _ (Rows.has_of_find? hb)).2 ha
      refine ⟨b.balance, ?_⟩
      rw [Store.putAccount_accounts, Rows.find?_put h.registry.sound.sorted, if_neg hne, hb]
  · rw [c.registry.put_of_not_drawn ha]
    exact .refl _

theorem Kept.grows_commit (h : c.Kept) {o : Nat} (hok : (c.registry.store.commit o).1 = .ok ()) :
    c.registry.store.tables.Grows (c.registry.store.commit o).2.tables := by
  rw [h.commit hok]
  refine ⟨List.prefix_append _ _, List.prefix_append _ _, ?_⟩
  intro id a ha
  obtain ⟨balance, hleave⟩ := (c.logs o).leave_balance a
  refine ⟨balance, ?_⟩
  rw [Rows.find?_map (c.logs o).leave_id, ha, Option.map_some, hleave]

theorem Kept.grows_act (h : c.Kept) {a : Registry.Act} (ha : a ≠ .step (.operation .clear)) :
    c.registry.store.tables.Grows (c.act a).registry.store.tables := by
  by_cases hwrites : a.Writes c.registry.store
  · cases hwrites with
    | opening owner currency balance now => exact h.draw.grows_put _ now
    | putting a now => exact h.grows_put a now
    | emptying => exact absurd rfl ha
    | publishing hok => exact h.grows_commit hok
  · rw [show (c.act a).registry.store.tables = c.registry.store.tables from h.registry.tables_act hwrites]
    exact .refl _

theorem Kept.grows_run (h : c.Kept) {acts : List Registry.Act} (hacts : .step (.operation .clear) ∉ acts) :
    c.registry.store.tables.Grows (c.run acts).registry.store.tables := by
  induction acts generalizing c with
  | nil => exact .refl _
  | cons a acts ih =>
    rw [List.mem_cons, not_or] at hacts
    exact (h.grows_act (Ne.symm hacts.1)).trans (ih (h.act a) hacts.2)

/-- Staging a transfer looks for its source, then for its destination and then draws an id. Others
    may act in between: as long as they do not empty the tables, it is as if the call had been
    made at one of these moments. -/
theorem Kept.insertTransfer_in_parts (h : c.Kept) {acts acts' : List Registry.Act}
    (hacts : .step (.operation .clear) ∉ acts) (hacts' : .step (.operation .clear) ∉ acts') (x : Transaction)
    (order : TransferOrder) (now : Instant) :
    let s := c.registry.store
    let s' := (c.run acts).registry.store
    let s'' := ((c.run acts).run acts').registry.store
    ∃ t ∈ [s, s', s''], Store.insertTransferInParts s s' s'' x order now = t.insertTransfer x order now := by
  intro s s' s''
  have hgrows : s.tables.Grows s'.tables := h.grows_run hacts
  have hgrows' : s'.tables.Grows s''.tables := (h.run acts).grows_run hacts'
  unfold Store.insertTransferInParts
  split
  · rename_i hsource
    refine ⟨s, by simp, ?_⟩
    rw [Store.insertTransfer, if_pos hsource]
  · rename_i hsource
    have hsource : s.tables.accounts.has order.source = true := by simpa using hsource
    split
    · rename_i hdestination
      refine ⟨s', by simp, ?_⟩
      rw [Store.insertTransfer, if_neg (by simpa using hgrows.has hsource), if_pos hdestination]
    · rename_i hdestination
      have hdestination : s'.tables.accounts.has order.destination = true := by simpa using hdestination
      exact ⟨s'', by simp, (Store.insertTransfer_of_has x now ((hgrows.trans hgrows').has hsource)
        (hgrows'.has hdestination)).symm⟩

/-- Staging an entry looks once and then draws an id. -/
theorem Kept.insertEntry_in_parts (h : c.Kept) {acts : List Registry.Act} (hacts : .step (.operation .clear) ∉ acts)
    (x : Transaction) (account amount : Int) (now : Instant) :
    let s := c.registry.store
    let s' := (c.run acts).registry.store
    ∃ t ∈ [s, s'], Store.insertEntryInParts s s' x account amount now = t.insertEntry x account amount now := by
  intro s s'
  have hgrows : s.tables.Grows s'.tables := h.grows_run hacts
  unfold Store.insertEntryInParts
  split
  · rename_i haccount
    refine ⟨s, by simp, ?_⟩
    rw [Store.insertEntry, if_pos haccount]
  · rename_i haccount
    have haccount : s.tables.accounts.has account = true := by simpa using haccount
    exact ⟨s', by simp, (Store.insertEntry_of_has x amount now (hgrows.has haccount)).symm⟩

/-- Whatever was done since the store was empty, and whatever is done next:
    1. the tables change only by opening an account, by emptying and by a commit that succeeds;
    2. what a transaction has staged is what its transcript says: the records in the order
       that they were given, and of the accounts that are still there the balances that it
       wrote last;
    3. a commit that succeeds gives just these balances to the accounts and appends just these
       records, in one step;
    4. while the tables are not emptied, transfers and entries are appended to those that are
       there, and an account keeps all but its balance. -/
theorem publishing_run (acts : List Registry.Act) :
    let c := ({} : Chronicle).run acts
    let s := c.registry.store
    (∀ a, (c.act a).registry.store.tables ≠ s.tables → a.Writes s) ∧
    (∀ o x, s.tx? o = some x → x.transfers = (c.logs o).transfers ∧ x.entries = (c.logs o).entries ∧
      ∀ a ∈ s.tables.accounts, (c.logs o).leave a = (x.accounts.find? a.id).getD a) ∧
    (∀ o, (s.commit o).1 = .ok () → (c.act (.step (.operation (.commit o)))).registry.store.tables =
      ⟨s.tables.accounts.map (c.logs o).leave, s.tables.transfers ++ (c.logs o).transfers,
        s.tables.entries ++ (c.logs o).entries⟩) ∧
    ∀ later, .step (.operation .clear) ∉ later → s.tables.Grows (c.run later).registry.store.tables := by
  intro c s
  have h : c.Kept := kept_run acts
  refine ⟨?_, ?_, fun o => h.commit, fun later => h.grows_run⟩
  · intro a hchange
    by_contra hwrites
    exact hchange (h.registry.tables_act hwrites)
  · intro o x hx
    have hstages := h.stages hx
    refine ⟨hstages.transfers, hstages.entries, ?_⟩
    intro a ha
    cases hst : x.accounts.find? a.id with
    | none => exact hstages.untouched a hst
    | some b => exact (hstages.written a b (h.registry.sound.sorted.find?_of_mem ha) hst).symm

end Chronicle

end Giro
