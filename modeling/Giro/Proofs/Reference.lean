import Giro.Proofs.Registry

/-
  Giro.Proofs.Reference — which of the accounts that records name are there.

  A call that records something looks for the accounts it names, and the record is
  published later. No account goes but by emptying the tables, and none comes back. So a
  record names accounts that are there if and only if the tables were not emptied since it
  was made, which shows in its number (`Journal.Refers`, kept by every act).

  `Store.commit` looks for the accounts that the transaction read or changed and not for
  those that its records name: a record made before the tables were emptied is published
  after it (`commit_dangles`). Where the tables are emptied only while no record is staged,
  all accounts that records name are there.

  Main statement: `referents_run`.
-/

namespace Giro

namespace Journal

variable {α : Type} {J : Journal α} {r : Registry}

theorem mem_present_step [DecidableEq α] {s : Store} (hs : s.Sound) {st : Store.Step} (hst : ¬ st.Opens) {a : α}
    (ha : a ∈ J.present (s.step st)) : a ∈ J.present s ∨ a ∈ J.recorded s st := by
  have hcount := J.count_present_step hs hst a
  have hpos := List.count_pos_iff.2 ha
  by_cases hold : a ∈ J.present s
  · exact .inl hold
  · right
    rw [List.count_eq_zero_of_not_mem hold] at hcount
    exact List.count_pos_iff.1 (by omega)

theorem mem_present_clear {a : α} (ha : a ∈ J.present (r.step (.operation .clear)).store) : a ∈ J.staged r.store := by
  have hrows : J.present (r.step (.operation .clear)).store = J.rows {} ++ J.staged r.store := rfl
  rwa [hrows, J.rows_empty, List.nil_append] at ha

/-! ## What an act adds -/

/-- Records that stay, and records that are new, while no row goes and none of a known
    account comes. -/
structure Extends (J : Journal α) (r r' : Registry) (new : List α) : Prop where
  present : ∀ a ∈ J.present r'.store, a ∈ J.present r.store ∨ a ∈ new
  adds : J.Adds r.store.next r'.store.next r'.store.tables.accounts new
  since : r'.since = r.since
  known : ∀ id, r.Known id → r'.Known id ∧
    r'.store.tables.accounts.has id = r.store.tables.accounts.has id

theorem Extends.refl (J : Journal α) (r : Registry) : J.Extends r r [] where
  present _ ha := .inl ha
  adds := .none rfl
  since := rfl
  known _ hid := ⟨hid, rfl⟩

theorem Extends.trans {r' r'' : Registry} {new : List α} (h : J.Extends r r' []) (h' : J.Extends r' r'' new) :
    J.Extends r r'' new where
  present a ha := by
    rcases h'.present a ha with hold | ha
    · exact (h.present a hold).imp_right fun ha => (List.not_mem_nil ha).elim
    · exact .inr ha
  adds := by
    cases h.adds with
    | none hcounter =>
      cases h'.adds with
      | none hcounter' => exact .none (hcounter'.trans hcounter)
      | one hnumber hnamed hcounter' => exact .one (by rw [hnumber, hcounter]) hnamed (by rw [hcounter', hcounter])
  since := h'.since.trans h.since
  known id hid := by
    obtain ⟨hid', hhas⟩ := h.known id hid
    obtain ⟨hid'', hhas'⟩ := h'.known id hid'
    exact ⟨hid'', hhas'.trans hhas⟩

theorem extends_draw (hr : r.Kept) : J.Extends r r.draw [] where
  present _ ha := .inl ha
  adds := .none (J.counter_account ..)
  since := rfl
  known _ hid := ⟨hr.known_draw hid, rfl⟩

/-- The account that is put had no row before, and it gets all that is new. -/
theorem extends_put (hr : r.Kept) {a : Account} (ha : a.id ∈ r.drawn) {now : Instant} {new : List α}
    (hrows : J.rows (r.store.putAccount a now).tables = J.rows r.store.tables ++ new)
    (hadds : J.Adds r.store.next (r.store.putAccount a now).next (r.store.putAccount a now).tables.accounts new) :
    J.Extends r (r.put a now) new := by
  have hknown {id : Int} (hid : r.Known id) : (r.put a now).Known id := hid.put a now
  rw [Registry.put, if_pos ha] at hknown ⊢
  refine ⟨?_, hadds, rfl, ?_⟩
  · intro b hb
    simp only [Journal.present, staged, hrows, Store.putAccount_txs, List.mem_append] at hb ⊢
    tauto
  · intro id hid
    refine ⟨hknown hid, ?_⟩
    have hne : id ≠ a.id := by
      intro heq
      subst heq
      exact hid.2 ha
    show (r.store.putAccount a now).tables.accounts.has id = _
    rw [Store.putAccount_accounts, Rows.has_put hr.sound.sorted, decide_eq_false hne, Bool.false_or]

theorem extends_step [DecidableEq α] (hr : r.Kept) {st : Store.Step} (hst : ¬ st.Opens)
    (hclear : st ≠ .operation .clear) : J.Extends r (r.step st) (J.recorded r.store st) := by
  have hhas := hr.sound.has_step hst hclear
  refine ⟨fun a => J.mem_present_step hr.sound hst, ?_, r.step_since hclear, fun id hid => ⟨hid, hhas id⟩⟩
  show J.Adds _ (r.store.step st).next (r.store.step st).tables.accounts _
  have hadds := J.adds_step hr.sound hst
  generalize J.recorded r.store st = new at hadds ⊢
  cases hadds with
  | none hcounter => exact .none hcounter
  | one hnumber hnamed hcounter => exact .one hnumber (fun id hid => (hhas id).trans (hnamed id hid)) hcounter

/-! ## Invariants -/

variable (J)

/-- The records that are committed or staged name accounts that had a row. The row is still
    there if and only if the record got its number since the tables were emptied last. -/
structure Refers (r : Registry) : Prop where
  since : J.counter r.since ≤ J.counter r.store.next
  named : ∀ a ∈ J.present r.store, ∀ id ∈ J.accounts a, r.Known id
  there : ∀ a ∈ J.present r.store, ∀ id ∈ J.accounts a,
    r.store.tables.accounts.has id = true ↔ J.counter r.since ≤ J.number a

/-- All records that are committed or staged were made since the tables were emptied last. -/
def Recent (r : Registry) : Prop := ∀ a ∈ J.present r.store, J.counter r.since ≤ J.number a

variable {J} {r' : Registry} {new : List α}

theorem Refers.extend (h : J.Refers r) (hr' : r'.Kept) (hnew : J.Extends r r' new) : J.Refers r' := by
  have hle := h.since
  refine ⟨?_, ?_, ?_⟩
  · rw [hnew.since]
    exact hle.trans hnew.adds.le
  · intro a ha id hid
    rcases hnew.present a ha with hold | ha
    · exact (hnew.known id (h.named a hold id hid)).1
    · exact hr'.known id ((hnew.adds.mem ha).2 id hid)
  · intro a ha id hid
    rw [hnew.since]
    rcases hnew.present a ha with hold | ha
    · rw [(hnew.known id (h.named a hold id hid)).2]
      exact h.there a hold id hid
    · obtain ⟨hnumber, hnamed⟩ := hnew.adds.mem ha
      rw [hnumber]
      exact iff_of_true (hnamed id hid) hle

/-- Emptying takes all rows away, from the records that are staged too. -/
theorem Refers.clear {made : List α} (h : J.Refers r) (hmade : J.Filed r.store made) :
    J.Refers (r.step (.operation .clear)) := by
  have hold {a : α} (ha : a ∈ J.present (r.step (.operation .clear)).store) : a ∈ J.present r.store :=
    List.mem_append_right _ (J.mem_present_clear ha)
  refine ⟨Int.le_refl _, fun a ha => h.named a (hold ha), ?_⟩
  intro a ha id hid
  have hlt := hmade.number_lt (hold ha)
  refine iff_of_false (fun hhas => ?_) (Int.not_le.2 hlt)
  cases hhas

theorem Recent.extend (h : J.Recent r) (hr : J.Refers r) (hnew : J.Extends r r' new) : J.Recent r' := by
  intro a ha
  rw [hnew.since]
  rcases hnew.present a ha with hold | ha
  · exact h a hold
  · rw [(hnew.adds.mem ha).1]
    exact hr.since

theorem recent_clear (h : J.staged r.store = []) : J.Recent (r.step (.operation .clear)) := by
  intro a ha
  have hstaged : a ∈ J.staged r.store := J.mem_present_clear ha
  rw [h] at hstaged
  cases hstaged

end Journal

namespace Registry

variable {r : Registry}

/-- What every act keeps of transfers and of entries. -/
structure Referring (r : Registry) : Prop where
  kept : r.Kept
  transfers : Journal.transfers.Refers r
  entries : Journal.entries.Refers r

/-- What every act keeps as long as the tables are emptied only while no record is staged. -/
structure Settled (r : Registry) : Prop where
  transfers : Journal.transfers.Recent r
  entries : Journal.entries.Recent r

theorem extends_put (hr : r.Kept) (a : Account) (now : Instant) :
    (∃ new, Journal.transfers.Extends r (r.put a now) new) ∧ ∃ new, Journal.entries.Extends r (r.put a now) new := by
  by_cases ha : a.id ∈ r.drawn
  · obtain ⟨opening, hentries, hadds⟩ := Store.putAccount_entries hr.sound.sorted a now
    have htransfers : Journal.transfers.rows (r.store.putAccount a now).tables =
        Journal.transfers.rows r.store.tables ++ [] :=
      (Store.putAccount_transfers ..).trans (List.append_nil _).symm
    exact ⟨⟨_, Journal.extends_put hr ha htransfers (.none (Store.putAccount_nextTransfer ..))⟩,
      ⟨_, Journal.extends_put hr ha hentries hadds⟩⟩
  · rw [put_of_not_drawn r ha]
    exact ⟨⟨[], .refl _ r⟩, ⟨[], .refl _ r⟩⟩

/-- All that a single act but emptying the tables can do to a journal. -/
theorem Kept.extends_act (hr : r.Kept) {a : Act} (ha : a ≠ .step (.operation .clear)) :
    (∃ new, Journal.transfers.Extends r (r.act a) new) ∧ ∃ new, Journal.entries.Extends r (r.act a) new := by
  cases a with
  | draw => exact ⟨⟨_, Journal.extends_draw hr⟩, ⟨_, Journal.extends_draw hr⟩⟩
  | put a now => exact extends_put hr a now
  | step st =>
    by_cases hst : st.Opens
    · obtain ⟨owner, currency, balance, now, rfl⟩ := hst
      obtain ⟨⟨_, htransfers⟩, ⟨_, hentries⟩⟩ :=
        extends_put hr.draw ⟨r.store.next.account, owner, currency, balance, now⟩ now
      exact ⟨⟨_, (Journal.extends_draw hr).trans htransfers⟩, ⟨_, (Journal.extends_draw hr).trans hentries⟩⟩
    · have hclear : st ≠ .operation .clear := fun e => ha (congrArg Act.step e)
      rw [act_step r hst]
      exact ⟨⟨_, Journal.extends_step hr hst hclear⟩, ⟨_, Journal.extends_step hr hst hclear⟩⟩


theorem Referring.act (h : r.Referring) (a : Act) : (r.act a).Referring := by
  by_cases ha : a = .step (.operation .clear)
  · subst ha
    exact ⟨h.kept.act _, h.transfers.clear h.kept.transfers, h.entries.clear h.kept.entries⟩
  · obtain ⟨⟨_, htransfers⟩, ⟨_, hentries⟩⟩ := h.kept.extends_act ha
    exact ⟨h.kept.act a, h.transfers.extend (h.kept.act a) htransfers, h.entries.extend (h.kept.act a) hentries⟩

theorem Settled.act (h : r.Settled) (hr : r.Referring) {a : Act}
    (hclear : a = .step (.operation .clear) → ∀ x ∈ r.store.txs, x.transfers = [] ∧ x.entries = []) :
    (r.act a).Settled := by
  by_cases ha : a = .step (.operation .clear)
  · have hstaged := hclear ha
    subst ha
    exact ⟨Journal.recent_clear (List.flatMap_eq_nil_iff.2 fun x hx => (hstaged x hx).1),
      Journal.recent_clear (List.flatMap_eq_nil_iff.2 fun x hx => (hstaged x hx).2)⟩
  · obtain ⟨⟨_, htransfers⟩, ⟨_, hentries⟩⟩ := hr.kept.extends_act ha
    exact ⟨h.transfers.extend hr.transfers htransfers, h.entries.extend hr.entries hentries⟩

theorem referring_run (acts : List Act) : (({} : Registry).run acts).Referring := by
  induction acts using List.reverseRecOn with
  | nil =>
    exact ⟨kept_empty, ⟨Int.le_refl _, fun _ h => (List.not_mem_nil h).elim, fun _ h => (List.not_mem_nil h).elim⟩,
      ⟨Int.le_refl _, fun _ h => (List.not_mem_nil h).elim, fun _ h => (List.not_mem_nil h).elim⟩⟩
  | append_singleton acts a ih =>
    rw [run_append]
    exact ih.act a

theorem settled_run (acts : List Act) (hclear : ∀ before after, acts = before ++ .step (.operation .clear) :: after →
    ∀ x ∈ (({} : Registry).run before).store.txs, x.transfers = [] ∧ x.entries = []) :
    (({} : Registry).run acts).Settled := by
  induction acts using List.reverseRecOn with
  | nil => exact ⟨fun _ h => (List.not_mem_nil h).elim, fun _ h => (List.not_mem_nil h).elim⟩
  | append_singleton acts a ih =>
    rw [run_append]
    refine (ih ?_).act (referring_run acts) ?_
    · intro before after hacts
      exact hclear before (after ++ [a]) (by rw [hacts, List.append_assoc, List.cons_append])
    · intro heq
      subst heq
      exact hclear acts [] rfl

/-- Whatever was done since the store was empty:
    1. an account that a record names is there if and only if the record was made since the
       tables were emptied last, be it committed or staged;
    2. if no record was staged whenever the tables were emptied, every account that a
       committed record names is there. -/
theorem referents_run (acts : List Act) :
    let r := ({} : Registry).run acts
    let s := r.store
    (∀ e ∈ s.tables.entries ++ s.txs.flatMap (·.entries),
      s.tables.accounts.has e.account = true ↔ r.since.entry ≤ e.id) ∧
    (∀ t ∈ s.tables.transfers ++ s.txs.flatMap (·.transfers),
      (s.tables.accounts.has t.source = true ↔ r.since.transfer ≤ t.id) ∧
      (s.tables.accounts.has t.destination = true ↔ r.since.transfer ≤ t.id)) ∧
    ((∀ before after, acts = before ++ .step (.operation .clear) :: after →
        ∀ x ∈ (({} : Registry).run before).store.txs, x.transfers = [] ∧ x.entries = []) →
      (∀ e ∈ s.tables.entries, s.tables.accounts.has e.account = true) ∧
      ∀ t ∈ s.tables.transfers,
        s.tables.accounts.has t.source = true ∧ s.tables.accounts.has t.destination = true) := by
  intro r s
  have h : r.Referring := referring_run acts
  have hentries : ∀ e ∈ Journal.entries.present s, s.tables.accounts.has e.account = true ↔ r.since.entry ≤ e.id := by
    intro e he
    exact h.entries.there e he e.account (List.mem_singleton.2 rfl)
  have htransfers : ∀ t ∈ Journal.transfers.present s,
      (s.tables.accounts.has t.source = true ↔ r.since.transfer ≤ t.id) ∧
      (s.tables.accounts.has t.destination = true ↔ r.since.transfer ≤ t.id) := by
    intro t ht
    exact ⟨h.transfers.there t ht t.source (List.mem_cons_self ..),
      h.transfers.there t ht t.destination (List.mem_cons_of_mem _ (List.mem_singleton.2 rfl))⟩
  refine ⟨hentries, htransfers, ?_⟩
  intro hclear
  have hsettled : r.Settled := settled_run acts hclear
  refine ⟨?_, ?_⟩
  · intro e he
    have he : e ∈ Journal.entries.present s := List.mem_append_left _ he
    exact (hentries e he).2 (hsettled.entries e he)
  · intro t ht
    have ht : t ∈ Journal.transfers.present s := List.mem_append_left _ ht
    have hsince := hsettled.transfers t ht
    exact ⟨(htransfers t ht).1.2 hsince, (htransfers t ht).2.2 hsince⟩

/-- The tables are emptied between an entry and its commit: the account it names is gone,
    and the entry is published. -/
theorem commit_dangles :
    let s := (({} : Registry).run
      [.step (.operation (.createAccount "alice" "USD" 100 .epoch)), .step (.operation (.begin 1)),
        .step (.operation (.call 1 (.insertEntry 1 5) .epoch)), .step (.operation .clear),
        .step (.operation (.commit 1))]).store
    ∃ e ∈ s.tables.entries, s.tables.accounts.has e.account = false := by
  decide

end Registry

end Giro
