import Giro.Proofs.Registry

/-
  Giro.Proofs.Renaming — the same records under other ids.

  Two stores that give different ids to transfers and entries may do the same otherwise. A
  renaming takes the ids of one to those of the other. Nothing but the ids of records
  depends on them: an answer over a renamed draft is the renamed answer
  (`Tables.answer_rename`), as long as the renaming takes the next ids to the next ids
  (`Renaming.Sends`). Where the other store skips ids, the renaming is changed for those
  that are yet to be given (`Renaming.extend`), and no record notices (`Renaming.Agrees`).
-/

namespace Giro

/-- Other ids for transfers and for entries. -/
structure Renaming where
  transfer : Int → Int := id
  entry : Int → Int := id

def Transfer.rename (σ : Renaming) (t : Transfer) : Transfer := { t with id := σ.transfer t.id }

def Entry.rename (σ : Renaming) (e : Entry) : Entry := { e with id := σ.entry e.id }

def Tables.rename (σ : Renaming) (t : Tables) : Tables where
  accounts := t.accounts
  transfers := t.transfers.map (·.rename σ)
  entries := t.entries.map (·.rename σ)

def Call.rename (σ : Renaming) : (c : Call) → c.Reply → c.Reply
  | get _, a => a
  | update .., a => a
  | insertTransfer _, t => t.rename σ
  | insertEntry .., e => e.rename σ

def Exchange.rename (σ : Renaming) (e : Exchange) : Exchange := ⟨e.call, e.answer.map (e.call.rename σ)⟩

namespace Renaming

/-! ## Ids that are yet to be given -/

/-- `f` below `n`, and from there on the numbers from `m` on. -/
def splice (f : Int → Int) (n m k : Int) : Int := if k < n then f k else m + (k - n)

theorem splice_of_lt {f : Int → Int} {n k : Int} (h : k < n) (m : Int) : splice f n m k = f k := if_pos h

theorem splice_of_le (f : Int → Int) {n k : Int} (h : n ≤ k) (m : Int) : splice f n m k = m + (k - n) :=
  if_neg (Int.not_lt.2 h)

theorem splice_strictMono {f : Int → Int} (hf : StrictMono f) {n m : Int} (h : f n ≤ m) :
    StrictMono (splice f n m) := by
  intro k l hkl
  by_cases hl : l < n
  · rw [splice_of_lt (by omega), splice_of_lt hl]
    exact hf hkl
  · rw [splice_of_le f (Int.not_lt.1 hl)]
    by_cases hk : k < n
    · rw [splice_of_lt hk]
      have := hf hk
      omega
    · rw [splice_of_le f (Int.not_lt.1 hk)]
      omega

/-- Ids keep their order. -/
structure Ascends (σ : Renaming) : Prop where
  transfer : StrictMono σ.transfer
  entry : StrictMono σ.entry

/-- The ids that are yet to be given by the counters `n` go to those that are yet to be given
    by `m`, one after the other. -/
structure Sends (σ : Renaming) (n m : Counters) : Prop where
  transfer : ∀ k, n.transfer ≤ k → σ.transfer k = m.transfer + (k - n.transfer)
  entry : ∀ k, n.entry ≤ k → σ.entry k = m.entry + (k - n.entry)

/-- The same ids for all that has got one. -/
structure Agrees (σ σ' : Renaming) (n : Counters) : Prop where
  transfer : ∀ k < n.transfer, σ'.transfer k = σ.transfer k
  entry : ∀ k < n.entry, σ'.entry k = σ.entry k

/-- Takes what the counters `n` are yet to give to what `m` are yet to give. -/
def extend (σ : Renaming) (n m : Counters) : Renaming where
  transfer := splice σ.transfer n.transfer m.transfer
  entry := splice σ.entry n.entry m.entry

variable {σ σ' σ'' : Renaming} {n m m' : Counters}

theorem Agrees.refl (σ : Renaming) (n : Counters) : σ.Agrees σ n := ⟨fun _ _ => rfl, fun _ _ => rfl⟩

theorem Agrees.trans (h : σ.Agrees σ' n) (h' : σ'.Agrees σ'' m) (htransfer : n.transfer ≤ m.transfer)
    (hentry : n.entry ≤ m.entry) : σ.Agrees σ'' n where
  transfer k hk := (h'.transfer k (by omega)).trans (h.transfer k hk)
  entry k hk := (h'.entry k (by omega)).trans (h.entry k hk)

theorem agrees_extend (σ : Renaming) (n m : Counters) : σ.Agrees (σ.extend n m) n :=
  ⟨fun _ hk => splice_of_lt hk _, fun _ hk => splice_of_lt hk _⟩

theorem sends_extend (σ : Renaming) (n m : Counters) : (σ.extend n m).Sends n m :=
  ⟨fun _ hk => splice_of_le _ hk _, fun _ hk => splice_of_le _ hk _⟩

theorem Ascends.extend (h : σ.Ascends) (hsends : σ.Sends n m) (htransfer : m.transfer ≤ m'.transfer)
    (hentry : m.entry ≤ m'.entry) : (σ.extend n m').Ascends where
  transfer := splice_strictMono h.transfer (by rw [hsends.transfer _ (Int.le_refl _)]; omega)
  entry := splice_strictMono h.entry (by rw [hsends.entry _ (Int.le_refl _)]; omega)

theorem Sends.nextTransfer (h : σ.Sends n m) : σ.transfer n.transfer = m.transfer := by
  rw [h.transfer _ (Int.le_refl _)]
  omega

theorem Sends.nextEntry (h : σ.Sends n m) : σ.entry n.entry = m.entry := by
  rw [h.entry _ (Int.le_refl _)]
  omega

/-- One id more is given on both sides. -/
theorem Sends.transfer_succ (h : σ.Sends n m) :
    σ.Sends { n with transfer := n.transfer + 1 } { m with transfer := m.transfer + 1 } where
  transfer k hk := by
    dsimp only at hk ⊢
    rw [h.transfer k (by omega)]
    omega
  entry := h.entry

theorem Sends.entry_succ (h : σ.Sends n m) :
    σ.Sends { n with entry := n.entry + 1 } { m with entry := m.entry + 1 } where
  transfer := h.transfer
  entry k hk := by
    dsimp only at hk ⊢
    rw [h.entry k (by omega)]
    omega

/-- The counters stay in step over an answer and the renamed one. -/
theorem Sends.draw (h : σ.Sends n m) (c : Call) (r : Outcome c.Reply) :
    σ.Sends (c.draw n r) (c.draw m (r.map (c.rename σ))) := by
  cases r with
  | error e => cases c <;> exact h
  | ok a =>
    cases c with
    | insertTransfer order => exact h.transfer_succ
    | insertEntry account amount => exact h.entry_succ
    | _ => exact h

end Renaming

/-! ## Answers -/

variable {σ σ' : Renaming} {n m : Counters}

/-- Over a renamed draft a call gets the renamed answer and leaves a renamed draft. -/
theorem Tables.answer_rename (h : σ.Sends n m) (d : Tables) (rows : Rows) (now : Instant) (c : Call) :
    (d.rename σ).answer rows (c.number m) now c =
      ((d.answer rows (c.number n) now c).1.map (c.rename σ), (d.answer rows (c.number n) now c).2.rename σ) := by
  have hlook (row : Int) : (d.rename σ).look rows row = d.look rows row := rfl
  cases c with
  | get row =>
    simp only [answer, hlook]
    split <;> rfl
  | update row balance =>
    simp only [answer, hlook]
    split <;> rfl
  | insertTransfer order =>
    simp only [answer]
    split
    · rfl
    split
    · rfl
    split
    · rfl
    · simp [Call.number, Except.map, Call.rename, Transfer.rename, rename, h.nextTransfer]
  | insertEntry account amount =>
    simp only [answer]
    split
    · rfl
    · simp [Call.number, Except.map, Call.rename, Entry.rename, rename, h.nextEntry]

theorem Tables.publish_rename {t : Tables} {x x' : Transaction} (h : x.draft = x'.draft.rename σ) :
    (t.rename σ).publish x = (t.publish x').rename σ := by
  have haccounts : x.accounts = x'.accounts := congrArg Tables.accounts h
  have htransfers : x.transfers = x'.transfers.map (·.rename σ) := congrArg Tables.transfers h
  have hentries : x.entries = x'.entries.map (·.rename σ) := congrArg Tables.entries h
  simp [publish, rename, haccounts, htransfers, hentries]

/-- Putting an account gives its entry the next id. -/
theorem Store.putAccount_rename {s s' : Store} (htables : s.tables = s'.tables.rename σ)
    (hsends : σ.Sends s'.next s.next) (a : Account) (now : Instant) :
    (s.putAccount a now).tables = (s'.putAccount a now).tables.rename σ ∧
      σ.Sends (s'.putAccount a now).next (s.putAccount a now).next := by
  unfold putAccount
  dsimp only
  split
  · exact ⟨by rw [htables]; rfl, hsends⟩
  · exact ⟨by simp [htables, Tables.rename, Entry.rename, hsends.nextEntry], hsends.entry_succ⟩

/-! ## Renamings that agree -/

theorem Tables.rename_congr (h : σ.Agrees σ' n) {d : Tables} (htransfers : ∀ t ∈ d.transfers, t.id < n.transfer)
    (hentries : ∀ e ∈ d.entries, e.id < n.entry) : d.rename σ' = d.rename σ := by
  have ht : d.transfers.map (·.rename σ') = d.transfers.map (·.rename σ) :=
    List.map_congr_left fun t ht => by rw [Transfer.rename, Transfer.rename, h.transfer _ (htransfers t ht)]
  have he : d.entries.map (·.rename σ') = d.entries.map (·.rename σ) :=
    List.map_congr_left fun e he => by rw [Entry.rename, Entry.rename, h.entry _ (hentries e he)]
  rw [rename, rename, ht, he]

theorem Exchange.rename_congr (h : σ.Agrees σ' n) {e : Exchange} (htransfer : ∀ t ∈ e.transfer?, t.id < n.transfer)
    (hentry : ∀ a ∈ e.entry?, a.id < n.entry) : e.rename σ' = e.rename σ := by
  obtain ⟨c, r⟩ := e
  cases r with
  | error e => rfl
  | ok a =>
    cases c with
    | insertTransfer order =>
      have ha : a.rename σ' = a.rename σ := by rw [Transfer.rename, Transfer.rename, h.transfer _ (htransfer a rfl)]
      simp only [rename, Except.map, Call.rename, ha]
    | insertEntry account amount =>
      have ha : a.rename σ' = a.rename σ := by rw [Entry.rename, Entry.rename, h.entry _ (hentry a rfl)]
      simp only [rename, Except.map, Call.rename, ha]
    | _ => rfl

namespace Registry.Kept

variable {r : Registry}

/-- All records got their ids, so renamings that agree on what has got one rename the tables
    alike. -/
theorem tables_congr (hr : r.Kept) (h : σ.Agrees σ' r.store.next) :
    r.store.tables.rename σ' = r.store.tables.rename σ :=
  Tables.rename_congr h (fun _ ht => hr.transfers.number_lt (List.mem_append_left _ ht))
    fun _ he => hr.entries.number_lt (List.mem_append_left _ he)

theorem draft_congr (hr : r.Kept) (h : σ.Agrees σ' r.store.next) {x : Transaction} (hx : x ∈ r.store.txs) :
    x.draft.rename σ' = x.draft.rename σ :=
  Tables.rename_congr h
    (fun _ ht => hr.transfers.number_lt (List.mem_append_right _ (List.mem_flatMap.2 ⟨x, hx, ht⟩)))
    fun _ he => hr.entries.number_lt (List.mem_append_right _ (List.mem_flatMap.2 ⟨x, hx, he⟩))

end Registry.Kept

end Giro
