import Giro.Proofs.Transcript

/-
  Giro.Proofs.Store — the store seen by the owners of its transactions.

  `tx?` after each move of the store; the invariant of the row locks (`Store.Sound`): each
  row is held by one transaction at most, and what a transaction stages it holds; and one
  lemma that says all a call can do: it waits in line (`call_pending`), or it is answered
  from the draft and the committed rows (`call_ready`, `Answered`).
-/

namespace Giro.Store

variable {s s' : Store} {x x' : Transaction} {o p : Nat} {row : Int}

/-! ## Transactions by owner -/

@[simp] theorem setTx_tables (s : Store) (x : Transaction) : (s.setTx x).tables = s.tables := rfl
@[simp] theorem setTx_next (s : Store) (x : Transaction) : (s.setTx x).next = s.next := rfl
@[simp] theorem setTx_waiting (s : Store) (x : Transaction) : (s.setTx x).waiting = s.waiting := rfl
@[simp] theorem forget_tables (s : Store) (o : Nat) : (s.forget o).tables = s.tables := rfl
@[simp] theorem forget_next (s : Store) (o : Nat) : (s.forget o).next = s.next := rfl
@[simp] theorem begin_tables (s : Store) (o : Nat) : (s.begin o).tables = s.tables := rfl
@[simp] theorem begin_next (s : Store) (o : Nat) : (s.begin o).next = s.next := rfl
@[simp] theorem leaveLine_tables (s : Store) (o : Nat) : (s.leaveLine o).tables = s.tables := rfl
@[simp] theorem leaveLine_next (s : Store) (o : Nat) : (s.leaveLine o).next = s.next := rfl
@[simp] theorem leaveLine_txs (s : Store) (o : Nat) : (s.leaveLine o).txs = s.txs := rfl
@[simp] theorem leaveLine_tx? (s : Store) (o p : Nat) : (s.leaveLine o).tx? p = s.tx? p := rfl

theorem owner_of_tx? (h : s.tx? o = some x) : x.owner = o := by
  simpa using List.find?_some h

theorem mem_of_tx? (h : s.tx? o = some x) : x ∈ s.txs := List.mem_of_find?_eq_some h

theorem tx?_of_txs (h : s'.txs = s.txs) (p : Nat) : s'.tx? p = s.tx? p := by rw [tx?, tx?, h]

theorem tx?_of_mem (hu : (s.txs.map (·.owner)).Nodup) (hx : x ∈ s.txs) : s.tx? x.owner = some x := by
  cases h : s.tx? x.owner with
  | none => simp [tx?] at h; exact absurd rfl (h x hx)
  | some y => rw [List.inj_on_of_nodup_map hu (mem_of_tx? h) hx (owner_of_tx? h)]

theorem find?_owner_cons (y : Transaction) (txs : List Transaction) (p : Nat) :
    List.find? (·.owner == p) (y :: txs) = if y.owner = p then some y else List.find? (·.owner == p) txs := by
  by_cases h : y.owner = p <;> simp [h]

theorem tx?_setTx (s : Store) (x : Transaction) (p : Nat) :
    (s.setTx x).tx? p = if p = x.owner then (s.tx? p).map fun _ => x else s.tx? p := by
  unfold tx? setTx
  induction s.txs with
  | nil => simp
  | cons y txs ih =>
    rw [List.map_cons, find?_owner_cons, find?_owner_cons, ih]
    by_cases hy : y.owner = x.owner
    · rw [if_pos hy, hy]
      by_cases hp : p = x.owner
      · simp [hp]
      · simp [hp, Ne.symm hp]
    · rw [if_neg hy]
      by_cases hp : y.owner = p
      · have : ¬ p = x.owner := fun e => hy (hp.trans e)
        simp [hp, this]
      · simp [hp]

theorem tx?_forget (s : Store) (o p : Nat) : (s.forget o).tx? p = if p = o then none else s.tx? p := by
  unfold tx? forget
  rw [List.find?_filter]
  split
  · rename_i hp; subst hp; simp
  · rename_i hp
    congr 1
    funext y
    by_cases hy : y.owner = p
    · simp [hy, hp]
    · simp [hy]

theorem tx?_begin (s : Store) (o p : Nat) :
    (s.begin o).tx? p = if p = o then some { owner := o } else s.tx? p := by
  have h : (s.begin o).tx? p = ((s.forget o).tx? p).or (if o = p then some { owner := o } else none) := by
    simp only [begin, tx?, List.find?_append, List.find?_singleton, beq_iff_eq]
  rw [h, tx?_forget]
  by_cases hp : p = o
  · simp [hp]
  · simp [hp, Ne.symm hp]

theorem setTx_self (hu : (s.txs.map (·.owner)).Nodup) (hx : s.tx? x.owner = some x) : s.setTx x = s := by
  have h : (s.txs.map fun y => if y.owner = x.owner then x else y) = s.txs := by
    refine (List.map_congr_left fun y hy => ?_).trans (List.map_id s.txs)
    split
    · rename_i ho; exact List.inj_on_of_nodup_map hu (mem_of_tx? hx) hy ho.symm
    · rfl
  rw [setTx, h]

theorem owners_setTx (s : Store) (x : Transaction) : (s.setTx x).txs.map (·.owner) = s.txs.map (·.owner) := by
  simp only [setTx, List.map_map]
  refine List.map_congr_left ?_
  intro y _
  by_cases h : y.owner = x.owner <;> simp [h]

/-- A free row is held by no open transaction. -/
theorem not_held_of_isFreeFor (hf : s.isFreeFor o row = true) {x : Transaction} (hx : x ∈ s.txs) :
    row ∉ x.held := by
  simp only [isFreeFor, Bool.and_eq_true, List.all_eq_true] at hf
  simpa using hf.1 x hx

/-! ## The row locks -/

/-- What the row locks keep: one open transaction for each owner; tables and drafts in
    order; what is staged is held; and no row is held twice. -/
structure Sound (s : Store) : Prop where
  owners : (s.txs.map (·.owner)).Nodup
  sorted : s.tables.accounts.Sorted
  drafts {o : Nat} {x : Transaction} : s.tx? o = some x → x.accounts.Sorted
  guarded {o : Nat} {x : Transaction} : s.tx? o = some x → ∀ row, x.accounts.has row = true → row ∈ x.held
  exclusive {o p : Nat} {x y : Transaction} {row : Int} :
    s.tx? o = some x → s.tx? p = some y → row ∈ x.held → row ∈ y.held → o = p

theorem Sound.setTx_self (h : s.Sound) (hx : s.tx? o = some x) : s.setTx x = s :=
  Store.setTx_self h.owners (by rw [owner_of_tx? hx, hx])

/-! ## Calls -/

/-- What an answered call did: `x'` in the place of `x`. -/
structure Answered (s : Store) (x : Transaction) (c : Call) (id : Int) (now : Instant) (r : Outcome c.Reply)
    (s' : Store) (x' : Transaction) : Prop where
  answer : x.draft.answer s.tables.accounts id now c = (r, x'.draft)
  owner : x'.owner = x.owner
  /-- A row is locked when it is free, in answer to a call for it. -/
  held : x'.held = x.held ∨
    ∃ row, c.row? = some row ∧ s.isFreeFor x.owner row = true ∧ row ∉ x.held ∧ x'.held = x.held ++ [row]
  locked : r.isOk = true → ∀ row, c.row? = some row → row ∈ x'.held
  txs : s'.txs = (s.setTx x').txs
  tables : s'.tables = s.tables
  nextAccount : s'.next.account = s.next.account
  waiting : s'.waiting = s.waiting ∨ ∃ row, c.row? = some row ∧ s'.waiting = s.waiting.erase ⟨x.owner, row⟩
  left : s.waiting.Nodup → ∀ row, c.row? = some row → row ∉ x.held → ⟨x.owner, row⟩ ∉ s'.waiting

theorem Answered.tx? {c : Call} {id : Int} {now : Instant} {r : Outcome c.Reply}
    (h : Answered s x c id now r s' x') (hx : s.tx? o = some x) (p : Nat) :
    s'.tx? p = if p = o then some x' else s.tx? p := by
  rw [tx?_of_txs h.txs, tx?_setTx, h.owner, owner_of_tx? hx]
  split
  · rename_i hp; rw [hp, hx]; rfl
  · rfl

/-- The five ways of `get`. -/
inductive Got (s : Store) (x : Transaction) (row : Int) : Poll (Outcome Account) × Store → Prop
  /-- From the staged copy. -/
  | staged {a : Account} : x.accounts.find? row = some a → Got s x row (.ready (.ok a), s)
  /-- The lock is held, the row is not staged. -/
  | held : x.accounts.find? row = none → row ∈ x.held →
      Got s x row (.ready (s.stage x row).1, (s.stage x row).2)
  /-- The row is free and gets locked. -/
  | granted (granted : Outcome Account × Store) : x.accounts.find? row = none → row ∉ x.held →
      s.isFreeFor x.owner row = true →
      granted = { s with waiting := s.waiting.erase ⟨x.owner, row⟩ }.stage { x with held := x.held ++ [row] } row →
      Got s x row (.ready granted.1, granted.2)
  /-- Not yet: a place in line for the row. -/
  | waits : x.accounts.find? row = none → row ∉ x.held → s.isFreeFor x.owner row = false →
      Got s x row (.pending, s.enqueue x.owner row)
  /-- There is no such row. -/
  | missing : x.accounts.find? row = none → row ∉ x.held → ⟨x.owner, row⟩ ∉ s.waiting →
      s.tables.accounts.has row = false → Got s x row (.ready (.error (.accountNotFound row)), s)

theorem got (s : Store) (x : Transaction) (row : Int) : Got s x row (s.get x row) := by
  unfold get
  split
  · rename_i a ha; exact .staged ha
  · rename_i hn
    split
    · rename_i hh; exact .held hn (by simpa using hh)
    · rename_i hh
      have hh' : row ∉ x.held := by simpa using hh
      split
      · split
        · rename_i hf; exact .granted _ hn hh' hf rfl
        · rename_i hf; exact .waits hn hh' (by simpa using hf)
      · rename_i hw
        have hw' : ⟨x.owner, row⟩ ∉ s.waiting ∧ s.tables.accounts.has row = false := by simpa using hw
        exact .missing hn hh' hw'.1 hw'.2

/-- Staging a row that has just been locked, or was before, answers the call for it. -/
theorem answered_stage (hn : x.accounts.find? row = none) {held : List Int}
    (hh : held = x.held ∨ s.isFreeFor x.owner row = true ∧ row ∉ x.held ∧ held = x.held ++ [row])
    (hrow : row ∈ held) {waiting : List Request}
    (hw : row ∈ x.held ∧ waiting = s.waiting ∨ waiting = s.waiting.erase ⟨x.owner, row⟩)
    (id : Int) (now : Instant) :
    ∃ x', Answered s x (.get row) id now (({ s with waiting }.stage { x with held } row).1)
      ({ s with waiting }.stage { x with held } row).2 x' := by
  have hlook : x.draft.look s.tables.accounts row = s.account? row := by
    simp [Tables.look, Transaction.draft, hn, account?]
  have hleft : s.waiting.Nodup → ∀ r, (Call.get row).row? = some r → r ∉ x.held → ⟨x.owner, r⟩ ∉ waiting := by
    rintro hnd r ⟨⟩ hr
    rcases hw with ⟨hmem, -⟩ | rfl
    · exact absurd hmem hr
    · exact hnd.not_mem_erase
  have hheld : held = x.held ∨ ∃ r, (Call.get row).row? = some r ∧ s.isFreeFor x.owner r = true ∧ r ∉ x.held ∧
      held = x.held ++ [r] := hh.imp_right fun h => ⟨row, rfl, h⟩
  have hwait : waiting = s.waiting ∨ ∃ r, (Call.get row).row? = some r ∧
      waiting = s.waiting.erase ⟨x.owner, r⟩ := hw.imp (·.2) fun h => ⟨row, rfl, h⟩
  cases ha : s.account? row with
  | some a =>
    have ha' : { s with waiting }.account? row = some a := ha
    simp only [stage, ha']
    exact ⟨{ x with held, accounts := Rows.put a x.accounts },
      { answer := by simp only [Tables.answer, hlook, ha]; rfl
        owner := rfl, held := hheld, locked := fun _ r hr => by cases hr; exact hrow, txs := rfl
        tables := rfl, nextAccount := rfl, waiting := hwait, left := hleft }⟩
  | none =>
    have ha' : { s with waiting }.account? row = none := ha
    simp only [stage, ha']
    exact ⟨{ x with held },
      { answer := by simp only [Tables.answer, hlook, ha]; rfl
        owner := rfl, held := hheld, locked := fun _ r hr => by cases hr; exact hrow, txs := rfl
        tables := rfl, nextAccount := rfl, waiting := hwait, left := hleft }⟩

theorem get_ready (hs : s.Sound) (hx : s.tx? o = some x) {r : Outcome Account}
    (h : s.get x row = (.ready r, s')) (id : Int) (now : Instant) :
    ∃ x', Answered s x (.get row) id now r s' x' := by
  have hself := hs.setTx_self hx
  cases h ▸ got s x row with
  | @staged a ha =>
    have hmem : row ∈ x.held := hs.guarded hx row (Rows.has_of_find? ha)
    have hput : Rows.put a x.accounts = x.accounts :=
      Rows.put_of_find? (hs.drafts hx) (by rwa [Rows.id_of_find? ha])
    have hstage : x.draft.stage a = x.draft := by rw [Tables.stage, Transaction.draft, hput]
    refine ⟨x, { answer := ?_, owner := rfl, held := .inl rfl, locked := ?_, txs := by rw [hself], tables := rfl
                 nextAccount := rfl, waiting := .inl rfl, left := ?_ }⟩
    · have hlook : x.draft.look s.tables.accounts row = some a := by simp [Tables.look, Transaction.draft, ha]
      simp only [Tables.answer, hlook, hstage]
    · rintro - r ⟨⟩; exact hmem
    · rintro - r ⟨⟩ hr; exact absurd hmem hr
  | held hn hh => exact answered_stage hn (.inl rfl) hh (.inl ⟨hh, rfl⟩) id now
  | granted g hn hh hf hg =>
    subst hg
    exact answered_stage hn (.inr ⟨hf, hh, rfl⟩) (List.mem_append_right _ (List.mem_singleton.2 rfl)) (.inr rfl) id now
  | missing hn hh hw hr =>
    have hlook : x.draft.look s.tables.accounts row = none := by
      rw [Tables.look, Transaction.draft, hn, Rows.has_eq_false_iff.1 hr]; rfl
    refine ⟨x, { answer := ?_, owner := rfl, held := .inl rfl, locked := (fun hr => by cases hr)
                 txs := by rw [hself], tables := rfl, nextAccount := rfl, waiting := .inl rfl, left := ?_ }⟩
    · simp only [Tables.answer, hlook]
    · rintro - r ⟨⟩ -; exact hw

theorem get_pending {r : Int} (h : s.get x r = (.pending, s')) :
    s' = s.enqueue x.owner r ∧ x.accounts.find? r = none ∧ r ∉ x.held ∧ s.isFreeFor x.owner r = false := by
  cases h ▸ got s x r with
  | waits hn hh hf => exact ⟨rfl, hn, hh, hf⟩

theorem setTx_setTx (s : Store) {x y : Transaction} (h : x.owner = y.owner) : (s.setTx x).setTx y = s.setTx y := by
  simp only [setTx, List.map_map, Store.mk.injEq, true_and, and_true]
  refine List.map_congr_left ?_
  intro z _
  by_cases hz : z.owner = y.owner <;> simp [hz, h]

/-- An update is a read followed by a write of the staged copy. -/
theorem update_ready (hs : s.Sound) (hx : s.tx? o = some x) {balance : Int} {r : Outcome Account}
    (h : s.update x row balance = (.ready r, s')) (id : Int) (now : Instant) :
    ∃ x', Answered s x (.update row balance) id now r s' x' := by
  unfold update at h
  split at h
  · rename_i a s₁ hget
    obtain ⟨x₁, h₁⟩ := get_ready hs hx hget id now
    have htx : s₁.tx? x.owner = some x₁ := by rw [h₁.tx? hx, if_pos (owner_of_tx? hx)]
    rw [htx] at h
    cases h
    obtain ⟨hlook, hdraft⟩ : x.draft.look s.tables.accounts row = some a ∧ x.draft.stage a = x₁.draft := by
      have hans := h₁.answer
      simp only [Tables.answer] at hans
      split at hans
      · cases hans
      · rename_i b hb
        simp only [Prod.mk.injEq, Except.ok.injEq] at hans
        obtain ⟨rfl, hd⟩ := hans
        exact ⟨hb, hd⟩
    have hedit : x₁.draft.stage { a with balance } = x.draft.stage { a with balance } := by
      have hput : Rows.put { a with balance } (Rows.put a x.accounts) = Rows.put { a with balance } x.accounts :=
        Rows.put_put (hs.drafts hx) rfl
      rw [← hdraft]
      simp only [Tables.stage, Transaction.draft, hput]
    refine ⟨{ x₁ with accounts := Rows.put { a with balance } x₁.accounts },
      { answer := ?_, owner := h₁.owner, held := h₁.held, locked := fun _ => h₁.locked rfl, txs := ?_
        tables := h₁.tables, nextAccount := h₁.nextAccount, waiting := h₁.waiting, left := h₁.left }⟩
    · simp only [Tables.answer, hlook, ← hedit]
      rfl
    · have hset : ∀ y : Transaction, (s₁.setTx y).txs = ((s.setTx x₁).setTx y).txs := fun y => by
        simp only [setTx, h₁.txs]
      rw [hset, setTx_setTx]
      rfl
  · rename_i hno
    rcases r with e | a
    · obtain ⟨x', h'⟩ := get_ready hs hx h id now
      refine ⟨x', { answer := ?_, owner := h'.owner, held := h'.held, locked := (fun hr => by cases hr)
                    txs := h'.txs, tables := h'.tables, nextAccount := h'.nextAccount, waiting := h'.waiting
                    left := h'.left }⟩
      have hans := h'.answer
      simp only [Tables.answer] at hans ⊢
      split at hans
      · exact hans
      · cases hans
    · exact absurd h (hno a s')

theorem update_pending {r balance : Int} (h : s.update x r balance = (.pending, s')) :
    s' = s.enqueue x.owner r ∧ x.accounts.find? r = none ∧ r ∉ x.held ∧ s.isFreeFor x.owner r = false := by
  unfold update at h
  split at h
  · split at h <;> cases h
  · exact get_pending h

/-- A call that is not answered has its owner wait in line for the row. -/
theorem call_pending {c : Call} {now : Instant} (hx : s.tx? o = some x) (h : s.call o c now = (.pending, s')) :
    ∃ row, c.row? = some row ∧ s' = s.enqueue o row ∧ x.accounts.find? row = none ∧ row ∉ x.held ∧
      s.isFreeFor o row = false := by
  simp only [call, hx] at h
  have ho := owner_of_tx? hx
  cases c with
  | get row =>
    obtain ⟨hs, hn, hh, hf⟩ := get_pending h
    exact ⟨row, rfl, ho ▸ hs, hn, hh, ho ▸ hf⟩
  | update row balance =>
    obtain ⟨hs, hn, hh, hf⟩ := update_pending h
    exact ⟨row, rfl, ho ▸ hs, hn, hh, ho ▸ hf⟩
  | insertTransfer order => cases h
  | insertEntry account amount => cases h

/-- A call that takes no row is answered at once, and holds and waits as before. -/
theorem Answered.ofInsert {c : Call} {id : Int} {now : Instant} {r : Outcome c.Reply} (hc : c.row? = none)
    (hans : x.draft.answer s.tables.accounts id now c = (r, x'.draft)) (howner : x'.owner = x.owner)
    (hheld : x'.held = x.held) (n : Counters) (hn : n.account = s.next.account) :
    Answered s x c id now r { s.setTx x' with next := n } x' where
  answer := hans
  owner := howner
  held := .inl hheld
  locked _ r hr := by rw [hc] at hr; cases hr
  txs := rfl
  tables := rfl
  nextAccount := hn
  waiting := .inl rfl
  left _ r hr := by rw [hc] at hr; cases hr

/-- A call that is answered is answered from the draft and the committed rows. -/
theorem call_ready (hs : s.Sound) (hx : s.tx? o = some x) {c : Call} {now : Instant} {r : Outcome c.Reply}
    (h : s.call o c now = (.ready r, s')) : ∃ x', Answered s x c (c.number s.next) now r s' x' := by
  simp only [call, hx] at h
  have hrefused : ∀ {c : Call} {id : Int} {e : LedgerError}, c.row? = none →
      x.draft.answer s.tables.accounts id now c = (.error e, x.draft) →
      Answered s x c id now (.error e) s x := by
    intro c id e hc hans
    have hsame := Answered.ofInsert hc hans rfl rfl s.next rfl
    rwa [hs.setTx_self hx] at hsame
  cases c with
  | get row => exact get_ready hs hx h _ now
  | update row balance => exact update_ready hs hx h _ now
  | insertTransfer order =>
    simp only [insertTransfer] at h
    split at h
    · rename_i hsrc
      cases h
      exact ⟨x, hrefused rfl (by simp only [Tables.answer, hsrc, if_true])⟩
    rename_i hsrc
    split at h
    · rename_i hdst
      cases h
      exact ⟨x, hrefused rfl (by simp only [Tables.answer, hsrc, hdst, if_true, if_false, Bool.false_eq_true])⟩
    rename_i hdst
    split at h
    · rename_i hamt
      cases h
      exact ⟨x, hrefused rfl (by
        simp only [Tables.answer, hsrc, hdst, hamt, if_true, if_false, Bool.false_eq_true])⟩
    · rename_i hamt
      let t : Transfer := ⟨s.next.transfer, order.source, order.destination, order.amount, now⟩
      simp only [Prod.mk.injEq, Poll.ready.injEq] at h
      obtain ⟨rfl, rfl⟩ := h
      refine ⟨{ x with transfers := x.transfers ++ [t] },
        .ofInsert (by rfl) ?_ (by rfl) (by rfl) { s.next with transfer := s.next.transfer + 1 } (by rfl)⟩
      simp only [Tables.answer, hsrc, hdst, hamt, if_false, Bool.false_eq_true]
      rfl
  | insertEntry account amount =>
    simp only [insertEntry] at h
    split at h
    · rename_i hacc
      cases h
      exact ⟨x, hrefused rfl (by simp only [Tables.answer, hacc, if_true])⟩
    · rename_i hacc
      let e : Entry := ⟨s.next.entry, account, amount, now⟩
      simp only [Prod.mk.injEq, Poll.ready.injEq] at h
      obtain ⟨rfl, rfl⟩ := h
      refine ⟨{ x with entries := x.entries ++ [e] },
        .ofInsert (by rfl) ?_ (by rfl) (by rfl) { s.next with entry := s.next.entry + 1 } (by rfl)⟩
      simp only [Tables.answer, hacc, if_false, Bool.false_eq_true]
      rfl

/-! ## Commits -/

/-- The three ways of `commit`. -/
inductive Committed (s : Store) (o : Nat) : Outcome Unit × Store → Prop
  | noTx : s.tx? o = none → Committed s o (.error (.storage .transactionEnded), s)
  /-- A staged account is gone. -/
  | gone {x : Transaction} {a : Account} : s.tx? o = some x →
      List.find? (fun a => !s.tables.accounts.has a.id) x.accounts = some a →
      Committed s o (.error (.accountNotFound a.id), s.forget o)
  | done {x : Transaction} : s.tx? o = some x → (∀ a ∈ x.accounts, s.tables.accounts.has a.id = true) →
      Committed s o (.ok (), { s.forget o with tables := s.tables.publish x })

theorem committed (s : Store) (o : Nat) : Committed s o (s.commit o) := by
  unfold commit
  split
  · rename_i h; exact .noTx h
  · rename_i x h
    split
    · rename_i a ha
      exact .gone h ha
    · rename_i ha
      exact .done h (by simpa using ha)

theorem commit_ok (h : s.commit o = (.ok (), s')) :
    ∃ x, s.tx? o = some x ∧ (∀ a ∈ x.accounts, s.tables.accounts.has a.id = true) ∧
      s' = { s.forget o with tables := s.tables.publish x } := by
  cases h ▸ committed s o with
  | done hx hhas => exact ⟨_, hx, hhas, rfl⟩

theorem commit_error {e : LedgerError} (h : s.commit o = (.error e, s')) : s' = s ∨ s' = s.forget o := by
  cases h ▸ committed s o with
  | noTx _ => exact .inl rfl
  | gone _ _ => exact .inr rfl

/-- After a commit, whatever comes of it, the owner has no transaction, and it waits for
    nothing new. -/
theorem commit_ends {r : Outcome Unit} (h : s.commit o = (r, s')) :
    s'.tx? o = none ∧ ∀ row, ⟨o, row⟩ ∈ s'.waiting → ⟨o, row⟩ ∈ s.waiting := by
  have hforget : (s.forget o).tx? o = none := by rw [tx?_forget, if_pos rfl]
  have hline : ∀ row, ⟨o, row⟩ ∈ (s.forget o).waiting → ⟨o, row⟩ ∈ s.waiting := fun _ hr => List.mem_of_mem_filter hr
  cases h ▸ committed s o with
  | noTx hn => exact ⟨hn, fun _ => id⟩
  | gone _ _ => exact ⟨hforget, hline⟩
  | done _ _ => exact ⟨hforget, hline⟩

/-! ## The locks are kept -/

theorem Sound.ofTxs (h : s.Sound) (htxs : s'.txs = s.txs) (hsorted : s'.tables.accounts.Sorted) : s'.Sound where
  owners := by rw [htxs]; exact h.owners
  sorted := hsorted
  drafts hx := h.drafts (by rwa [tx?_of_txs htxs] at hx)
  guarded hx := h.guarded (by rwa [tx?_of_txs htxs] at hx)
  exclusive hx hy := h.exclusive (by rwa [tx?_of_txs htxs] at hx) (by rwa [tx?_of_txs htxs] at hy)

theorem Sound.forget (h : s.Sound) (o : Nat) : (s.forget o).Sound := by
  have hsub : ∀ {p x}, (s.forget o).tx? p = some x → s.tx? p = some x := by
    intro p x hx
    rw [tx?_forget] at hx
    split at hx
    · cases hx
    · exact hx
  exact {
    owners := h.owners.sublist (List.filter_sublist.map _)
    sorted := h.sorted
    drafts := fun hx => h.drafts (hsub hx)
    guarded := fun hx => h.guarded (hsub hx)
    exclusive := fun hx hy => h.exclusive (hsub hx) (hsub hy) }

theorem Sound.begin (h : s.Sound) (o : Nat) : (s.begin o).Sound := by
  have hcase : ∀ {p x}, (s.begin o).tx? p = some x → x = { owner := o } ∨ s.tx? p = some x := by
    intro p x hx
    rw [tx?_begin] at hx
    split at hx
    · exact .inl (Option.some.inj hx).symm
    · exact .inr hx
  refine ⟨?_, h.sorted, ?_, ?_, ?_⟩
  · have hnot : o ∉ (s.forget o).txs.map (·.owner) := by simp [Store.forget]
    show ((s.forget o).txs ++ [({ owner := o } : Transaction)]).map (·.owner) |>.Nodup
    rw [List.map_append]
    exact (h.forget o).owners.append (List.nodup_singleton o) (by simpa using hnot)
  · intro p x hx
    rcases hcase hx with rfl | hx
    · exact List.Pairwise.nil
    · exact h.drafts hx
  · intro p x hx row hrow
    rcases hcase hx with rfl | hx
    · cases hrow
    · exact h.guarded hx row hrow
  · intro p q x y row hx hy hrx hry
    rcases hcase hx with rfl | hx
    · cases hrx
    rcases hcase hy with rfl | hy
    · cases hry
    exact h.exclusive hx hy hrx hry

theorem Answered.held_of_held {c : Call} {id : Int} {now : Instant} {r : Outcome c.Reply}
    (ha : Answered s x c id now r s' x') {row : Int} (hrow : row ∈ x.held) : row ∈ x'.held := by
  rcases ha.held with hh | ⟨r, -, -, -, hh⟩ <;> rw [hh]
  · exact hrow
  · exact List.mem_append_left _ hrow

/-- A row that another transaction holds was not locked by the answer. -/
theorem Answered.held_before {c : Call} {id : Int} {now : Instant} {r : Outcome c.Reply}
    (ha : Answered s x c id now r s' x') {p : Nat} {y : Transaction} {row : Int} (hy : s.tx? p = some y)
    (hrow : row ∈ x'.held) (hry : row ∈ y.held) : row ∈ x.held := by
  rcases ha.held with hh | ⟨r, -, hf, -, hh⟩ <;> rw [hh] at hrow
  · exact hrow
  · rcases List.mem_append.1 hrow with hrow | hrow
    · exact hrow
    · obtain rfl := List.mem_singleton.1 hrow
      exact absurd hry (not_held_of_isFreeFor hf (mem_of_tx? hy))

/-- Whoever got an answer about a row that is there holds it. -/
theorem Answered.held_of_there {c : Call} {id : Int} {now : Instant} {r : Outcome c.Reply}
    (ha : Answered s x c id now r s' x') {row : Int} (hc : c.row? = some row)
    (hthere : s.tables.accounts.has row = true) : row ∈ x'.held := by
  have hok : (x.draft.answer s.tables.accounts id now c).1.isOk = true := Tables.isOk_answer hc hthere
  rw [ha.answer] at hok
  exact ha.locked hok row hc

/-- What an answered call staged, its transaction holds. -/
theorem Answered.guarded (h : s.Sound) (hx : s.tx? o = some x) {c : Call} {id : Int} {now : Instant}
    {r : Outcome c.Reply} (ha : Answered s x c id now r s' x') {row : Int} (hrow : x'.accounts.has row = true) :
    row ∈ x'.held := by
  have hrow' : (x.draft.answer s.tables.accounts id now c).2.accounts.has row = true := by
    rw [ha.answer]
    exact hrow
  by_cases hst : x.accounts.has row = true
  · exact ha.held_of_held (h.guarded hx row hst)
  · rcases Tables.has_of_has_answer (h.drafts hx) hrow' with hst' | ⟨hc, hhas⟩
    · exact absurd hst' hst
    · exact ha.held_of_there hc hhas

/-- An answered call keeps the locks: it takes only a row that nobody held, and stages only
    a row that it holds. -/
theorem Sound.answered (h : s.Sound) (hx : s.tx? o = some x) {c : Call} {id : Int} {now : Instant}
    {r : Outcome c.Reply} (ha : Answered s x c id now r s' x') : s'.Sound := by
  refine ⟨?_, ha.tables ▸ h.sorted, ?_, ?_, ?_⟩
  · rw [ha.txs, owners_setTx]
    exact h.owners
  · intro p y hy
    rw [ha.tx? hx] at hy
    split at hy
    · cases hy
      have hdraft : x'.draft = (x.draft.answer s.tables.accounts id now c).2 := by rw [ha.answer]
      show x'.draft.accounts.Sorted
      rw [hdraft]
      exact Tables.answer_sorted (h.drafts hx)
    · exact h.drafts hy
  · intro p y hy row hrow
    rw [ha.tx? hx] at hy
    split at hy
    · cases hy
      exact ha.guarded h hx hrow
    · exact h.guarded hy row hrow
  · intro p q y z row hy hz hry hrz
    rw [ha.tx? hx] at hy hz
    split at hy
    · rename_i hp
      cases hy
      split at hz
      · rename_i hq; rw [hp, hq]
      · rw [hp]; exact h.exclusive hx hz (ha.held_before hz hry hrz) hrz
    · split at hz
      · rename_i hq
        cases hz
        rw [hq]; exact h.exclusive hy hx hry (ha.held_before hy hrz hry)
      · exact h.exclusive hy hz hry hrz

theorem Sound.commit (h : s.Sound) (o : Nat) : (s.commit o).2.Sound := by
  rcases hc : s.commit o with ⟨r, s'⟩
  cases hc ▸ committed s o with
  | noTx _ => exact h
  | gone _ _ => exact h.forget o
  | done hx hhas => exact (h.forget o).ofTxs rfl (h.sorted.putAll _)

end Giro.Store
