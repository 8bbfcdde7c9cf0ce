import Giro.Proofs.Solo

/-
  Giro.Proofs.Staging — staging is as good as writing at once.

  A transaction that has the store to itself stages what it writes and reads back what it has
  staged. `Direct` is the same without a transaction: tables and counters that every call
  changes on the spot. What connects the two is a function: the tables with everything staged
  laid over them (`Store.direct`). Each call answers from the one as from the other
  (`Direct.call_overlay`), so all of them do (`Store.Alone.ask`), a commit leaves what was
  laid over, and dropping the transaction leaves the tables; the counters are the same.

  Main statement: `staged_as_direct`.
-/

namespace Giro

/-! ## Calls that take effect at once -/

/-- The tables and the next ids. -/
structure Direct where
  tables : Tables
  next : Counters

namespace Direct

/-- Answers a call and carries it out. -/
def call (z : Direct) (now : Instant) : (c : Call) → Outcome c.Reply × Direct
  | .get row =>
    match z.tables.accounts.find? row with
    | none => (.error (.accountNotFound row), z)
    | some a => (.ok a, z)
  | .update row balance =>
    match z.tables.accounts.find? row with
    | none => (.error (.accountNotFound row), z)
    | some a =>
      let a := { a with balance }
      (.ok a, { z with tables.accounts := Rows.put a z.tables.accounts })
  | .insertTransfer order =>
    if !z.tables.accounts.has order.source then (.error (.accountNotFound order.source), z)
    else if !z.tables.accounts.has order.destination then (.error (.accountNotFound order.destination), z)
    else if order.amount ≤ 0 then (.error (.storage (.amountNotPositive order.amount)), z)
    else
      let t : Transfer := ⟨z.next.transfer, order.source, order.destination, order.amount, now⟩
      (.ok t, { z with tables.transfers := z.tables.transfers ++ [t], next.transfer := z.next.transfer + 1 })
  | .insertEntry account amount =>
    if !z.tables.accounts.has account then (.error (.accountNotFound account), z)
    else
      let e : Entry := ⟨z.next.entry, account, amount, now⟩
      (.ok e, { z with tables.entries := z.tables.entries ++ [e], next.entry := z.next.entry + 1 })

/-- Calls one after the other, each with the time at which it is made. -/
def run (z : Direct) : List (Call × Instant) → Transcript × Direct
  | [] => ([], z)
  | (c, now) :: calls =>
    let (r, z) := z.call now c
    let (l, z) := z.run calls
    (⟨c, r⟩ :: l, z)

theorem run_append (z : Direct) (calls calls' : List (Call × Instant)) :
    z.run (calls ++ calls') =
      ((z.run calls).1 ++ ((z.run calls).2.run calls').1, ((z.run calls).2.run calls').2) := by
  induction calls generalizing z with
  | nil => rfl
  | cons c calls ih => simp only [List.cons_append, run, ih]

theorem length_run (z : Direct) (calls : List (Call × Instant)) : (z.run calls).1.length = calls.length := by
  induction calls generalizing z with
  | nil => rfl
  | cons c calls ih => simp only [run, List.length_cons, ih]

/-- A call that fails changes nothing. -/
theorem call_error {z : Direct} {now : Instant} {c : Call} {e : LedgerError} (h : (z.call now c).1 = .error e) :
    (z.call now c).2 = z := by
  cases c with
  | get row =>
    simp only [call]
    split <;> rfl
  | update row balance =>
    simp only [call] at h ⊢
    cases hfind : z.tables.accounts.find? row with
    | none => rfl
    | some a => simp only [hfind, reduceCtorEq] at h
  | insertTransfer order =>
    simp only [call] at h ⊢
    split at h
    · rename_i hsource
      rw [if_pos hsource]
    rename_i hsource
    rw [if_neg hsource]
    split at h
    · rename_i hdestination
      rw [if_pos hdestination]
    rename_i hdestination
    rw [if_neg hdestination]
    split at h
    · rename_i hamount
      rw [if_pos hamount]
    · cases h
  | insertEntry account amount =>
    simp only [call] at h ⊢
    split at h
    · rename_i haccount
      rw [if_pos haccount]
    · cases h

/-- Calls that fail might as well not have been made. -/
theorem run_without {z : Direct} {earlier later : List (Call × Instant)} {c : Call} {now : Instant} {e : LedgerError}
    (h : (z.run (earlier ++ (c, now) :: later)).1[earlier.length]? = some ⟨c, .error e⟩) :
    z.run (earlier ++ later) = ((z.run (earlier ++ (c, now) :: later)).1.eraseIdx earlier.length,
      (z.run (earlier ++ (c, now) :: later)).2) := by
  have hlength := z.length_run earlier
  rw [run_append] at h ⊢
  rw [run_append]
  generalize z.run earlier = before at h hlength ⊢
  rw [List.getElem?_append_right (Nat.le_of_eq hlength), hlength, Nat.sub_self] at h
  have hfailed : (before.2.call now c).1 = .error e := by
    simpa only [run, List.getElem?_cons_zero, Option.some.injEq, Exchange.mk.injEq, true_and, heq_eq_eq] using h
  have hsame : before.2.call now c = (.error e, before.2) := Prod.ext hfailed (call_error hfailed)
  simp only [run, hsame]
  rw [List.eraseIdx_append_of_length_le (Nat.le_of_eq hlength), hlength, Nat.sub_self, List.eraseIdx_cons_zero]

end Direct

/-! ## What is staged, laid over the tables -/

/-- The tables with a draft laid over them. -/
def Tables.overlay (t d : Tables) : Tables where
  accounts := Rows.putAll d.accounts t.accounts
  transfers := t.transfers ++ d.transfers
  entries := t.entries ++ d.entries

theorem Rows.putAll_put {new rows : Rows} (hnew : new.Sorted) (hrows : rows.Sorted) (a : Account) :
    putAll (put a new) rows = put a (putAll new rows) := by
  refine (hrows.putAll _).ext ((hrows.putAll new).put a) ?_
  intro id
  rw [find?_putAll (hnew.put a) hrows, find?_put hnew, find?_put (hrows.putAll new), find?_putAll hnew hrows]
  split <;> rfl

section Overlay

variable {t d : Tables} (ht : t.accounts.Sorted) (hd : d.accounts.Sorted)
  (hknown : ∀ row, d.accounts.has row = true → t.accounts.has row = true)

include ht hd

theorem Tables.find?_overlay (row : Int) : (t.overlay d).accounts.find? row = d.look t.accounts row :=
  Rows.find?_putAll hd ht row

theorem Tables.overlay_stage (a : Account) :
    t.overlay (d.stage a) = { t.overlay d with accounts := Rows.put a (t.overlay d).accounts } := by
  simp only [overlay, stage, Rows.putAll_put hd ht]

/-- A row that was only read is laid over itself. -/
theorem Tables.overlay_stage_self {row : Int} {a : Account} (ha : d.look t.accounts row = some a) :
    t.overlay (d.stage a) = t.overlay d := by
  have hfind : (t.overlay d).accounts.find? a.id = some a := by
    rw [find?_overlay ht hd, id_of_look ha, ha]
  have hsorted : (t.overlay d).accounts.Sorted := ht.putAll _
  simp only [overlay_stage ht hd, Rows.put_of_find? hsorted hfind]

include hknown in
/-- A call to a draft over the tables is a call to the two laid together. -/
theorem Direct.call_overlay (n : Counters) (now : Instant) (c : Call) :
    let staged := d.answer t.accounts (c.number n) now c
    Direct.call ⟨t.overlay d, n⟩ now c = (staged.1, ⟨t.overlay staged.2, c.draw n staged.1⟩) := by
  have hhas : ∀ row, (t.overlay d).accounts.has row = t.accounts.has row :=
    Rows.has_putAll_of_known hd ht fun a ha => hknown a.id (Rows.has_of_mem ha)
  intro staged
  subst staged
  cases c with
  | get row =>
    simp only [call, Tables.answer, Tables.find?_overlay ht hd]
    cases hlook : d.look t.accounts row with
    | none => rfl
    | some a => simp only [Tables.overlay_stage_self ht hd hlook, Call.draw]
  | update row balance =>
    simp only [call, Tables.answer, Tables.find?_overlay ht hd]
    cases d.look t.accounts row with
    | none => rfl
    | some a => simp only [Tables.overlay_stage ht hd, Call.draw]
  | insertTransfer order =>
    simp only [call, Tables.answer, hhas]
    split
    · rfl
    split
    · rfl
    split
    · rfl
    · simp only [Tables.overlay, List.append_assoc, Call.draw, Call.number]
  | insertEntry account amount =>
    simp only [call, Tables.answer, hhas]
    split
    · rfl
    · simp only [Tables.overlay, List.append_assoc, Call.draw, Call.number]

end Overlay

/-! ## A transaction that is alone -/

namespace Store

/-- Puts calls to an owner's transaction one after the other. One that has to wait has no
    answer. -/
def ask (s : Store) (o : Nat) : List (Call × Instant) → List (Option Exchange) × Store
  | [] => ([], s)
  | (c, now) :: calls =>
    let (answers, after) := (s.apply (.call o c now)).ask o calls
    (s.exchange? (.operation (.call o c now)) :: answers, after)

/-- What there would be if a transaction had written at once. -/
def direct (s : Store) (x : Transaction) : Direct := ⟨s.tables.publish x, s.next⟩

variable {s : Store} {o : Nat} {x : Transaction}

/-- One call to the only transaction. -/
theorem Alone.call {l : Transcript} (h : s.Alone o x) (hl : Written s.tables.accounts l x.draft) (c : Call)
    (now : Instant) :
    ∃ r x', s.exchange? (.operation (.call o c now)) = some ⟨c, r⟩ ∧ (s.apply (.call o c now)).Alone o x' ∧
      (s.apply (.call o c now)).tables = s.tables ∧
      (s.direct x).call now c = (r, (s.apply (.call o c now)).direct x') ∧
      Written s.tables.accounts (l ++ [⟨c, r⟩]) x'.draft := by
  obtain ⟨r, s', x', hc, ha, halone⟩ := Watch.Alone.ready h c now
  have happly : s.apply (.call o c now) = s' := by rw [apply, hc]
  have hdirect := Direct.call_overlay h.sound.sorted hl.sorted (fun row => hl.known) s.next now c
  have hnext : s'.next = c.draw s.next r := call_next h.tx hc
  rw [ha.answer] at hdirect
  refine ⟨r, x', ?_, ?_, ?_, ?_, ?_⟩
  · simp only [exchange?, hc]
  · rw [happly]
    exact halone { store := s' } rfl
  · rw [happly, ha.tables]
  · have hpublish : (s.tables.overlay x'.draft) = s'.tables.publish x' := by
      rw [ha.tables]
      rfl
    rw [happly, direct, direct, ← hpublish, hnext]
    exact hdirect
  · have hwritten := hl.snoc c (c.number s.next) now
    rwa [ha.answer] at hwritten

/-- All calls to the only transaction. -/
theorem Alone.ask {l : Transcript} (h : s.Alone o x) (hl : Written s.tables.accounts l x.draft)
    (calls : List (Call × Instant)) :
    ∃ x', (s.ask o calls).2.Alone o x' ∧ (s.ask o calls).2.tables = s.tables ∧
      (s.ask o calls).1 = ((s.direct x).run calls).1.map some ∧
      (s.ask o calls).2.direct x' = ((s.direct x).run calls).2 ∧
      Written s.tables.accounts (l ++ ((s.direct x).run calls).1) x'.draft := by
  induction calls generalizing s x l with
  | nil => exact ⟨x, h, rfl, rfl, rfl, (List.append_nil l).symm ▸ hl⟩
  | cons call calls ih =>
    obtain ⟨c, now⟩ := call
    obtain ⟨r, x₁, hanswer, halone, htables, hdirect, hwritten⟩ := h.call hl c now
    rw [← htables] at hwritten
    obtain ⟨x', halone', htables', hanswers, hdirect', hwritten'⟩ := ih halone hwritten
    simp only [Store.ask, Direct.run, hdirect, hanswer, hanswers, List.map_cons]
    refine ⟨x', halone', htables'.trans htables, trivial, hdirect', ?_⟩
    rw [htables, List.append_assoc] at hwritten'
    exact hwritten'

/-- From a store at rest: the answers, the three ends, and the draft that was written. -/
theorem Idle.ask (h : s.Idle) (o : Nat) (calls : List (Call × Instant)) :
    let staged := (s.begin o).ask o calls
    let direct := Direct.run ⟨s.tables, s.next⟩ calls
    staged.1 = direct.1.map some ∧
      staged.2.tables = s.tables ∧
      staged.2.commit o = (.ok (), { tables := direct.2.tables, next := direct.2.next }) ∧
      staged.2.forget o = { tables := s.tables, next := direct.2.next } ∧
      ∃ x, staged.2.tx? o = some x ∧ Written s.tables.accounts direct.1 x.draft := by
  intro staged direct
  have hbegin : (s.begin o).direct { owner := o } = ⟨s.tables, s.next⟩ := by
    simp only [Store.direct, Tables.publish, begin_tables, begin_next, List.append_nil]
    rfl
  obtain ⟨x, halone, htables, hanswers, hdirect, hwritten⟩ := (h.alone_begin o).ask (l := []) .nil calls
  rw [hbegin] at hanswers hdirect hwritten
  have hthere : ∀ a ∈ x.accounts, staged.2.tables.accounts.has a.id = true := by
    intro a ha
    rw [htables]
    exact hwritten.known (Rows.has_of_mem ha)
  have hpublished : staged.2.tables.publish x = direct.2.tables := congrArg Direct.tables hdirect
  have hnext : staged.2.next = direct.2.next := congrArg Direct.next hdirect
  refine ⟨hanswers, htables, ?_, ?_, x, halone.tx, hwritten⟩
  · rw [commit_of_known halone.tx hthere, halone.forget, hpublished, hnext]
  · rw [halone.forget, htables, hnext]
    rfl

end Store

theorem Bank.rollback_store {b : Bank} {o : Nat} {x : Transaction} (h : b.store.tx? o = some x) :
    (b.rollback o).store = b.store.forget o := by
  simp only [rollback, h, report, write]

/-- Calls in a transaction that has the store to itself come to what they would come to if
    each had written to the tables at once, in whatever state the store was. The answers are
    the same; a commit succeeds and leaves the same tables; a rollback, or dropping the
    transaction, leaves the tables as they were; and the next ids are the same each time. A
    transaction reads what it wrote last itself, and a call that failed might as well not have
    been made. -/
theorem staged_as_direct {s : Store} (h : s.Idle) (o : Nat) (calls : List (Call × Instant)) :
    let staged := (s.begin o).ask o calls
    let direct := Direct.run ⟨s.tables, s.next⟩ calls
    staged.1 = direct.1.map some ∧
      staged.2.tables = s.tables ∧
      staged.2.commit o = (.ok (), { tables := direct.2.tables, next := direct.2.next }) ∧
      staged.2.forget o = { tables := s.tables, next := direct.2.next } ∧
      (∀ b : Bank, b.store = staged.2 → (b.rollback o).store = { tables := s.tables, next := direct.2.next }) ∧
      (∀ l row a l', direct.1 = l ++ ⟨.get row, .ok a⟩ :: l' →
        (s.account? row).map (Transcript.leave l) = some a) ∧
      ∀ earlier c now later e, calls = earlier ++ (c, now) :: later →
        staged.1[earlier.length]? = some (some ⟨c, .error e⟩) →
        ((s.begin o).ask o (earlier ++ later)).1 = staged.1.eraseIdx earlier.length ∧
          ((s.begin o).ask o (earlier ++ later)).2.commit o = staged.2.commit o := by
  intro staged direct
  obtain ⟨hanswers, htables, hcommit, hdrop, x, hx, hwritten⟩ := h.ask o calls
  refine ⟨hanswers, htables, hcommit, hdrop, ?_, ?_, ?_⟩
  · intro b hb
    rw [Bank.rollback_store (hb ▸ hx), hb, hdrop]
  · intro l row a l' hl
    exact (hl ▸ hwritten).read
  · intro earlier c now later e hcalls hfailed
    obtain ⟨hanswers', -, hcommit', -⟩ := h.ask o (earlier ++ later)
    rw [hanswers, hcalls, List.getElem?_map] at hfailed
    obtain ⟨failed, hposition, hfailed⟩ := Option.map_eq_some_iff.1 hfailed
    have hwithout := Direct.run_without (hposition.trans hfailed)
    rw [hanswers', hcommit', hanswers, hcommit, hwithout, List.eraseIdx_map, ← hcalls]
    exact ⟨rfl, rfl⟩

/-- Two calls fail, one account is written twice and read in between. -/
theorem staged_as_direct_rewritten :
    let anna (balance : Int) : Account := ⟨1, "anna", "USD", balance, .epoch⟩
    let ben : Account := ⟨2, "ben", "USD", 50, .epoch⟩
    let s : Store := { tables := { accounts := [anna 100, ben] }, next := ⟨3, 1, 1⟩ }
    let calls : List (Call × Instant) := [(.update 1 70, .epoch), (.get 1, .epoch), (.update 9 5, .epoch),
      (.insertTransfer ⟨1, 2, 0⟩, .epoch), (.update 1 60, .epoch), (.insertEntry 1 (-40), .epoch)]
    let staged := (s.begin 7).ask 7 calls
    s.Idle ∧
      staged.1 = [some ⟨.update 1 70, .ok (anna 70)⟩, some ⟨.get 1, .ok (anna 70)⟩,
        some ⟨.update 9 5, .error (.accountNotFound 9)⟩,
        some ⟨.insertTransfer ⟨1, 2, 0⟩, .error (.storage (.amountNotPositive 0))⟩,
        some ⟨.update 1 60, .ok (anna 60)⟩, some ⟨.insertEntry 1 (-40), .ok ⟨1, 1, -40, .epoch⟩⟩] ∧
      staged.2.commit 7 = (.ok (), { tables := { accounts := [anna 60, ben], entries := [⟨1, 1, -40, .epoch⟩] }
                                     next := ⟨3, 1, 2⟩ }) ∧
      staged.2.forget 7 = { tables := { accounts := [anna 100, ben] }, next := ⟨3, 1, 2⟩ } ∧
      ((s.begin 7).ask 7 (calls.eraseIdx 2)).2.commit 7 = staged.2.commit 7 := by
  intro anna ben s calls staged
  have hsorted : s.tables.accounts.Pairwise (·.id < ·.id) := by decide
  have hidle : s.Idle := ⟨rfl, rfl, hsorted⟩
  obtain ⟨hanswers, -, hcommit, hdrop, -, -, hwithout⟩ := staged_as_direct hidle 7 calls
  exact ⟨hidle, hanswers, hcommit, hdrop, (hwithout (calls.take 2) _ _ (calls.drop 3) _ rfl (by rw [hanswers]; rfl)).2⟩

end Giro
