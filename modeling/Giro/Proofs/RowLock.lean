import Giro.Proofs.Serial

/-
  Giro.Proofs.RowLock — what the lock of a row is good for, whatever anybody does.

  A call that takes a row finds its lock, takes it once nobody holds it, and then reads the
  row. `Store.call` does the three at once; here they are steps of their own as well
  (`Store.seek`, `Store.lock`), so that anything may come between them, and whoever lined up
  may get the lock first (`call_eq_seek_lock` puts them together again).

  A visit is a store with what each open transaction read of a row at first and which rows
  it changed. `Visit.Kept` is what every step keeps, `Kept.step` the step and `kept_run` the
  run. Main statement: `rowLocks_run`.
-/

namespace Giro

namespace Store

/-! ## A call for a row, in three steps -/

/-- Finds the lock of a row and lines up for it, also if it is free. -/
def seek (s : Store) (o : Nat) (row : Int) : Store :=
  match s.tx? o with
  | none => s
  | some x => if x.held.contains row || !s.tables.accounts.has row then s else s.enqueue o row

/-- Takes the lock of a row that the owner lined up for, if nobody holds it, and reads nothing. -/
def lock (s : Store) (o : Nat) (row : Int) : Store :=
  match s.tx? o with
  | none => s
  | some x =>
    if s.waiting.contains ⟨o, row⟩ && s.txs.all (fun y => !y.held.contains row) then
      { s with waiting := s.waiting.erase ⟨o, row⟩ }.setTx { x with held := x.held ++ [row] }
    else s

variable {s : Store} {x : Transaction} {o p : Nat} {row : Int}

theorem seek_eq (s : Store) (o : Nat) (row : Int) :
    s.seek o row = s ∨ (∃ x, s.tx? o = some x) ∧ s.seek o row = s.enqueue o row := by
  unfold seek
  split
  · exact .inl rfl
  · rename_i x hx
    split
    · exact .inl rfl
    · exact .inr ⟨⟨x, hx⟩, rfl⟩

/-- What `lock` does: nothing, or it gives the owner a row that nobody holds. -/
inductive Locked (s : Store) (o : Nat) (row : Int) : Store → Prop
  | same : Locked s o row s
  | taken {x : Transaction} : s.tx? o = some x → (∀ y ∈ s.txs, row ∉ y.held) →
      Locked s o row ({ s with waiting := s.waiting.erase ⟨o, row⟩ }.setTx { x with held := x.held ++ [row] })

theorem locked (s : Store) (o : Nat) (row : Int) : Locked s o row (s.lock o row) := by
  unfold lock
  split
  · exact .same
  · rename_i x hx
    split
    · rename_i h
      refine .taken hx ?_
      have hfree := (Bool.and_eq_true _ _ ▸ h).2
      simpa using hfree
    · exact .same

theorem tx?_taken (hx : s.tx? o = some x) (waiting : List Request) (held : List Int) (p : Nat) :
    ({ s with waiting }.setTx { x with held }).tx? p = if p = o then some { x with held } else s.tx? p := by
  rw [tx?_setTx]
  have ho := owner_of_tx? hx
  by_cases hp : p = o
  · subst hp
    have htx : ({ s with waiting } : Store).tx? p = some x := hx
    simp [ho, htx]
  · rw [if_neg (by rwa [ho]), if_neg hp]
    rfl

/-- Lining up and being served at once leaves the line as it was without the owner's place. -/
theorem erase_enqueue (s : Store) (o : Nat) (row : Int) :
    (s.enqueue o row).waiting.erase ⟨o, row⟩ = s.waiting.erase ⟨o, row⟩ := by
  unfold enqueue
  split
  · rfl
  · rename_i hnot
    have hmem : (⟨o, row⟩ : Request) ∉ s.waiting := by simpa using hnot
    rw [List.erase_append_right _ hmem, List.erase_of_not_mem hmem]
    simp

theorem mem_enqueue (s : Store) (o : Nat) (row : Int) : ⟨o, row⟩ ∈ (s.enqueue o row).waiting := by
  unfold enqueue
  split
  · rename_i h; simpa using h
  · simp

theorem lock_eq (hx : s.tx? o = some x) (hline : ⟨o, row⟩ ∈ s.waiting) (hfree : ∀ y ∈ s.txs, row ∉ y.held) :
    s.lock o row = { s with waiting := s.waiting.erase ⟨o, row⟩ }.setTx { x with held := x.held ++ [row] } := by
  have hcond : (s.waiting.contains ⟨o, row⟩ && s.txs.all fun y => !y.held.contains row) = true := by
    simpa using ⟨hline, hfree⟩
  unfold lock
  simp only [hx, hcond, if_true]

theorem seek_lock (hx : s.tx? o = some x) (hh : row ∉ x.held)
    (hthere : ⟨o, row⟩ ∈ s.waiting ∨ s.tables.accounts.has row = true) (hfree : ∀ y ∈ s.txs, row ∉ y.held) :
    (s.seek o row).lock o row =
      { s with waiting := s.waiting.erase ⟨o, row⟩ }.setTx { x with held := x.held ++ [row] } := by
  cases hhas : s.tables.accounts.has row with
  | false =>
    have hseek : s.seek o row = s := by simp [seek, hx, hhas]
    rw [hseek]
    exact lock_eq hx (hthere.resolve_right (by simp [hhas])) hfree
  | true =>
    have hseek : s.seek o row = s.enqueue o row := by simp [seek, hx, hhas, hh]
    rw [hseek, lock_eq (by rwa [tx?_of_txs (enqueue_txs ..)]) (mem_enqueue s o row) (by rwa [enqueue_txs]),
      erase_enqueue]
    unfold enqueue
    split <;> rfl

/-- Reading a row whose lock has just been taken. -/
theorem stage_taken (s : Store) (x : Transaction) (row : Int) : (s.setTx x).stage x row = s.stage x row := by
  unfold stage
  have hrow : (s.setTx x).account? row = s.account? row := rfl
  rw [hrow]
  split <;> exact congrArg (Prod.mk _) (setTx_setTx s rfl)

/-- A call that takes a free row finds the lock, takes it and reads, with nothing in between. -/
theorem call_eq_seek_lock (hx : s.tx? o = some x) {c : Call} (hc : c.row? = some row)
    (hn : x.accounts.find? row = none) (hh : row ∉ x.held)
    (hthere : ⟨o, row⟩ ∈ s.waiting ∨ s.tables.accounts.has row = true) (hf : s.isFreeFor o row = true) (now : Instant) :
    s.call o c now = ((s.seek o row).lock o row).call o c now := by
  have ho := owner_of_tx? hx
  subst ho
  rw [seek_lock hx hh hthere fun y hy => not_held_of_isFreeFor hf hy]
  have htx := (tx?_taken hx (s.waiting.erase ⟨x.owner, row⟩) (x.held ++ [row]) x.owner).trans (if_pos rfl)
  have hget : s.get x row = ({ s with waiting := s.waiting.erase ⟨x.owner, row⟩ }.setTx
      { x with held := x.held ++ [row] }).get { x with held := x.held ++ [row] } row := by
    have hcond : (s.waiting.contains ⟨x.owner, row⟩ || s.tables.accounts.has row) = true := by simpa using hthere
    rw [get, get]
    simp only [hn, hcond, hf, stage_taken]
    simp [hh]
  cases c with
  | get r =>
    cases hc
    simp only [call, hx, htx, hget]
  | update r balance =>
    cases hc
    simp only [call, hx, htx, update, hget]
  | insertTransfer order => cases hc
  | insertEntry account amount => cases hc

/-! ## The locks stay sound -/

theorem Sound.seek (h : s.Sound) (o : Nat) (row : Int) : (s.seek o row).Sound := by
  rcases s.seek_eq o row with he | ⟨-, he⟩ <;> rw [he]
  · exact h
  · exact h.ofTxs (enqueue_txs ..) (by rw [enqueue_tables]; exact h.sorted)

/-- A lock that is taken was free, and nothing is staged with it. -/
theorem Sound.lock (h : s.Sound) (o : Nat) (row : Int) : (s.lock o row).Sound := by
  have hlocked := s.locked o row
  generalize s.lock o row = s' at hlocked ⊢
  cases hlocked with
  | same => exact h
  | @taken x hx hfree =>
    have htx := tx?_taken hx (s.waiting.erase ⟨o, row⟩) (x.held ++ [row])
    refine ⟨?_, h.sorted, ?_, ?_, ?_⟩
    · rw [owners_setTx]
      exact h.owners
    · intro p y hy
      rw [htx] at hy
      split at hy
      · cases hy
        show x.accounts.Sorted
        exact h.drafts hx
      · exact h.drafts hy
    · intro p y hy r hr
      rw [htx] at hy
      split at hy
      · cases hy
        exact List.mem_append_left _ (h.guarded hx r hr)
      · exact h.guarded hy r hr
    · have hother : ∀ {q : Nat} {z : Transaction} {r : Int}, s.tx? q = some z → r ∈ x.held ++ [row] → r ∈ z.held →
          o = q := by
        intro q z r hz hr hrz
        rcases List.mem_append.1 hr with hr | hr
        · exact h.exclusive hx hz hr hrz
        · rw [List.mem_singleton.1 hr] at hrz
          exact absurd hrz (hfree z (mem_of_tx? hz))
      intro p q y z r hy hz hry hrz
      rw [htx] at hy hz
      split at hy <;> split at hz
      · rename_i hp hq; rw [hp, hq]
      · rename_i hp _; cases hy; rw [hp]; exact hother hz hry hrz
      · rename_i _ hq; cases hz; rw [hq]; exact (hother hy hrz hry).symm
      · exact h.exclusive hy hz hry hrz

/-! ## Whoever waits has an open transaction -/

theorem seek_line (hline : ∀ r ∈ s.waiting, ∃ x, s.tx? r.owner = some x) (o : Nat) (row : Int) :
    ∀ r ∈ (s.seek o row).waiting, ∃ x, (s.seek o row).tx? r.owner = some x := by
  rcases s.seek_eq o row with he | ⟨⟨x, hx⟩, he⟩ <;> rw [he]
  · exact hline
  · exact enqueue_line hline hx row

theorem lock_line (hline : ∀ r ∈ s.waiting, ∃ x, s.tx? r.owner = some x) (o : Nat) (row : Int) :
    ∀ r ∈ (s.lock o row).waiting, ∃ x, (s.lock o row).tx? r.owner = some x := by
  have hlocked := s.locked o row
  generalize s.lock o row = s' at hlocked ⊢
  cases hlocked with
  | same => exact hline
  | @taken x hx _ =>
    intro r hr
    rw [tx?_taken hx (s.waiting.erase ⟨o, row⟩) (x.held ++ [row])]
    split
    · exact ⟨_, rfl⟩
    · exact hline r (List.mem_of_mem_erase hr)

end Store

/-! ## Steps -/

/-- One step of somebody who uses the store: an operation, or a part of a call. -/
inductive Store.Step where
  | operation (op : Operation)
  | seek (owner : Nat) (row : Int)
  | lock (owner : Nat) (row : Int)

/-- The row that a call changes. -/
def Call.changes : Call → Option Int
  | update row _ => some row
  | _ => none

/-- A store with what its open transactions have read and changed. -/
structure Visit where
  store : Store := {}
  /-- The row as it stood in the tables when an owner's transaction was first answered about it. -/
  first : Nat → Int → Option Account := fun _ _ => none
  /-- The rows that an owner's transaction has changed. -/
  changed : Nat → List Int := fun _ => []

namespace Visit

/-- What the answer to a call adds: a first look at a row, and a change. -/
def noted (v : Visit) (o : Nat) (c : Call) : Poll (Outcome c.Reply) → (Int → Option Account) × List Int
  | .ready (.ok _) =>
    match c.row? with
    | some row =>
      (Function.update (v.first o) row ((v.first o row).or (v.store.account? row)), c.changes.toList ++ v.changed o)
    | none => (v.first o, v.changed o)
  | _ => (v.first o, v.changed o)

def apply (v : Visit) (op : Operation) : Visit where
  store := v.store.apply op
  first := match op with
    | .begin o => Function.update v.first o fun _ => none
    | .call o c now => Function.update v.first o (v.noted o c (v.store.call o c now).1).1
    | _ => v.first
  changed := match op with
    | .begin o => Function.update v.changed o []
    | .call o c now => Function.update v.changed o (v.noted o c (v.store.call o c now).1).2
    | _ => v.changed

def step (v : Visit) : Store.Step → Visit
  | .operation op => v.apply op
  | .seek o row => { v with store := v.store.seek o row }
  | .lock o row => { v with store := v.store.lock o row }

def run (v : Visit) (steps : List Store.Step) : Visit := steps.foldl step v

end Visit

/-! ## What a visit keeps -/

/-- What is known of an owner's transaction over rows that come and go, with the rows it
    has staged, those it read at first and those it changed: ids from `next` on are yet to
    be given. -/
structure Steady (rows : Rows) (next : Int) (staged : Rows) (first : Int → Option Account) (changed : List Int) :
    Prop where
  known : ∀ row, staged.has row = true → row < next
  unread : ∀ row, staged.has row = false → first row = none
  steady : ∀ row a b, rows.find? row = some a → staged.find? row = some b →
    first row = some a ∧ (row ∉ changed → b = a)

namespace Steady

variable {rows rows' : Rows} {next next' : Int} {staged : Rows} {first : Int → Option Account} {changed : List Int}

theorem nil (rows : Rows) (next : Int) : Steady rows next [] (fun _ => none) [] where
  known _ h := by cases h
  unread _ _ := rfl
  steady _ _ _ _ h := by cases h

/-- The rows may change where nothing is staged, and a staged row may go but not come back. -/
theorem frame (h : Steady rows next staged first changed) (hle : next ≤ next')
    (hfind : ∀ row, staged.has row = true → ∀ a, rows'.find? row = some a → rows.find? row = some a) :
    Steady rows' next' staged first changed where
  known row hrow := by have := h.known row hrow; omega
  unread := h.unread
  steady row a b ha hb := h.steady row a b (hfind row (Rows.has_of_find? hb) a ha) hb

/-- An answer about a row: its first look is at the row as it stands, and what is staged is
    what was seen, edited. -/
theorem answered {d : Tables} (h : Steady rows next d.accounts first changed) (hd : d.accounts.Sorted)
    (hrows : ∀ row, rows.has row = true → row < next) {c : Call} {id : Int} {now : Instant} {row : Int}
    (hc : c.row? = some row) (hok : (d.answer rows id now c).1.isOk = true) :
    Steady rows next (d.answer rows id now c).2.accounts (Function.update first row ((first row).or (rows.find? row)))
      (c.changes.toList ++ changed) where
  known r hr := by
    rcases Tables.has_of_has_answer hd hr with hst | ⟨-, hr⟩
    · exact h.known r hst
    · exact hrows r hr
  unread r hr := by
    have hne : r ≠ row := by
      rintro rfl
      rw [Tables.has_of_answer_ok hd hc hok] at hr
      cases hr
    have hst : d.accounts.has r = false := by
      cases hst : d.accounts.has r
      · rfl
      · rw [Tables.has_answer hd hst] at hr
        cases hr
    rw [Function.update_of_ne hne]
    exact h.unread r hst
  steady r a b ha hb := by
    rw [Tables.find?_answer hd, hc] at hb
    by_cases hr : r = row
    · subst hr
      rw [if_pos rfl] at hb
      obtain ⟨seen, hseen, rfl⟩ := Option.map_eq_some_iff.1 hb
      have hedit : r ∉ c.changes.toList ++ changed → c.edit seen = seen := by
        intro hnot
        cases c <;> simp_all [Call.changes, Call.edit, Call.row?]
      rw [Function.update_self]
      cases hst : d.accounts.find? r with
      | some b =>
        obtain ⟨hfirst, hsame⟩ := h.steady r a b ha hst
        obtain rfl : b = seen := by simpa [Tables.look, hst] using hseen
        refine ⟨by rw [hfirst, Option.some_or], ?_⟩
        intro hnot
        rw [hedit hnot]
        exact hsame fun hmem => hnot (List.mem_append_right _ hmem)
      | none =>
        obtain rfl : a = seen := by simpa [Tables.look, hst, ha] using hseen
        exact ⟨by rw [h.unread r (Rows.has_eq_false_iff.2 hst), Option.none_or, ha], hedit⟩
    · rw [if_neg (by simpa using Ne.symm hr)] at hb
      obtain ⟨hfirst, hsame⟩ := h.steady r a b ha hb
      rw [Function.update_of_ne hr]
      exact ⟨hfirst, fun hnot => hsame fun hmem => hnot (List.mem_append_right _ hmem)⟩

end Steady

namespace Visit

/-- What every step keeps: the locks are sound, ids of accounts are below the next one, who
    waits has an open transaction, and what each has staged is steady. -/
structure Kept (v : Visit) : Prop where
  sound : v.store.Sound
  known : ∀ row, v.store.tables.accounts.has row = true → row < v.store.next.account
  line : ∀ r ∈ v.store.waiting, ∃ x, v.store.tx? r.owner = some x
  steady {o : Nat} {x : Transaction} : v.store.tx? o = some x →
    Steady v.store.tables.accounts v.store.next.account x.accounts (v.first o) (v.changed o)

theorem kept_empty : Kept {} where
  sound := Store.idle_empty.sound
  known _ h := by cases h
  line _ h := by cases h
  steady h := by cases h

variable {v : Visit}

/-- A step that leaves the tables, and what is staged, read and changed. -/
theorem Kept.ofStore (h : v.Kept) {s : Store} (hs : s.Sound) (htables : s.tables = v.store.tables)
    (hnext : s.next.account = v.store.next.account) (hline : ∀ r ∈ s.waiting, ∃ x, s.tx? r.owner = some x)
    (htx : ∀ p y, s.tx? p = some y → ∃ x, v.store.tx? p = some x ∧ y.accounts = x.accounts) :
    Kept { v with store := s } where
  sound := hs
  known row hrow := by rw [hnext]; rw [htables] at hrow; exact h.known row hrow
  line := hline
  steady {p y} hy := by
    obtain ⟨x, hx, haccounts⟩ := htx p y hy
    rw [htables, hnext, haccounts]
    exact h.steady hx

theorem Kept.seek (h : v.Kept) (o : Nat) (row : Int) : (v.step (.seek o row)).Kept := by
  have hsound := h.sound.seek o row
  rw [step]
  rcases v.store.seek_eq o row with he | ⟨⟨x, hx⟩, he⟩ <;> rw [he] at hsound ⊢
  · exact h
  · refine h.ofStore hsound (Store.enqueue_tables ..) (by rw [Store.enqueue_next]) (Store.enqueue_line h.line hx row) ?_
    intro p y hy
    exact ⟨y, by rwa [Store.tx?_of_txs (Store.enqueue_txs ..)] at hy, rfl⟩

theorem Kept.lock (h : v.Kept) (o : Nat) (row : Int) : (v.step (.lock o row)).Kept := by
  have hsound := h.sound.lock o row
  have hline := Store.lock_line h.line o row
  have hlocked := v.store.locked o row
  rw [step]
  generalize v.store.lock o row = s at hsound hline hlocked ⊢
  cases hlocked with
  | same => exact h
  | @taken x hx hfree =>
    refine h.ofStore hsound rfl rfl hline ?_
    intro p y hy
    rw [Store.tx?_taken hx (v.store.waiting.erase ⟨o, row⟩) (x.held ++ [row])] at hy
    split at hy
    · rename_i hp
      cases hy
      exact ⟨x, hp ▸ hx, rfl⟩
    · exact ⟨y, hy, rfl⟩

@[simp] theorem apply_store (v : Visit) (op : Operation) : (v.apply op).store = v.store.apply op := rfl

/-- Nobody reads or changes on behalf of another owner. -/
theorem apply_of_other (v : Visit) {op : Operation} {p : Nat} (h : op.owner? ≠ some p) :
    (v.apply op).first p = v.first p ∧ (v.apply op).changed p = v.changed p := by
  cases op with
  | begin o =>
    have hp : p ≠ o := fun e => h (congrArg some e.symm)
    exact ⟨Function.update_of_ne hp .., Function.update_of_ne hp ..⟩
  | call o c now =>
    have hp : p ≠ o := fun e => h (congrArg some e.symm)
    exact ⟨Function.update_of_ne hp .., Function.update_of_ne hp ..⟩
  | _ => exact ⟨rfl, rfl⟩

/-- An answer keeps its owner's transaction steady. -/
theorem Kept.answered (h : v.Kept) {o : Nat} {x x' : Transaction} {c : Call} {id : Int} {now : Instant}
    {r : Outcome c.Reply} {s : Store} (hx : v.store.tx? o = some x) (ha : Store.Answered v.store x c id now r s x') :
    Steady v.store.tables.accounts v.store.next.account x'.accounts (v.noted o c (.ready r)).1
      (v.noted o c (.ready r)).2 := by
  have hdraft : x'.accounts = (x.draft.answer v.store.tables.accounts id now c).2.accounts := by rw [ha.answer]; rfl
  have hanswer : (x.draft.answer v.store.tables.accounts id now c).1 = r := by rw [ha.answer]
  rw [hdraft]
  cases hc : c.row? with
  | none =>
    rw [Tables.answer_accounts_of_no_row hc]
    cases r <;> simp only [noted, hc] <;> exact h.steady hx
  | some row =>
    cases r with
    | error e =>
      rcases Tables.answer_of_row? x.draft v.store.tables.accounts id now hc with ⟨-, -, hsame⟩ | ⟨a, -, hok, -⟩
      · rw [hsame]
        exact h.steady hx
      · rw [hanswer] at hok
        cases hok
    | ok reply =>
      simp only [noted, hc]
      exact (h.steady hx).answered (d := x.draft) (h.sound.drafts hx) h.known hc (by rw [hanswer]; rfl)

theorem Kept.apply (h : v.Kept) (op : Operation) : (v.apply op).Kept := by
  refine ⟨h.sound.apply op, h.sound.known_apply h.known op, Store.apply_line h.sound h.line op, fun {p x} hx => ?_⟩
  by_cases howner : op.owner? = some p
  · cases op with
    | createAccount owner currency balance now => cases howner
    | clear => cases howner
    | begin o =>
      cases howner
      rw [apply_store, Store.apply, Store.tx?_begin, if_pos rfl] at hx
      cases hx
      have hfirst : (v.apply (.begin p)).first p = fun _ => none := Function.update_self ..
      have hchanged : (v.apply (.begin p)).changed p = [] := Function.update_self ..
      rw [hfirst, hchanged]
      exact .nil _ _
    | call o c now =>
      cases howner
      simp only [Visit.apply, Function.update_self] at hx ⊢
      rcases hc : v.store.call p c now with ⟨r, s'⟩
      rw [Store.apply, hc] at hx ⊢
      cases hc ▸ Store.asked h.sound p c now with
      | ended hn =>
        rw [hn] at hx
        cases hx
      | answered hy ha =>
        rw [ha.tx? hy, if_pos rfl] at hx
        cases hx
        rw [ha.tables, ha.nextAccount]
        exact h.answered hy ha
      | waits =>
        rw [Store.tx?_of_txs (Store.enqueue_txs ..)] at hx
        rw [Store.enqueue_tables, Store.enqueue_next]
        exact h.steady hx
    | leave o => exact h.steady hx
    | commit o =>
      cases howner
      rcases hc : v.store.commit p with ⟨r, s'⟩
      rw [apply_store, Store.apply, hc, (Store.commit_ends hc).1] at hx
      cases hx
    | drop o =>
      cases howner
      rw [apply_store, Store.apply, Store.tx?_forget, if_pos rfl] at hx
      cases hx
  · obtain ⟨hfirst, hchanged⟩ := v.apply_of_other howner
    rw [hfirst, hchanged]
    have hy : v.store.tx? p = some x := by rwa [apply_store, (Store.apply_others h.sound howner).1] at hx
    refine (h.steady hy).frame (Store.nextAccount_le_apply h.sound op) ?_
    intro row hrow a ha
    refine h.sound.find?_of_apply hy ?_ hrow ((h.steady hy).known row hrow) ha
    rintro rfl
    exact howner rfl

theorem Kept.step (h : v.Kept) (st : Store.Step) : (v.step st).Kept := by
  cases st with
  | operation op => exact h.apply op
  | seek o row => exact h.seek o row
  | lock o row => exact h.lock o row

theorem Kept.run (h : v.Kept) (steps : List Store.Step) : (v.run steps).Kept := by
  induction steps generalizing v with
  | nil => exact h
  | cons st steps ih => exact ih (h.step st)

theorem kept_run (steps : List Store.Step) : (({} : Visit).run steps).Kept := kept_empty.run steps

end Visit

/-! ## When every transaction has ended -/

/-- The only transaction there is gets every row that it asks for, at once. -/
theorem Watch.Alone.locks {w : Watch} {o : Nat} {x : Transaction} (h : w.Alone o x) {rows : List Int}
    (hrows : ∀ row ∈ rows, w.store.tables.accounts.has row = true) (now : Instant) :
    ∃ x', (w.run (rows.map fun row => .call o (.get row) now)).Alone o x' ∧
      ∀ row, x.accounts.has row = true ∨ row ∈ rows → x'.accounts.has row = true := by
  induction rows generalizing w x with
  | nil => exact ⟨x, h, fun row hrow => hrow.resolve_right (List.not_mem_nil)⟩
  | cons row rows ih =>
    obtain ⟨hrow, hrest⟩ := List.forall_mem_cons.1 hrows
    obtain ⟨id, x₁, halone, htables, hdraft, -⟩ := h.call (.get row) now
    have hd : x.draft.accounts.Sorted := h.sound.drafts h.tx
    have hstaged : x₁.accounts = (x.draft.answer w.store.tables.accounts id now (.get row)).2.accounts :=
      congrArg Tables.accounts hdraft
    obtain ⟨x', halone', hstill⟩ := ih halone (by rw [htables]; exact hrest)
    refine ⟨x', halone', ?_⟩
    intro r hr
    refine hstill r ?_
    rcases hr with hr | hr
    · left
      rw [hstaged]
      exact Tables.has_answer hd hr
    · rcases List.mem_cons.1 hr with rfl | hr
      · left
        rw [hstaged, Rows.has, Tables.find?_answer hd, if_pos (show (Call.get r).row? = some r from rfl),
          Option.isSome_map, Tables.isSome_look, hrow, Bool.or_true]
      · exact .inr hr

/-- In a store at rest one new transaction can lock any rows there are, without waiting. -/
theorem Store.Idle.locks {s : Store} (h : s.Idle) (o : Nat) (now : Instant) {rows : List Int}
    (hrows : ∀ row ∈ rows, s.tables.accounts.has row = true) :
    ∃ x, ((s.begin o).run (rows.map fun row => .call o (.get row) now)).tx? o = some x ∧
      ∀ row ∈ rows, row ∈ x.held := by
  let w : Watch := { store := s }
  have hidle : w.store.Idle := h
  obtain ⟨x, halone, hstaged⟩ := (Watch.alone_begin hidle o).locks hrows now
  have hstore := Watch.run_store (w.apply (.begin o)) (rows.map fun row => .call o (.get row) now)
  refine ⟨x, ?_, ?_⟩
  · have := halone.tx
    rwa [hstore] at this
  · intro row hrow
    exact halone.sound.guarded halone.tx row (hstaged row (.inr hrow))

namespace Visit

/-- Whatever steps there were since the store was empty:
    no row is locked by two open transactions; what one has staged it has locked; the
    committed row of a staged account, if there still is one, is the one that was read at
    first, and the staged copy equals it unless it was changed; a row that is not free is
    locked by an open transaction, or one waits for it; and when no transaction is open, a
    new one can lock all the rows there are, each at once. -/
theorem rowLocks_run (steps : List Store.Step) :
    let v := ({} : Visit).run steps
    let s := v.store
    (∀ x ∈ s.txs, ∀ y ∈ s.txs, ∀ row, row ∈ x.held → row ∈ y.held → x = y) ∧
    (∀ x ∈ s.txs, ∀ a ∈ x.accounts, a.id ∈ x.held) ∧
    (∀ x ∈ s.txs, ∀ row a b, s.account? row = some a → x.accounts.find? row = some b →
      v.first x.owner row = some a ∧ (row ∉ v.changed x.owner → b = a)) ∧
    (∀ o row, s.isFreeFor o row = false → ∃ x ∈ s.txs, row ∈ x.held ∨ ⟨x.owner, row⟩ ∈ s.waiting) ∧
    (s.txs = [] → ∀ o now (rows : List Int), (∀ row ∈ rows, s.tables.accounts.has row = true) →
      ∃ x, ((s.begin o).run (rows.map fun row => .call o (.get row) now)).tx? o = some x ∧
        ∀ row ∈ rows, row ∈ x.held) := by
  intro v s
  have h : v.Kept := kept_run steps
  have htx {x : Transaction} (hx : x ∈ s.txs) : s.tx? x.owner = some x := Store.tx?_of_mem h.sound.owners hx
  refine ⟨?_, ?_, ?_, ?_, ?_⟩
  · intro x hx y hy row hrx hry
    have howner := h.sound.exclusive (htx hx) (htx hy) hrx hry
    have hx' := htx hx
    rw [howner, htx hy] at hx'
    exact (Option.some.inj hx').symm
  · intro x hx a ha
    exact h.sound.guarded (htx hx) a.id (Rows.has_of_mem ha)
  · intro x hx row a b ha hb
    exact (h.steady (htx hx)).steady row a b ha hb
  · intro o row hbusy
    rcases Store.busy hbusy with ⟨x, hx, hheld⟩ | ⟨p, hp, -⟩
    · exact ⟨x, hx, .inl hheld⟩
    · obtain ⟨x, hx⟩ := h.line _ hp
      exact ⟨x, Store.mem_of_tx? hx, .inr (by rwa [Store.owner_of_tx? hx])⟩
  · intro hidle o now rows hrows
    have hwaiting : s.waiting = [] := by
      refine List.eq_nil_iff_forall_not_mem.2 ?_
      intro r hr
      obtain ⟨x, hx⟩ := h.line r hr
      have hmem := Store.mem_of_tx? hx
      rw [show v.store.txs = [] from hidle] at hmem
      cases hmem
    exact Store.Idle.locks ⟨hidle, hwaiting, h.sound.sorted⟩ o now hrows

end Visit

end Giro
