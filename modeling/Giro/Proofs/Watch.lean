import Giro.Proofs.Operation

/-
  Giro.Proofs.Watch — a store under watch: next to it, the transcript of each open
  transaction and the transcripts of those that committed, in the order of the commits.

  The watch reads along and changes nothing (`run_store`). Two invariants tie each open
  transaction's draft to its transcript. While no account is opened and the tables are not
  emptied, the draft is what the transcript writes over the committed rows as they are now
  (`Faithful`): nobody else's commit comes in between, because of the row locks. With
  accounts that come and go the same holds of a transcript without errors, as long as the
  accounts it names are still there (`Kept`); the ids that were drawn for an account are
  known, and their rows may be put at any time (`KeptWith`). What others do
  (`Store.Others`) changes nothing about an owner (`KeptWith.others`).
-/

namespace Giro

structure Watch where
  store : Store
  /-- What each owner's transaction was asked and answered so far. -/
  logs : Nat → Transcript := fun _ => []
  committed : List Transcript := []
  /-- The ids of accounts that were drawn and whose row was not put yet. -/
  drawn : List Int := []

namespace Watch

/-- The transcripts after a look at the answer to a call. -/
def noted (logs : Nat → Transcript) (o : Nat) (c : Call) : Poll (Outcome c.Reply) → Nat → Transcript
  | .ready r => Function.update logs o (logs o ++ [⟨c, r⟩])
  | .pending => logs

def apply (w : Watch) (op : Operation) : Watch where
  store := w.store.apply op
  logs := match op with
    | .begin o => Function.update w.logs o []
    | .call o c now => noted w.logs o c (w.store.call o c now).1
    | _ => w.logs
  committed := match op with
    | .commit o =>
      match (w.store.commit o).1 with
      | .ok () => w.committed ++ [w.logs o]
      | .error _ => w.committed
    | _ => w.committed
  drawn := w.drawn

/-- Draws the id of an account that is to be opened. -/
def drawAccount (w : Watch) : Watch :=
  { w with store := w.store.drawAccount, drawn := w.drawn ++ [w.store.next.account] }

/-- Puts the row of an account whose id was drawn. -/
def putAccount (w : Watch) (a : Account) (now : Instant) : Watch :=
  { w with store := w.store.putAccount a now, drawn := w.drawn.erase a.id }

def run (w : Watch) (ops : List Operation) : Watch := ops.foldl apply w

@[simp] theorem run_nil (w : Watch) : w.run [] = w := rfl

@[simp] theorem run_cons (w : Watch) (op : Operation) (ops : List Operation) :
    w.run (op :: ops) = (w.apply op).run ops := rfl

theorem run_append (w : Watch) (ops ops' : List Operation) : w.run (ops ++ ops') = (w.run ops).run ops' :=
  List.foldl_append

@[simp] theorem apply_store (w : Watch) (op : Operation) : (w.apply op).store = w.store.apply op := rfl

theorem run_store (w : Watch) (ops : List Operation) : (w.run ops).store = w.store.run ops := by
  induction ops generalizing w with
  | nil => rfl
  | cons op ops ih => exact ih (w.apply op)

theorem run_drawn (w : Watch) (ops : List Operation) : (w.run ops).drawn = w.drawn := by
  induction ops generalizing w with
  | nil => rfl
  | cons op ops ih => exact ih (w.apply op)

/-- The transcript of an owner who does not move stays. -/
theorem apply_logs (w : Watch) {op : Operation} {p : Nat} (h : op.owner? ≠ some p) : (w.apply op).logs p = w.logs p := by
  cases op with
  | begin o => exact Function.update_of_ne (fun e => h (congrArg some e.symm)) ..
  | call o c now =>
    have hp : p ≠ o := fun e => h (congrArg some e.symm)
    simp only [apply]
    cases (w.store.call o c now).1 with
    | pending => rfl
    | ready r => exact Function.update_of_ne hp ..
  | _ => rfl

theorem apply_call (w : Watch) {o : Nat} {c : Call} {now : Instant} {r : Poll (Outcome c.Reply)} {s : Store}
    (h : w.store.call o c now = (r, s)) : (w.apply (.call o c now)).logs = noted w.logs o c r := by
  simp only [apply, h]

@[simp] theorem noted_ready (logs : Nat → Transcript) (o : Nat) (c : Call) (r : Outcome c.Reply) :
    noted logs o c (.ready r) o = logs o ++ [⟨c, r⟩] := Function.update_self ..

theorem run_logs (w : Watch) {ops : List Operation} {p : Nat} (hops : ∀ op ∈ ops, op.owner? ≠ some p) :
    (w.run ops).logs p = w.logs p := by
  induction ops generalizing w with
  | nil => rfl
  | cons op ops ih =>
    obtain ⟨hop, hops⟩ := List.forall_mem_cons.1 hops
    rw [run_cons, ih (w.apply op) hops]
    exact w.apply_logs hop

/-! ## Where an open transaction comes from -/

/-- How an operation brought about the open transaction `x` of `p`. -/
inductive Origin (w : Watch) (op : Operation) (p : Nat) (x : Transaction) : Prop
  | opened : op = .begin p → x = { owner := p } → (w.apply op).logs p = [] → Origin w op p x
  | asked {y : Transaction} {c : Call} {id : Int} {now : Instant} {r : Outcome c.Reply} : op = .call p c now →
      w.store.tx? p = some y → Store.Answered w.store y c id now r (w.apply op).store x →
      (w.apply op).logs p = w.logs p ++ [⟨c, r⟩] → Origin w op p x
  | stayed : w.store.tx? p = some x → (w.apply op).logs p = w.logs p →
      op ≠ .commit p → Origin w op p x

theorem origin (w : Watch) (h : w.store.Sound) (op : Operation) {p : Nat} {x : Transaction}
    (hx : (w.apply op).store.tx? p = some x) : Origin w op p x := by
  by_cases howner : op.owner? = some p
  · cases op with
    | createAccount owner currency balance now => cases howner
    | clear => cases howner
    | begin o =>
      obtain rfl := Option.some.inj howner
      rw [apply_store, Store.apply, Store.tx?_begin, if_pos rfl] at hx
      exact .opened rfl (Option.some.inj hx).symm (Function.update_self ..)
    | call o c now =>
      obtain rfl := Option.some.inj howner
      rcases hc : w.store.call o c now with ⟨r, s'⟩
      have hs : (w.apply (.call o c now)).store = s' := by rw [apply_store, Store.apply, hc]
      have hlogs := w.apply_call hc
      cases hc ▸ Store.asked h o c now with
      | ended hn =>
        rw [hs, hn] at hx
        cases hx
      | answered hy ha =>
        rw [hs, ha.tx? hy, if_pos rfl] at hx
        cases hx
        exact .asked rfl hy (hs ▸ ha) (by rw [hlogs]; exact Function.update_self ..)
      | waits _ _ _ _ _ =>
        rw [hs, Store.tx?_of_txs (Store.enqueue_txs ..)] at hx
        exact .stayed hx (by rw [hlogs]; rfl) (by simp)
    | leave o => exact .stayed hx rfl (by simp)
    | commit o =>
      obtain rfl := Option.some.inj howner
      rcases hc : w.store.commit o with ⟨r, s'⟩
      rw [apply_store, Store.apply, hc, (Store.commit_ends hc).1] at hx
      cases hx
    | drop o =>
      obtain rfl := Option.some.inj howner
      rw [apply_store, Store.apply, Store.tx?_forget, if_pos rfl] at hx
      cases hx
  · rw [apply_store, (Store.apply_others h howner).1] at hx
    refine .stayed hx (w.apply_logs howner) ?_
    rintro rfl
    exact howner rfl

/-! ## Over a fixed set of accounts -/

/-- Each open transaction's draft is what its transcript writes over the committed rows. -/
structure Faithful (w : Watch) : Prop where
  sound : w.store.Sound
  written {o : Nat} {x : Transaction} : w.store.tx? o = some x →
    Written w.store.tables.accounts (w.logs o) x.draft

theorem Faithful.apply {w : Watch} (h : w.Faithful) {op : Operation} (hop : op.OfTx) : (w.apply op).Faithful := by
  refine ⟨h.sound.apply op, ?_⟩
  intro p x hx
  cases w.origin h.sound op hx with
  | opened _ hx₀ hlog => rw [hlog, hx₀]; exact .nil
  | @asked y c id now r _ hy ha hlog =>
    have hw := (h.written hy).snoc c id now
    rw [ha.answer] at hw
    rwa [hlog, ha.tables]
  | stayed hp hlog hother =>
    have hw := h.written hp
    have hstep := Store.tableStep h.sound op
    rw [hlog, apply_store]
    generalize (w.store.apply op).tables = t, (w.store.apply op).next.account = n at hstep ⊢
    cases hstep with
    | same => exact hw
    | opened => cases hop
    | emptied => cases hop
    | @published o y hy hknown =>
      have hne : p ≠ o := fun e => hother (congrArg _ e.symm)
      exact hw.frame (fun id _ => h.sound.has_publish hy hknown id) fun row hrow =>
        h.sound.find?_publish hy hp hne hrow

/-! ## While accounts come and go -/

/-- What is known of a transaction's transcript `l` and draft `d` over rows that come and
    go, when the accounts that were there at some time are the `known` ones. -/
structure Tracks (rows : Rows) (known : Int → Prop) (l : Transcript) (d : Tables) : Prop where
  staged : ∀ row, d.accounts.has row = true → known row
  touched : ∀ row, d.accounts.has row = true ↔ l.Touched row
  named : l.Clean → ∀ account ∈ l.accounts, known account
  written : l.Clean → (∀ account ∈ l.accounts, rows.has account = true) → Written rows l d

namespace Tracks

variable {rows rows' : Rows} {known known' : Int → Prop} {l : Transcript} {d : Tables}

theorem nil (rows : Rows) (known : Int → Prop) : Tracks rows known [] {} where
  staged _ h := by cases h
  touched row := by simp [Transcript.Touched]
  named _ _ h := by cases h
  written _ _ := .nil

theorem snoc (h : Tracks rows known l d) (hd : d.accounts.Sorted) (hrows : ∀ row, rows.has row = true → known row)
    (c : Call) (id : Int) (now : Instant) :
    Tracks rows known (l ++ [⟨c, (d.answer rows id now c).1⟩]) (d.answer rows id now c).2 where
  staged row hrow := by
    rcases Tables.has_of_has_answer hd hrow with hst | ⟨-, hr⟩
    · exact h.staged row hst
    · exact hrows row hr
  touched row := by
    rw [Transcript.touched_snoc, ← h.touched]
    constructor
    · intro hrow
      rcases Tables.has_of_has_answer hd hrow with hst | ⟨hc, hr⟩
      · exact .inl hst
      · exact .inr ⟨hc, Tables.isOk_answer hc hr⟩
    · rintro (hst | ⟨hc, hok⟩)
      · exact Tables.has_answer hd hst
      · exact Tables.has_of_answer_ok hd hc hok
  named hclean account ha := by
    obtain ⟨hl, hok⟩ := Transcript.clean_snoc.1 hclean
    rw [Transcript.accounts_append, List.mem_append, Transcript.accounts_singleton] at ha
    rcases ha with ha | ha
    · exact h.named hl account ha
    · exact (Tables.known_of_answer_ok hok ha).elim (h.staged account) (hrows account)
  written hclean hthere := by
    obtain ⟨hl, -⟩ := Transcript.clean_snoc.1 hclean
    exact (h.written hl fun a ha => hthere a (by simp [ha])).snoc c id now

/-- The rows may change where the draft has staged nothing, and no account known before
    may come back. -/
theorem frame (h : Tracks rows known l d) (hle : ∀ row, known row → known' row)
    (hthere : ∀ row, known row → rows'.has row = true → rows.has row = true)
    (hfind : ∀ row, d.accounts.has row = true → rows'.has row = true → rows'.find? row = rows.find? row) :
    Tracks rows' known' l d where
  staged row hrow := hle row (h.staged row hrow)
  touched := h.touched
  named hl account ha := hle account (h.named hl account ha)
  written hl hall := by
    have hall' : ∀ account ∈ l.accounts, rows.has account = true := fun a ha =>
      hthere a (h.named hl a ha) (hall a ha)
    have hw := h.written hl hall'
    exact hw.frame (fun a ha => by rw [hall a ha, hall' a ha]) fun row hrow =>
      hfind row hrow (hall row (hw.named hrow))

end Tracks

/-- The id was given to an account whose row was put. The row may be gone since. -/
def Known (w : Watch) (row : Int) : Prop := row < w.store.next.account ∧ row ∉ w.drawn

/-- An id is given once and put once, and every open transaction's draft tracks its
    transcript. -/
structure Kept (w : Watch) : Prop where
  sound : w.store.Sound
  drawn : w.drawn.Nodup
  issued : ∀ id ∈ w.drawn, id < w.store.next.account
  known : ∀ row, w.store.tables.accounts.has row = true → w.Known row
  tracks {o : Nat} {x : Transaction} : w.store.tx? o = some x →
    Tracks w.store.tables.accounts w.Known (w.logs o) x.draft

/-- An id that was drawn and not put has no row. -/
theorem Kept.has_eq_false {w : Watch} (h : w.Kept) {id : Int} (hid : id ∈ w.drawn) :
    w.store.tables.accounts.has id = false := by
  cases hrow : w.store.tables.accounts.has id with
  | false => rfl
  | true => exact absurd hid (h.known id hrow).2

theorem Kept.known_apply {w : Watch} (h : w.Kept) (op : Operation) {row : Int} (hrow : w.Known row) :
    (w.apply op).Known row :=
  ⟨Int.lt_of_lt_of_le hrow.1 (Store.nextAccount_le_apply h.sound op), hrow.2⟩

theorem Kept.apply {w : Watch} (h : w.Kept) (op : Operation) : (w.apply op).Kept where
  sound := h.sound.apply op
  drawn := h.drawn
  issued id hid := Int.lt_of_lt_of_le (h.issued id hid) (Store.nextAccount_le_apply h.sound op)
  known row hrow := by
    refine ⟨h.sound.known_apply (fun row hrow => (h.known row hrow).1) op row hrow, ?_⟩
    intro hdrawn
    exact (h.known row (h.sound.has_of_apply (h.issued row hdrawn) hrow)).2 hdrawn
  tracks {p x} hx := by
    cases w.origin h.sound op hx with
    | opened _ hx₀ hlog => rw [hlog, hx₀]; exact .nil _ _
    | @asked y c id now r _ hy ha hlog =>
      have ht := (h.tracks hy).snoc (h.sound.drafts hy) h.known c id now
      rw [ha.answer] at ht
      rw [hlog, ha.tables]
      exact ht.frame (fun _ => h.known_apply op) (fun _ _ hhas => hhas) fun _ _ _ => rfl
    | stayed hp hlog hother =>
      have ht := h.tracks hp
      rw [hlog]
      refine ht.frame (fun _ => h.known_apply op) (fun row hknown => h.sound.has_of_apply hknown.1) ?_
      intro row hrow hhas
      obtain ⟨a, ha⟩ := Option.isSome_iff_exists.1 hhas
      rw [apply_store] at ha ⊢
      rw [ha, h.sound.find?_of_apply hp hother hrow (ht.staged row hrow).1 ha]

theorem Kept.drawAccount {w : Watch} (h : w.Kept) : w.drawAccount.Kept := by
  have hknown : ∀ row, w.Known row → w.drawAccount.Known row := by
    rintro row ⟨hlt, hdrawn⟩
    refine ⟨Int.lt_trans hlt (Int.lt_succ _), ?_⟩
    simpa [Watch.drawAccount, hdrawn] using Int.ne_of_lt hlt
  constructor
  · exact h.sound.ofTxs rfl h.sound.sorted
  · refine h.drawn.append (List.nodup_singleton _) ?_
    intro id hid hnext
    obtain rfl := List.mem_singleton.1 hnext
    exact Int.lt_irrefl _ (h.issued _ hid)
  · intro id hid
    rcases List.mem_append.1 hid with hid | hid
    · exact Int.lt_trans (h.issued id hid) (Int.lt_succ _)
    · obtain rfl := List.mem_singleton.1 hid
      exact Int.lt_succ _
  · exact fun row hrow => hknown row (h.known row hrow)
  · exact fun hx => (h.tracks hx).frame hknown (fun _ _ => id) fun _ _ _ => rfl

/-- A row that is put was not there, and no transcript knows it. -/
theorem Kept.putAccount {w : Watch} (h : w.Kept) {a : Account} (ha : a.id ∈ w.drawn) (now : Instant) :
    (w.putAccount a now).Kept := by
  have hknown : ∀ row, w.Known row → (w.putAccount a now).Known row := by
    rintro row ⟨hlt, hdrawn⟩
    refine ⟨?_, fun hmem => hdrawn (List.mem_of_mem_erase hmem)⟩
    show row < (w.store.putAccount a now).next.account
    rwa [Store.putAccount_nextAccount]
  have hother {row : Int} (hrow : w.Known row) : row ≠ a.id := fun e => hrow.2 (e ▸ ha)
  have haccounts : (w.putAccount a now).store.tables.accounts = Rows.put a w.store.tables.accounts :=
    Store.putAccount_accounts ..
  constructor
  · exact h.sound.ofTxs (Store.putAccount_txs ..) (by rw [haccounts]; exact h.sound.sorted.put a)
  · exact h.drawn.erase _
  · intro id hid
    show id < (w.store.putAccount a now).next.account
    rw [Store.putAccount_nextAccount]
    exact h.issued id (List.mem_of_mem_erase hid)
  · intro row hrow
    rw [haccounts, Rows.has_put h.sound.sorted, Bool.or_eq_true, decide_eq_true_iff] at hrow
    rcases hrow with rfl | hrow
    · refine ⟨?_, h.drawn.not_mem_erase⟩
      show a.id < (w.store.putAccount a now).next.account
      rw [Store.putAccount_nextAccount]
      exact h.issued _ ha
    · exact hknown row (h.known row hrow)
  · intro p x hx
    have ht := h.tracks (o := p) (x := x) (by rwa [← Store.tx?_of_txs (Store.putAccount_txs w.store a now)])
    rw [haccounts]
    refine ht.frame hknown ?_ ?_
    · intro row hrow hhas
      rwa [Rows.has_put h.sound.sorted, decide_eq_false (hother hrow), Bool.false_or] at hhas
    · intro row hrow _
      rw [Rows.find?_put h.sound.sorted, if_neg (hother (ht.staged row hrow))]

theorem Kept.run {w : Watch} (h : w.Kept) (ops : List Operation) : (w.run ops).Kept := by
  induction ops generalizing w with
  | nil => exact h
  | cons op ops ih => exact ih (h.apply op)

theorem kept_empty : Kept { store := {} } where
  sound := Store.idle_empty.sound
  drawn := List.nodup_nil
  issued _ h := (List.not_mem_nil h).elim
  known _ h := by cases h
  tracks h := by cases h

end Watch

/-! ## What others do -/

/-- What others do to a store while an owner does nothing: operations of theirs, and openings of
    accounts in two parts. `drawn` are the ids of accounts that were drawn and whose row was not
    put yet. -/
inductive Store.Others (o : Nat) (s : Store) (drawn : List Int) : Store → List Int → Prop
  | nothing : Others o s drawn s drawn
  | operation {s' : Store} {drawn' : List Int} {op : Operation} : Others o s drawn s' drawn' →
      op.owner? ≠ some o → Others o s drawn (s'.apply op) drawn'
  | draw {s' : Store} {drawn' : List Int} : Others o s drawn s' drawn' →
      Others o s drawn s'.drawAccount (drawn' ++ [s'.next.account])
  | put {s' : Store} {drawn' : List Int} {a : Account} (now : Instant) : Others o s drawn s' drawn' → a.id ∈ drawn' →
      Others o s drawn (s'.putAccount a now) (drawn'.erase a.id)

theorem Store.Others.run {o : Nat} {s s' : Store} {drawn drawn' : List Int} (h : Others o s drawn s' drawn')
    {ops : List Operation} (hops : ∀ op ∈ ops, op.owner? ≠ some o) : Others o s drawn (s'.run ops) drawn' := by
  induction ops generalizing s' with
  | nil => exact h
  | cons op ops ih =>
    obtain ⟨hop, hops⟩ := List.forall_mem_cons.1 hops
    exact ih (h.operation hop) hops

/-- A watch that keeps all this, over a store where these ids wait for their rows. -/
structure Watch.KeptWith (w : Watch) (ids : List Int) : Prop extends w.Kept where
  awaits : w.drawn = ids

namespace Watch.KeptWith

variable {w : Watch} {ids : List Int}

theorem empty : Watch.KeptWith { store := {} } [] := ⟨kept_empty, rfl⟩

theorem apply (h : w.KeptWith ids) (op : Operation) : (w.apply op).KeptWith ids := ⟨h.toKept.apply op, h.awaits⟩

theorem run (h : w.KeptWith ids) (ops : List Operation) : (w.run ops).KeptWith ids :=
  ⟨h.toKept.run ops, (w.run_drawn ops).trans h.awaits⟩

theorem drawAccount (h : w.KeptWith ids) : w.drawAccount.KeptWith (ids ++ [w.store.next.account]) :=
  ⟨h.toKept.drawAccount, congrArg (· ++ [w.store.next.account]) h.awaits⟩

theorem putAccount (h : w.KeptWith ids) {a : Account} (ha : a.id ∈ ids) (now : Instant) :
    (w.putAccount a now).KeptWith (ids.erase a.id) :=
  ⟨h.toKept.putAccount (h.awaits.symm ▸ ha) now, congrArg (·.erase a.id) h.awaits⟩

theorem has_eq_false (h : w.KeptWith ids) {id : Int} (hid : id ∈ ids) : w.store.tables.accounts.has id = false :=
  h.toKept.has_eq_false (h.awaits.symm ▸ hid)

/-- Others change nothing about the owner: not its transaction, nor what was asked in it, nor its
    places in line. -/
theorem others (h : w.KeptWith ids) {o : Nat} {s : Store} {ids' : List Int} (hs : w.store.Others o ids s ids') :
    ∃ w' : Watch, w'.store = s ∧ w'.KeptWith ids' ∧ w'.logs o = w.logs o ∧ w'.store.tx? o = w.store.tx? o ∧
      ∀ row, ⟨o, row⟩ ∈ w'.store.waiting ↔ ⟨o, row⟩ ∈ w.store.waiting := by
  induction hs with
  | nothing => exact ⟨w, rfl, h, rfl, rfl, fun _ => .rfl⟩
  | @operation s' ids' op _ hop ih =>
    obtain ⟨w', rfl, h', hlogs, htx, hline⟩ := ih
    obtain ⟨htx', hline'⟩ := Store.apply_others h'.sound hop
    exact ⟨w'.apply op, rfl, h'.apply op, (w'.apply_logs hop).trans hlogs, htx'.trans htx,
      fun row => (hline' row).trans (hline row)⟩
  | draw _ ih =>
    obtain ⟨w', rfl, h', hlogs, htx, hline⟩ := ih
    exact ⟨w'.drawAccount, rfl, h'.drawAccount, hlogs, htx, hline⟩
  | @put s' ids' a now _ ha ih =>
    obtain ⟨w', rfl, h', hlogs, htx, hline⟩ := ih
    refine ⟨w'.putAccount a now, rfl, h'.putAccount ha now, hlogs, ?_, ?_⟩
    · exact (Store.tx?_of_txs (Store.putAccount_txs ..) o).trans htx
    · intro row
      show ⟨o, row⟩ ∈ (w'.store.putAccount a now).waiting ↔ _
      rw [Store.putAccount_waiting]
      exact hline row

end Watch.KeptWith

end Giro
