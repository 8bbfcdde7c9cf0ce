import Giro.Proofs.Store

/-
  Giro.Proofs.Operation — everything that happens to a store, one step at a time.

  The owners of transactions, and those who open accounts or empty the tables, move in any
  order: a list of operations is an interleaving. The locks are sound all along
  (`Sound.run`). An operation of one owner touches nobody else's transaction, and only
  opening an account, emptying and a commit touch the tables.
-/

namespace Giro

/-- One step of somebody who uses the store. -/
inductive Operation where
  | createAccount (owner currency : String) (balance : Int) (now : Instant)
  | clear
  | begin (owner : Nat)
  /-- Asks, or asks again for what has not been answered yet. -/
  | call (owner : Nat) (c : Call) (now : Instant)
  /-- Gives up what was asked for. -/
  | leave (owner : Nat)
  | commit (owner : Nat)
  /-- Rolls back, or just drops the transaction. -/
  | drop (owner : Nat)
  deriving DecidableEq

namespace Operation

/-- The owner whose transaction moves. -/
def owner? : Operation → Option Nat
  | createAccount .. => none
  | clear => none
  | begin owner => some owner
  | call owner _ _ => some owner
  | leave owner => some owner
  | commit owner => some owner
  | drop owner => some owner

/-- A move of a transaction: no account is opened and the tables are not emptied. -/
def OfTx (op : Operation) : Prop := op.owner?.isSome = true

instance (op : Operation) : Decidable op.OfTx := inferInstanceAs (Decidable (_ = true))

theorem not_of_other {ops : List Operation} {o p : Nat} (h : ∀ op ∈ ops, op.owner? = some o) (hp : p ≠ o) :
    ∀ op ∈ ops, op.owner? ≠ some p := fun op hop e => hp (Option.some.inj (e.symm.trans (h op hop)))

end Operation

namespace Store

def apply (s : Store) : Operation → Store
  | .createAccount owner currency balance now => (s.createAccount owner currency balance now).2
  | .clear => s.clear
  | .begin owner => s.begin owner
  | .call owner c now => (s.call owner c now).2
  | .leave owner => s.leaveLine owner
  | .commit owner => (s.commit owner).2
  | .drop owner => s.forget owner

def run (s : Store) (ops : List Operation) : Store := ops.foldl apply s

@[simp] theorem run_nil (s : Store) : s.run [] = s := rfl

@[simp] theorem run_cons (s : Store) (op : Operation) (ops : List Operation) :
    s.run (op :: ops) = (s.apply op).run ops := rfl

theorem run_append (s : Store) (ops ops' : List Operation) : s.run (ops ++ ops') = (s.run ops).run ops' :=
  List.foldl_append

/-! ## Opening accounts

Opening an account draws its id first and puts its row later. -/

/-- Draws the id of an account that is to be opened. -/
def drawAccount (s : Store) : Store := { s with next.account := s.next.account + 1 }

/-- Puts the row of an account whose id was drawn, with the entry of its opening balance. -/
def putAccount (s : Store) (a : Account) (now : Instant) : Store :=
  let s := { s with tables.accounts := Rows.put a s.tables.accounts }
  if a.balance = 0 then s
  else { s with
    tables.entries := s.tables.entries ++ [⟨s.next.entry, a.id, a.balance, now⟩]
    next.entry := s.next.entry + 1 }

section Put

variable (s : Store) (a : Account) (now : Instant)

@[simp] theorem putAccount_accounts : (s.putAccount a now).tables.accounts = Rows.put a s.tables.accounts := by
  unfold putAccount; dsimp only; split <;> rfl

@[simp] theorem putAccount_transfers : (s.putAccount a now).tables.transfers = s.tables.transfers := by
  unfold putAccount; dsimp only; split <;> rfl

@[simp] theorem putAccount_txs : (s.putAccount a now).txs = s.txs := by
  unfold putAccount; dsimp only; split <;> rfl

@[simp] theorem putAccount_waiting : (s.putAccount a now).waiting = s.waiting := by
  unfold putAccount; dsimp only; split <;> rfl

@[simp] theorem putAccount_nextAccount : (s.putAccount a now).next.account = s.next.account := by
  unfold putAccount; dsimp only; split <;> rfl

@[simp] theorem putAccount_nextTransfer : (s.putAccount a now).next.transfer = s.next.transfer := by
  unfold putAccount; dsimp only; split <;> rfl

/-- A new account has an entry of its opening balance, unless that is zero. -/
theorem putAccount_tables : (s.putAccount a now).tables =
    { s.tables with
      accounts := Rows.put a s.tables.accounts
      entries := s.tables.entries ++ if a.balance = 0 then [] else [⟨s.next.entry, a.id, a.balance, now⟩] } := by
  unfold putAccount
  dsimp only
  split <;> simp

end Put

section Create

variable (s : Store) (owner currency : String) (balance : Int) (now : Instant)

/-- At once it is the two with nothing in between. -/
theorem createAccount_eq : (s.createAccount owner currency balance now).2 =
    s.drawAccount.putAccount ⟨s.next.account, owner, currency, balance, now⟩ now := by
  unfold createAccount putAccount
  dsimp only [drawAccount]
  split <;> rfl

@[simp] theorem createAccount_fst :
    (s.createAccount owner currency balance now).1 = ⟨s.next.account, owner, currency, balance, now⟩ := by
  unfold createAccount; dsimp only; split <;> rfl

@[simp] theorem createAccount_accounts : (s.createAccount owner currency balance now).2.tables.accounts =
    Rows.put ⟨s.next.account, owner, currency, balance, now⟩ s.tables.accounts := by
  rw [createAccount_eq, putAccount_accounts]; rfl

@[simp] theorem createAccount_txs : (s.createAccount owner currency balance now).2.txs = s.txs := by
  rw [createAccount_eq, putAccount_txs]; rfl

@[simp] theorem createAccount_waiting : (s.createAccount owner currency balance now).2.waiting = s.waiting := by
  rw [createAccount_eq, putAccount_waiting]; rfl

@[simp] theorem createAccount_nextAccount :
    (s.createAccount owner currency balance now).2.next.account = s.next.account + 1 := by
  rw [createAccount_eq, putAccount_nextAccount]; rfl

end Create

/-! ## Each operation keeps the locks -/

variable {s : Store}

@[simp] theorem enqueue_txs (s : Store) (o : Nat) (row : Int) : (s.enqueue o row).txs = s.txs := by
  unfold enqueue; split <;> rfl

@[simp] theorem enqueue_tables (s : Store) (o : Nat) (row : Int) : (s.enqueue o row).tables = s.tables := by
  unfold enqueue; split <;> rfl

@[simp] theorem enqueue_next (s : Store) (o : Nat) (row : Int) : (s.enqueue o row).next = s.next := by
  unfold enqueue; split <;> rfl

/-- What a call does: it is refused without a transaction, it is answered, or it waits. -/
inductive Asked (s : Store) (o : Nat) (c : Call) (now : Instant) : Poll (Outcome c.Reply) × Store → Prop
  | ended : s.tx? o = none → Asked s o c now (.ready (.error (.storage .transactionEnded)), s)
  | answered {x x' : Transaction} {id : Int} {r : Outcome c.Reply} {s' : Store} : s.tx? o = some x →
      Answered s x c id now r s' x' → Asked s o c now (.ready r, s')
  | waits {x : Transaction} {row : Int} : s.tx? o = some x → c.row? = some row → x.accounts.find? row = none →
      row ∉ x.held → s.isFreeFor o row = false → Asked s o c now (.pending, s.enqueue o row)

theorem asked (h : s.Sound) (o : Nat) (c : Call) (now : Instant) : Asked s o c now (s.call o c now) := by
  cases hx : s.tx? o with
  | none =>
    have hc : s.call o c now = (.ready (.error (.storage .transactionEnded)), s) := by simp only [call, hx]
    rw [hc]
    exact .ended hx
  | some x =>
    rcases hc : s.call o c now with ⟨r | r, s'⟩
    · obtain ⟨row, hrow, rfl, hn, hh, hf⟩ := call_pending hx hc
      exact .waits hx hrow hn hh hf
    · obtain ⟨x', ha⟩ := call_ready h hx hc
      exact .answered hx ha

theorem Sound.apply (h : s.Sound) (op : Operation) : (s.apply op).Sound := by
  cases op with
  | createAccount owner currency balance now =>
    refine h.ofTxs (createAccount_txs ..) ?_
    show (s.createAccount owner currency balance now).2.tables.accounts.Sorted
    rw [createAccount_accounts]
    exact h.sorted.put _
  | clear => exact h.ofTxs rfl List.Pairwise.nil
  | begin o => exact h.begin o
  | call o c now =>
    rcases hc : s.call o c now with ⟨r, s'⟩
    rw [Store.apply, hc]
    cases hc ▸ asked h o c now with
    | ended _ => exact h
    | answered hx ha => exact h.answered hx ha
    | waits _ _ _ _ _ => exact h.ofTxs (enqueue_txs ..) (by rw [enqueue_tables]; exact h.sorted)
  | leave o => exact h.ofTxs rfl h.sorted
  | commit o => exact h.commit o
  | drop o => exact h.forget o

/-- What an operation makes of the tables and of the next account id. -/
inductive TableStep (s : Store) : Operation → Tables → Int → Prop
  | same {op : Operation} : TableStep s op s.tables s.next.account
  | opened (owner currency : String) (balance : Int) (now : Instant) :
      TableStep s (.createAccount owner currency balance now)
        (s.createAccount owner currency balance now).2.tables (s.next.account + 1)
  | emptied : TableStep s .clear {} s.next.account
  | published {o : Nat} {x : Transaction} : s.tx? o = some x →
      (∀ a ∈ x.accounts, s.tables.accounts.has a.id = true) →
      TableStep s (.commit o) (s.tables.publish x) s.next.account

theorem tableStep (h : s.Sound) (op : Operation) :
    TableStep s op (s.apply op).tables (s.apply op).next.account := by
  cases op with
  | createAccount owner currency balance now =>
    have := TableStep.opened (s := s) owner currency balance now
    rwa [← createAccount_nextAccount s owner currency balance now] at this
  | clear => exact .emptied
  | begin o => exact .same
  | call o c now =>
    rcases hc : s.call o c now with ⟨r, s'⟩
    rw [Store.apply, hc]
    cases hc ▸ asked h o c now with
    | ended _ => exact .same
    | answered hx ha => rw [ha.tables, ha.nextAccount]; exact .same
    | waits _ _ _ _ _ => rw [enqueue_tables, enqueue_next]; exact .same
  | leave o => exact .same
  | commit o =>
    rcases hc : s.commit o with ⟨r, s'⟩
    rw [Store.apply, hc]
    cases hc ▸ committed s o with
    | noTx _ => exact .same
    | gone _ _ => exact .same
    | done hx hhas => exact .published hx hhas
  | drop o => exact .same

/-- A move of a transaction that is no commit leaves the tables. -/
theorem apply_tables (h : s.Sound) (op : Operation) (hop : op.OfTx) (hne : ∀ o, op ≠ .commit o) :
    (s.apply op).tables = s.tables := by
  have hstep := tableStep h op
  generalize (s.apply op).tables = t, (s.apply op).next.account = n at hstep ⊢
  cases hstep with
  | same => rfl
  | opened => cases hop
  | emptied => cases hop
  | published => exact absurd rfl (hne _)

/-- A move of a transaction opens no account. -/
theorem apply_nextAccount (h : s.Sound) {op : Operation} (hop : op.OfTx) :
    (s.apply op).next.account = s.next.account := by
  have hstep := tableStep h op
  generalize (s.apply op).tables = t, (s.apply op).next.account = n at hstep ⊢
  cases hstep with
  | same => rfl
  | opened => cases hop
  | emptied => rfl
  | published => rfl

theorem run_nextAccount (h : s.Sound) {ops : List Operation} (hops : ∀ op ∈ ops, op.OfTx) :
    (s.run ops).next.account = s.next.account := by
  induction ops generalizing s with
  | nil => rfl
  | cons op ops ih =>
    obtain ⟨hop, hops⟩ := List.forall_mem_cons.1 hops
    rw [run_cons, ih (h.apply op) hops, apply_nextAccount h hop]

/-- Publishing a transaction whose accounts all exist brings no account and takes none away. -/
theorem Sound.has_publish (h : s.Sound) {o : Nat} {x : Transaction} (hx : s.tx? o = some x)
    (hknown : ∀ a ∈ x.accounts, s.tables.accounts.has a.id = true) (id : Int) :
    (s.tables.publish x).accounts.has id = s.tables.accounts.has id :=
  Rows.has_putAll_of_known (h.drafts hx) h.sorted hknown id

/-- What one transaction has staged is changed by no other one's commit: this is what the
    lock of the row is for. -/
theorem Sound.find?_publish (h : s.Sound) {o p : Nat} {x y : Transaction} (hx : s.tx? o = some x)
    (hy : s.tx? p = some y) (hne : p ≠ o) {row : Int} (hrow : y.accounts.has row = true) :
    (s.tables.publish x).accounts.find? row = s.tables.accounts.find? row := by
  have hfree : x.accounts.find? row = none := by
    cases hxr : x.accounts.has row
    · exact Rows.has_eq_false_iff.1 hxr
    · exact absurd (h.exclusive hy hx (h.guarded hy row hrow) (h.guarded hx row hxr)) hne
  show (Rows.putAll x.accounts s.tables.accounts).find? row = _
  rw [Rows.find?_putAll (h.drafts hx) h.sorted, hfree, Option.none_or]

/-- Ids of accounts stay below the next one. -/
theorem Sound.known_apply (h : s.Sound) (hknown : ∀ row, s.tables.accounts.has row = true → row < s.next.account)
    (op : Operation) : ∀ row, (s.apply op).tables.accounts.has row = true → row < (s.apply op).next.account := by
  have hstep := tableStep h op
  generalize (s.apply op).tables = t, (s.apply op).next.account = n at hstep ⊢
  cases hstep with
  | same => exact hknown
  | opened owner currency balance now =>
    intro row hrow
    rw [createAccount_accounts, Rows.has_put h.sorted, Bool.or_eq_true, decide_eq_true_iff] at hrow
    rcases hrow with rfl | hrow
    · exact Int.lt_succ _
    · exact Int.lt_trans (hknown row hrow) (Int.lt_succ _)
  | emptied => intro row hrow; cases hrow
  | published hy hstaged => intro row; rw [h.has_publish hy hstaged]; exact hknown row

theorem nextAccount_le_apply (h : s.Sound) (op : Operation) : s.next.account ≤ (s.apply op).next.account := by
  have hstep := tableStep h op
  generalize (s.apply op).tables = t, (s.apply op).next.account = n at hstep ⊢
  cases hstep with
  | opened => exact Int.le_of_lt (Int.lt_succ _)
  | _ => exact Int.le_refl _

/-- An account that is gone does not come back. -/
theorem Sound.has_of_apply (h : s.Sound) {op : Operation} {row : Int} (hlt : row < s.next.account)
    (hrow : (s.apply op).tables.accounts.has row = true) : s.tables.accounts.has row = true := by
  have hstep := tableStep h op
  generalize (s.apply op).tables = t, (s.apply op).next.account = n at hstep hrow
  cases hstep with
  | same => exact hrow
  | opened owner currency balance now =>
    rw [createAccount_accounts, Rows.has_put h.sorted, Bool.or_eq_true, decide_eq_true_iff] at hrow
    exact hrow.resolve_left (Int.ne_of_lt hlt)
  | emptied => cases hrow
  | published hx hknown => rwa [h.has_publish hx hknown] at hrow

/-- What one transaction has staged is changed by nobody else: a commit changes what its own
    transaction holds, and an id is given once. -/
theorem Sound.find?_of_apply (h : s.Sound) {op : Operation} {p : Nat} {y : Transaction} {row : Int}
    (hy : s.tx? p = some y) (hp : op ≠ .commit p) (hstaged : y.accounts.has row = true) (hlt : row < s.next.account)
    {a : Account} (ha : (s.apply op).tables.accounts.find? row = some a) :
    s.tables.accounts.find? row = some a := by
  have hstep := tableStep h op
  generalize (s.apply op).tables = t, (s.apply op).next.account = n at hstep ha
  cases hstep with
  | same => exact ha
  | opened owner currency balance now =>
    rwa [createAccount_accounts, Rows.find?_put h.sorted, if_neg (Int.ne_of_lt hlt)] at ha
  | emptied => cases ha
  | @published o x hx hknown =>
    have hne : p ≠ o := fun e => hp (congrArg _ e.symm)
    rwa [h.find?_publish hx hy hne hstaged] at ha

/-- What an owner's move does to others: nothing at all to their transactions and to their
    places in line. -/
theorem apply_others (h : s.Sound) {op : Operation} {p : Nat} (hp : op.owner? ≠ some p) :
    (s.apply op).tx? p = s.tx? p ∧ ∀ row, ⟨p, row⟩ ∈ (s.apply op).waiting ↔ ⟨p, row⟩ ∈ s.waiting := by
  have hforget : ∀ o, p ≠ o → (s.forget o).tx? p = s.tx? p ∧
      ∀ row, ⟨p, row⟩ ∈ (s.forget o).waiting ↔ ⟨p, row⟩ ∈ s.waiting := by
    intro o hne
    exact ⟨by rw [tx?_forget, if_neg hne], fun row => by simp [forget, hne]⟩
  cases op with
  | createAccount owner currency balance now =>
    exact ⟨tx?_of_txs (createAccount_txs ..) p, fun row => by rw [Store.apply, createAccount_waiting]⟩
  | clear => exact ⟨rfl, fun _ => .rfl⟩
  | begin o =>
    have hne : p ≠ o := fun e => hp (congrArg some e.symm)
    exact ⟨by rw [Store.apply, tx?_begin, if_neg hne], (hforget o hne).2⟩
  | call o c now =>
    have hne : p ≠ o := fun e => hp (congrArg some e.symm)
    rcases hc : s.call o c now with ⟨r, s'⟩
    rw [Store.apply, hc]
    cases hc ▸ asked h o c now with
    | ended _ => exact ⟨rfl, fun _ => .rfl⟩
    | @answered x x' id r _ hx ha =>
      refine ⟨by rw [ha.tx? hx, if_neg hne], ?_⟩
      intro row
      rcases ha.waiting with hw | ⟨r, -, hw⟩ <;> rw [hw]
      rw [owner_of_tx? hx]
      exact List.mem_erase_of_ne fun e => hne (Request.mk.inj e).1
    | @waits x r hx _ _ _ _ =>
      refine ⟨tx?_of_txs (enqueue_txs ..) p, fun row => ?_⟩
      unfold enqueue
      split
      · exact .rfl
      · simp [hne]
  | leave o =>
    have hne : p ≠ o := fun e => hp (congrArg some e.symm)
    exact ⟨rfl, fun row => by simp [Store.apply, leaveLine, hne]⟩
  | commit o =>
    have hne : p ≠ o := fun e => hp (congrArg some e.symm)
    rcases hc : s.commit o with ⟨r, s'⟩
    rw [Store.apply, hc]
    cases hc ▸ committed s o with
    | noTx _ => exact ⟨rfl, fun _ => .rfl⟩
    | gone _ _ => exact hforget o hne
    | done _ _ => exact hforget o hne
  | drop o => exact hforget o fun e => hp (congrArg some e.symm)

/-- Nobody stands in line twice for one row. -/
theorem apply_waiting_nodup (h : s.Sound) (hnodup : s.waiting.Nodup) (op : Operation) : (s.apply op).waiting.Nodup := by
  cases op with
  | createAccount owner currency balance now => rwa [Store.apply, createAccount_waiting]
  | clear => exact hnodup
  | begin o => exact hnodup.filter _
  | call o c now =>
    rcases hc : s.call o c now with ⟨r, s'⟩
    rw [Store.apply, hc]
    cases hc ▸ asked h o c now with
    | ended _ => exact hnodup
    | answered hx ha =>
      rcases ha.waiting with hw | ⟨r, -, hw⟩ <;> rw [hw]
      · exact hnodup
      · exact hnodup.erase _
    | waits _ _ _ _ _ =>
      unfold enqueue
      split
      · exact hnodup
      · rename_i hnot
        exact hnodup.append (List.nodup_singleton _) (by simpa using hnot)
  | leave o => exact hnodup.filter _
  | commit o =>
    rcases hc : s.commit o with ⟨r, s'⟩
    rw [Store.apply, hc]
    cases hc ▸ committed s o with
    | noTx _ => exact hnodup
    | gone _ _ => exact hnodup.filter _
    | done _ _ => exact hnodup.filter _
  | drop o => exact hnodup.filter _

theorem enqueue_line {o : Nat} {x : Transaction} (hline : ∀ r ∈ s.waiting, ∃ x, s.tx? r.owner = some x)
    (hx : s.tx? o = some x) (row : Int) :
    ∀ r ∈ (s.enqueue o row).waiting, ∃ x, (s.enqueue o row).tx? r.owner = some x := by
  intro r hr
  rw [tx?_of_txs (enqueue_txs ..)]
  unfold enqueue at hr
  split at hr
  · exact hline r hr
  · rcases List.mem_append.1 hr with hr | hr
    · exact hline r hr
    · obtain rfl := List.mem_singleton.1 hr
      exact ⟨x, hx⟩

/-- Whoever waits has an open transaction. -/
theorem apply_line (h : s.Sound) (hline : ∀ r ∈ s.waiting, ∃ x, s.tx? r.owner = some x) (op : Operation) :
    ∀ r ∈ (s.apply op).waiting, ∃ x, (s.apply op).tx? r.owner = some x := by
  have hforget (o : Nat) : ∀ r ∈ (s.forget o).waiting, ∃ x, (s.forget o).tx? r.owner = some x := by
    intro r hr
    obtain ⟨hr, hne⟩ := List.mem_filter.1 hr
    rw [tx?_forget, if_neg (by simpa using hne)]
    exact hline r hr
  cases op with
  | createAccount owner currency balance now =>
    intro r hr
    rw [apply, createAccount_waiting] at hr
    rw [apply, tx?_of_txs (createAccount_txs ..)]
    exact hline r hr
  | clear => exact hline
  | begin o =>
    intro r hr
    rw [apply, tx?_begin]
    split
    · exact ⟨_, rfl⟩
    · rename_i hne
      obtain ⟨x, hx⟩ := hforget o r hr
      rw [tx?_forget, if_neg hne] at hx
      exact ⟨x, hx⟩
  | call o c now =>
    rcases hc : s.call o c now with ⟨r, s'⟩
    rw [apply, hc]
    cases hc ▸ asked h o c now with
    | ended _ => exact hline
    | @answered x x' id r _ hx ha =>
      intro q hq
      have hq' : q ∈ s.waiting := by
        rcases ha.waiting with hw | ⟨row, -, hw⟩ <;> rw [hw] at hq
        · exact hq
        · exact List.mem_of_mem_erase hq
      rw [ha.tx? hx]
      split
      · exact ⟨_, rfl⟩
      · exact hline q hq'
    | waits hx _ _ _ _ => exact enqueue_line hline hx _
  | leave o =>
    intro r hr
    exact hline r (List.mem_of_mem_filter hr)
  | commit o =>
    rcases hc : s.commit o with ⟨r, s'⟩
    rw [apply, hc]
    cases hc ▸ committed s o with
    | noTx _ => exact hline
    | gone _ _ => exact hforget o
    | done _ _ => exact hforget o
  | drop o => exact hforget o

/-- The locks are sound all along a run. -/
theorem Sound.run (h : s.Sound) (ops : List Operation) : (s.run ops).Sound := by
  induction ops generalizing s with
  | nil => exact h
  | cons op ops ih => exact ih (h.apply op)

/-- What others do leaves an owner's transaction and its places in line alone. -/
theorem run_others (h : s.Sound) {ops : List Operation} {p : Nat} (hops : ∀ op ∈ ops, op.owner? ≠ some p) :
    (s.run ops).tx? p = s.tx? p ∧ ∀ row, ⟨p, row⟩ ∈ (s.run ops).waiting ↔ ⟨p, row⟩ ∈ s.waiting := by
  induction ops generalizing s with
  | nil => exact ⟨rfl, fun _ => .rfl⟩
  | cons op ops ih =>
    obtain ⟨hop, hops⟩ := List.forall_mem_cons.1 hops
    obtain ⟨htx, hline⟩ := apply_others h hop
    obtain ⟨htx', hline'⟩ := ih (h.apply op) hops
    exact ⟨htx'.trans htx, fun row => (hline' row).trans (hline row)⟩

theorem run_waiting_nodup (h : s.Sound) (hnodup : s.waiting.Nodup) (ops : List Operation) :
    (s.run ops).waiting.Nodup := by
  induction ops generalizing s with
  | nil => exact hnodup
  | cons op ops ih => exact ih (h.apply op) (apply_waiting_nodup h hnodup op)

/-! ## Who blocks a row -/

/-- A row that is not free is held, or the first in line for it may have it. -/
theorem busy {o : Nat} {row : Int} (h : s.isFreeFor o row = false) :
    (∃ x ∈ s.txs, row ∈ x.held) ∨ ∃ p, ⟨p, row⟩ ∈ s.waiting ∧ s.isFreeFor p row = true := by
  by_cases hheld : ∃ x ∈ s.txs, row ∈ x.held
  · exact .inl hheld
  · right
    have hnobody : s.txs.all (fun x => !x.held.contains row) = true := by
      simpa using hheld
    obtain ⟨r, hr, hrow⟩ : ∃ r ∈ s.waiting.takeWhile (· != ⟨o, row⟩), r.row = row := by
      rw [isFreeFor, hnobody, Bool.true_and] at h
      simpa using h
    obtain ⟨first, hfirst⟩ : ∃ q, s.waiting.find? (·.row == row) = some q :=
      Option.isSome_iff_exists.1 (List.find?_isSome.2 ⟨r, (List.takeWhile_sublist _).subset hr, by simpa using hrow⟩)
    obtain ⟨hrow', before, after, hsplit, hbefore⟩ := List.find?_eq_some_iff_append.1 hfirst
    obtain rfl : first.row = row := by simpa using hrow'
    refine ⟨first.owner, by rw [hsplit]; simp, ?_⟩
    have htake : s.waiting.takeWhile (· != ⟨first.owner, first.row⟩) = before := by
      rw [hsplit, List.takeWhile_append_of_pos fun a ha => by
        have := hbefore a ha
        simp only [Bool.not_eq_true', beq_eq_false_iff_ne] at this
        exact bne_iff_ne.2 fun e => this (congrArg Request.row e)]
      simp
    rw [isFreeFor, hnobody, htake, Bool.true_and, List.all_eq_true]
    intro a ha
    have := hbefore a ha
    simpa using this

/-! ## A store at rest -/

/-- The owner has no open transaction, so no lock, and no place in line. -/
structure Gone (s : Store) (o : Nat) : Prop where
  tx : s.tx? o = none
  line : ∀ row, ⟨o, row⟩ ∉ s.waiting

theorem gone_forget (s : Store) (o : Nat) : (s.forget o).Gone o where
  tx := by rw [tx?_forget, if_pos rfl]
  line row h := by simp [forget] at h

theorem leaveLine_of_line {o : Nat} (hline : ∀ row, ⟨o, row⟩ ∉ s.waiting) : s.leaveLine o = s := by
  have hwaiting : s.waiting.filter (·.owner != o) = s.waiting := by
    refine List.filter_eq_self.2 ?_
    intro r hr
    simp only [bne_iff_ne, ne_eq]
    rintro rfl
    exact hline r.row hr
  rw [leaveLine, hwaiting]

/-- An owner that has nothing leaves nothing behind. -/
theorem Gone.forget {o : Nat} (h : s.Gone o) : s.forget o = s := by
  have htxs : s.txs.filter (·.owner != o) = s.txs := by
    refine List.filter_eq_self.2 ?_
    intro x hx
    simpa using List.find?_eq_none.1 h.tx x hx
  show { s.leaveLine o with txs := s.txs.filter (·.owner != o) } = s
  rw [leaveLine_of_line h.line, htxs]

/-- No transaction is open and nobody waits. -/
structure Idle (s : Store) : Prop where
  txs : s.txs = []
  waiting : s.waiting = []
  sorted : s.tables.accounts.Sorted

theorem idle_empty : ({} : Store).Idle := ⟨rfl, rfl, List.Pairwise.nil⟩

theorem Idle.tx? (h : s.Idle) (o : Nat) : s.tx? o = none := by
  rw [Store.tx?, h.txs]
  rfl

/-- With no transaction open, nothing is locked. -/
theorem Idle.sound (h : s.Idle) : s.Sound where
  owners := by simp [h.txs]
  sorted := h.sorted
  drafts hx := by rw [h.tx?] at hx; cases hx
  guarded hx := by rw [h.tx?] at hx; cases hx
  exclusive hx := by rw [h.tx?] at hx; cases hx

end Store

end Giro
