import Giro.Proofs.Renaming

/-
  Giro.Proofs.Erasure — transactions that do not commit leave no trace.

  From a run all that belongs to transactions that do not commit is erased, and so are the
  steps of waiting: what asked for a lock, lined up or gave up (`Registry.survivors`). A call
  that waits counts when it is answered. What survives is a run of its own. It goes along
  with the original one (`Mirrors`): the tables are the same and so are the drafts of the
  transactions that will commit, up to the ids of records, and whoever holds a row holds it
  there as well. So nobody waits, and every act is answered as it was.

  Ids of records are given to erased transactions too, so the original run skips ids. One
  renaming, fixed for the whole run, takes the ids of the erased run to those of the
  original.

  Main statement: `erased_run`. It would not hold of calls that are moved to where their locks
  are granted: when the tables are emptied before the row is read, the read comes after
  (`a_granted_call_does_not_count_yet`).
-/

namespace Giro

/-! ## What survives -/

namespace Registry

/-- What somebody is told in return for an act. -/
inductive Answer where
  | nothing
  | number (id : Int)
  | account (a : Account)
  | exchange (e : Exchange)
  | committed (r : Outcome Unit)

namespace Answer

def rename (σ : Renaming) : Answer → Answer
  | exchange e => exchange (e.rename σ)
  | r => r

/-- A commit that succeeded. -/
def isCommit : Answer → Bool
  | committed (.ok _) => true
  | _ => false

end Answer

def answer (r : Registry) : Act → Answer
  | .draw => .number r.store.next.account
  | .put .. => .nothing
  | .step (.operation (.createAccount owner currency balance now)) =>
    .account (r.store.createAccount owner currency balance now).1
  | .step (.operation (.commit o)) => .committed (r.store.commit o).1
  | .step st =>
    match r.store.exchange? st with
    | some e => .exchange e
    | none => .nothing

def Act.ends (o : Nat) : Act → Bool
  | .step (.operation op) => op.ends o
  | _ => false

/-- The transaction that the owner has open will commit. -/
def commits (r : Registry) (o : Nat) : List Act → Bool
  | [] => false
  | a :: later => if a.ends o then (r.answer a).isCommit else (r.act a).commits o later

/-- The act belongs to a transaction that commits, or to none at all. -/
def survives (r : Registry) (a : Act) (later : List Act) : Bool :=
  match a with
  | .step (.operation (.begin o)) => (r.act a).commits o later
  | .step (.operation (.call o c now)) =>
    (r.store.exchange? (.operation (.call o c now))).isSome && (r.act a).commits o later
  | .step (.operation (.commit o)) => (r.answer (.step (.operation (.commit o)))).isCommit
  | .step (.operation (.leave _)) => false
  | .step (.operation (.drop _)) => false
  | .step (.seek ..) => false
  | .step (.lock ..) => false
  | _ => true

/-- What survives of `before` in a run that goes on with `after`. -/
def survivors (r : Registry) : List Act → List Act → List Act
  | [], _ => []
  | a :: before, after =>
    if r.survives a (before ++ after) then a :: (r.act a).survivors before after
    else (r.act a).survivors before after

end Registry

/-! ## Fates -/

namespace Registry

variable {r : Registry} {o : Nat} {a : Act} {later : List Act}

theorem commits_cons_of_not_ends (h : a.ends o = false) : r.commits o (a :: later) = (r.act a).commits o later := by
  rw [commits, h]
  rfl

theorem commits_cons_of_ends (h : a.ends o = true) : r.commits o (a :: later) = (r.answer a).isCommit := by
  rw [commits, if_pos h]

theorem Kept.tx?_act (hr : r.Kept) (h : r.store.tx? o = none) (ha : a ≠ .step (.operation (.begin o))) :
    (r.act a).store.tx? o = none := by
  cases a with
  | draw => exact h
  | put a now =>
    show (r.put a now).store.tx? o = none
    unfold Registry.put
    split
    · exact (Store.tx?_of_txs (Store.putAccount_txs ..) o).trans h
    · exact h
  | step st =>
    rw [act_store r hr.sound]
    refine (Store.stepped hr.sound st).tx?_none h ?_
    intro heq
    subst heq
    exact ha rfl

theorem isCommit_answer (h : (r.answer a).isCommit = true) :
    ∃ o, a = .step (.operation (.commit o)) ∧ (r.store.commit o).1 = .ok () := by
  have hexchange (e : Option Exchange) :
      Answer.isCommit (match e with | some e => .exchange e | none => .nothing) = false := by
    cases e <;> rfl
  cases a with
  | draw => cases h
  | put a now => cases h
  | step st =>
    cases st with
    | operation op =>
      cases op with
      | createAccount owner currency balance now => cases h
      | commit o =>
        refine ⟨o, rfl, ?_⟩
        have h : (Answer.committed (r.store.commit o).1).isCommit = true := h
        cases hc : (r.store.commit o).1 with
        | ok _ => rfl
        | error e =>
          rw [hc] at h
          cases h
      | _ => exact absurd h (by simp [answer, hexchange])
    | _ => exact absurd h (by simp [answer, hexchange])

/-- A transaction that is not open does not commit. -/
theorem Kept.commits_none (hr : r.Kept) (h : r.store.tx? o = none) (later : List Act) : r.commits o later = false := by
  induction later generalizing r with
  | nil => rfl
  | cons a later ih =>
    cases hends : a.ends o with
    | false =>
      rw [commits_cons_of_not_ends hends]
      refine ih (hr.act a) (hr.tx?_act h ?_)
      intro heq
      subst heq
      simp [Act.ends, Operation.ends] at hends
    | true =>
      rw [commits_cons_of_ends hends]
      by_contra hcommit
      obtain ⟨p, rfl, hok⟩ := isCommit_answer (Bool.eq_true_of_not_eq_false hcommit)
      obtain rfl : p = o := by simpa [Act.ends, Operation.ends] using hends
      obtain ⟨x, hx, -⟩ := Store.commit_ok (Prod.ext hok rfl)
      rw [h] at hx
      cases hx

theorem tx?_commit (r : Registry) (o : Nat) : (r.act (.step (.operation (.commit o)))).store.tx? o = none :=
  (Store.commit_ends rfl).1

/-- An act that ends no transaction but one owner's changes no other fate. -/
theorem commits_update {fate : Bool} (ho : (r.act a).commits o later = fate) (hothers : ∀ p, p ≠ o → a.ends p = false) :
    ((r.act a).commits · later) = Function.update (r.commits · (a :: later)) o fate := by
  funext p
  by_cases hp : p = o
  · rw [hp, Function.update_self, ho]
  · rw [Function.update_of_ne hp, commits_cons_of_not_ends (hothers p hp)]

/-- What is erased changes nobody's fate. -/
theorem Kept.commits_of_erased (hr : r.Kept) (ha : r.survives a later = false) (o : Nat) :
    r.commits o (a :: later) = (r.act a).commits o later := by
  cases hends : a.ends o with
  | false => exact commits_cons_of_not_ends hends
  | true =>
    rw [commits_cons_of_ends hends]
    cases a with
    | draw => cases hends
    | put a now => cases hends
    | step st =>
      cases st with
      | operation op =>
        cases op with
        | begin p =>
          obtain rfl : p = o := by simpa [Act.ends, Operation.ends] using hends
          exact ha.symm
        | commit p =>
          obtain rfl : p = o := by simpa [Act.ends, Operation.ends] using hends
          rw [(hr.act _).commits_none (r.tx?_commit p)]
          exact ha
        | drop p =>
          obtain rfl : p = o := by simpa [Act.ends, Operation.ends] using hends
          have hend : (r.act (.step (.operation (.drop p)))).store.tx? p = none :=
            (Store.tx?_forget ..).trans (if_pos rfl)
          rw [(hr.act _).commits_none hend]
          rfl
        | _ => cases hends
      | _ => cases hends

/-- All that opens an account survives. -/
theorem step_of_erased (ha : r.survives a later = false) : ∃ st, a = .step st ∧ ¬ st.Opens := by
  cases a with
  | draw => cases ha
  | put a now => cases ha
  | step st =>
    refine ⟨st, rfl, ?_⟩
    rintro ⟨owner, currency, balance, now, rfl⟩
    cases ha

/-- What is erased leaves the tables. -/
theorem not_writes_of_erased (ha : r.survives a later = false) : ¬ a.Writes r.store := by
  intro hwrites
  cases hwrites with
  | opening => cases ha
  | putting => cases ha
  | emptying => cases ha
  | publishing hok =>
    have ha : (Answer.committed (r.store.commit _).1).isCommit = false := ha
    rw [hok] at ha
    cases ha

/-- What is erased leaves the transactions that will commit, up to locks. -/
theorem Kept.keeps_of_erased (hr : r.Kept) (ha : r.survives a later = false) (hlive : (r.act a).commits o later = true)
    {x : Transaction} (hx : r.store.tx? o = some x) : ∃ y, (r.act a).store.tx? o = some y ∧ x.Keeps y := by
  obtain ⟨st, rfl, -⟩ := step_of_erased ha
  rw [act_store r hr.sound]
  refine (Store.stepped hr.sound st).keeps hx ?_ ?_
  · intro op hop
    subst hop
    by_contra hends
    have hends : Act.ends o (.step (.operation op)) = true := Bool.eq_true_of_not_eq_false hends
    have hcommit : (r.answer (.step (.operation op))).isCommit = true := by
      rw [← commits_cons_of_ends hends, hr.commits_of_erased ha, hlive]
    obtain ⟨p, hp, hok⟩ := isCommit_answer hcommit
    exact not_writes_of_erased ha (hp ▸ .publishing hok)
  · intro c now hst
    subst hst
    have ha : ((r.store.exchange? (.operation (.call o c now))).isSome &&
      (r.act (.step (.operation (.call o c now)))).commits o later) = false := ha
    rw [hlive, Bool.and_true] at ha
    exact Option.not_isSome_iff_eq_none.1 (by rw [ha]; simp)

end Registry

/-! ## The two runs -/

/-- A transaction in the run and in what survives of it: the same is staged, up to ids, and
    what is held there is held in the run as well. -/
structure Transaction.Twin (σ : Renaming) (x x' : Transaction) : Prop where
  draft : x.draft = x'.draft.rename σ
  held : ∀ row ∈ x'.held, row ∈ x.held

/-- A run and what survives of it, with the owners whose transactions will commit. -/
structure Mirrors (σ : Renaming) (live : Nat → Bool) (r r' : Registry) : Prop where
  original : r.Kept
  erased : r'.Kept
  ascends : σ.Ascends
  sends : σ.Sends r'.store.next r.store.next
  tables : r.store.tables = r'.store.tables.rename σ
  account : r.store.next.account = r'.store.next.account
  drawn : r.drawn = r'.drawn
  line : r'.store.waiting = []
  twin : ∀ o, live o = true → ∃ x x', r.store.tx? o = some x ∧ r'.store.tx? o = some x' ∧ x.Twin σ x'
  gone : ∀ o, live o = false → r'.store.tx? o = none

namespace Mirrors

variable {σ : Renaming} {live : Nat → Bool} {r r' : Registry}

theorem accounts (h : Mirrors σ live r r') : r.store.tables.accounts = r'.store.tables.accounts := by
  rw [h.tables]
  rfl

/-- What is erased shows in the locks and in the ids that are skipped. -/
theorem erase {a : Registry.Act} {later : List Registry.Act} (h : Mirrors σ (r.commits · (a :: later)) r r')
    (ha : r.survives a later = false) :
    Mirrors (σ.extend r'.store.next (r.act a).store.next) ((r.act a).commits · later) (r.act a) r' := by
  obtain ⟨st, rfl, hst⟩ := Registry.step_of_erased ha
  have hact : r.act (.step st) = r.step st := Registry.act_step r hst
  have hagrees := σ.agrees_extend r'.store.next (r.act (.step st)).store.next
  have hfate := h.original.commits_of_erased ha
  obtain ⟨htransfer, hentry⟩ := h.original.next_le_act (.step st)
  refine {
    original := h.original.act _
    erased := h.erased
    ascends := h.ascends.extend h.sends htransfer hentry
    sends := Renaming.sends_extend ..
    tables := by rw [h.original.tables_act (Registry.not_writes_of_erased ha), h.tables, h.erased.tables_congr hagrees]
    account := by rw [hact]; exact (Store.nextAccount_step h.original.sound hst).trans h.account
    drawn := by rw [hact]; exact h.drawn
    line := h.line
    twin := ?_
    gone := ?_ }
  · intro o hlive
    obtain ⟨x, x', hx, hx', htwin⟩ := h.twin o ((hfate o).trans hlive)
    obtain ⟨y, hy, hkeeps⟩ := h.original.keeps_of_erased ha hlive hx
    refine ⟨y, x', hy, hx', ?_, ?_⟩
    · rw [hkeeps.draft, htwin.draft, h.erased.draft_congr hagrees (Store.mem_of_tx? hx')]
    · intro row hrow
      exact hkeeps.held row (htwin.held row hrow)
  · intro o hdead
    exact h.gone o ((hfate o).trans hdead)

/-! ## Accounts that are opened, and tables that are emptied -/

theorem draw (h : Mirrors σ live r r') : Mirrors σ live r.draw r'.draw where
  original := h.original.draw
  erased := h.erased.draw
  ascends := h.ascends
  sends := ⟨h.sends.transfer, h.sends.entry⟩
  tables := h.tables
  account := congrArg (· + 1) h.account
  drawn := by
    show r.drawn ++ [r.store.next.account] = r'.drawn ++ [r'.store.next.account]
    rw [h.drawn, h.account]
  line := h.line
  twin := h.twin
  gone := h.gone

theorem put (h : Mirrors σ live r r') (a : Account) (now : Instant) : Mirrors σ live (r.put a now) (r'.put a now) := by
  by_cases ha : a.id ∈ r.drawn
  · have hstore := r.put_store ha now
    have hstore' := r'.put_store (h.drawn ▸ ha) now
    obtain ⟨htables, hsends⟩ := Store.putAccount_rename h.tables h.sends a now
    refine {
      original := h.original.put a now
      erased := h.erased.put a now
      ascends := h.ascends
      sends := by rw [hstore, hstore']; exact hsends
      tables := by rw [hstore, hstore']; exact htables
      account := by rw [hstore, hstore', Store.putAccount_nextAccount, Store.putAccount_nextAccount, h.account]
      drawn := by rw [Registry.put_drawn, Registry.put_drawn, h.drawn]
      line := by rw [hstore', Store.putAccount_waiting, h.line]
      twin := ?_
      gone := ?_ }
    · intro o hlive
      rw [hstore, hstore', Store.tx?_of_txs (Store.putAccount_txs ..), Store.tx?_of_txs (Store.putAccount_txs ..)]
      exact h.twin o hlive
    · intro o hdead
      rw [hstore', Store.tx?_of_txs (Store.putAccount_txs ..)]
      exact h.gone o hdead
  · rw [r.put_of_not_drawn ha, r'.put_of_not_drawn (h.drawn ▸ ha)]
    exact h

theorem clear (h : Mirrors σ live r r') :
    Mirrors σ live (r.step (.operation .clear)) (r'.step (.operation .clear)) where
  original := h.original.step (by simp [Store.Step.Opens])
  erased := h.erased.step (by simp [Store.Step.Opens])
  ascends := h.ascends
  sends := h.sends
  tables := rfl
  account := h.account
  drawn := h.drawn
  line := h.line
  twin := h.twin
  gone := h.gone

/-! ## Transactions that commit -/

theorem begin (h : Mirrors σ live r r') (o : Nat) :
    Mirrors σ (Function.update live o true) (r.step (.operation (.begin o))) (r'.step (.operation (.begin o))) where
  original := h.original.step (by simp [Store.Step.Opens])
  erased := h.erased.step (by simp [Store.Step.Opens])
  ascends := h.ascends
  sends := h.sends
  tables := h.tables
  account := h.account
  drawn := h.drawn
  line := by
    show r'.store.waiting.filter _ = []
    rw [h.line]
    rfl
  twin p hp := by
    show ∃ x x', (r.store.begin o).tx? p = some x ∧ (r'.store.begin o).tx? p = some x' ∧ x.Twin σ x'
    rw [Store.tx?_begin, Store.tx?_begin]
    split
    · exact ⟨_, _, rfl, rfl, rfl, fun _ hrow => hrow⟩
    · rename_i hne
      rw [Function.update_of_ne hne] at hp
      exact h.twin p hp
  gone p hp := by
    have hne : p ≠ o := by
      intro heq
      subst heq
      rw [Function.update_self] at hp
      cases hp
    rw [Function.update_of_ne hne] at hp
    show (r'.store.begin o).tx? p = none
    rw [Store.tx?_begin, if_neg hne]
    exact h.gone p hp

/-- A commit that succeeded succeeds again. -/
theorem commit (h : Mirrors σ live r r') {o : Nat} (hlive : live o = true) (hok : (r.store.commit o).1 = .ok ()) :
    (r'.store.commit o).1 = .ok () ∧
      Mirrors σ (Function.update live o false) (r.step (.operation (.commit o))) (r'.step (.operation (.commit o))) := by
  obtain ⟨x, x', hx, hx', htwin⟩ := h.twin o hlive
  obtain ⟨y, hy, hthere, hcommit⟩ := Store.commit_ok (Prod.ext hok rfl)
  obtain rfl : y = x := Option.some.inj (hy.symm.trans hx)
  have hstaged : y.accounts = x'.accounts := congrArg Tables.accounts htwin.draft
  have hcommit' := Store.commit_of_known hx' (by rw [← hstaged, ← h.accounts]; exact hthere)
  have hstore : (r.step (.operation (.commit o))).store =
      { r.store.forget o with tables := r.store.tables.publish y } := hcommit
  have hstore' : (r'.step (.operation (.commit o))).store =
      { r'.store.forget o with tables := r'.store.tables.publish x' } := congrArg Prod.snd hcommit'
  refine ⟨congrArg Prod.fst hcommit', {
    original := h.original.step (by simp [Store.Step.Opens])
    erased := h.erased.step (by simp [Store.Step.Opens])
    ascends := h.ascends
    sends := by rw [hstore, hstore']; exact h.sends
    tables := by rw [hstore, hstore', h.tables]; exact Tables.publish_rename htwin.draft
    account := by rw [hstore, hstore']; exact h.account
    drawn := h.drawn
    line := ?_
    twin := ?_
    gone := ?_ }⟩
  · rw [hstore']
    show r'.store.waiting.filter _ = []
    rw [h.line]
    rfl
  · intro p hp
    have hne : p ≠ o := by
      intro heq
      subst heq
      rw [Function.update_self] at hp
      cases hp
    rw [Function.update_of_ne hne] at hp
    rw [hstore, hstore']
    show ∃ x x', (r.store.forget o).tx? p = some x ∧ (r'.store.forget o).tx? p = some x' ∧ x.Twin σ x'
    rw [Store.tx?_forget, Store.tx?_forget, if_neg hne, if_neg hne]
    exact h.twin p hp
  · intro p hp
    rw [hstore']
    show (r'.store.forget o).tx? p = none
    rw [Store.tx?_forget]
    split
    · rfl
    · rename_i hne
      rw [Function.update_of_ne hne] at hp
      exact h.gone p hp

/-- Who holds a row holds it in the original run. -/
theorem holder (h : Mirrors σ live r r') {y' : Transaction} (hy' : y' ∈ r'.store.txs) :
    ∃ y, r.store.tx? y'.owner = some y ∧ ∀ row ∈ y'.held, row ∈ y.held := by
  have htx := Store.tx?_of_mem h.erased.sound.owners hy'
  cases hlive : live y'.owner with
  | false =>
    rw [h.gone _ hlive] at htx
    cases htx
  | true =>
    obtain ⟨y, z, hy, hz, htwin⟩ := h.twin _ hlive
    obtain rfl : y' = z := Option.some.inj (htx.symm.trans hz)
    exact ⟨y, hy, htwin.held⟩

/-- A call that was answered is answered at once: the row is there and nobody holds it, or it
    is not there. -/
theorem ready (h : Mirrors σ live r r') {o : Nat} (hlive : live o = true) {c : Call} {now : Instant}
    {reply : Outcome c.Reply} {s : Store} (hc : r.store.call o c now = (.ready reply, s)) :
    ∃ reply' s', r'.store.call o c now = (.ready reply', s') := by
  obtain ⟨x, x', hx, hx', htwin⟩ := h.twin o hlive
  obtain ⟨x₁, ha⟩ := Store.call_ready h.original.sound hx hc
  rcases hc' : r'.store.call o c now with ⟨_ | reply', s'⟩
  · obtain ⟨row, hrow, -, hstaged, hheld, hfree⟩ := Store.call_pending hx' hc'
    exfalso
    cases hthere : r'.store.tables.accounts.has row with
    | false =>
      obtain ⟨_, hrefused⟩ := Store.call_missing hx' hrow hstaged hheld (by simp [h.line]) hthere now
      cases hc'.symm.trans hrefused
    | true =>
      have hlocked := ha.held_of_there hrow (by rw [h.accounts]; exact hthere)
      rcases Store.busy hfree with ⟨y', hy', hrow'⟩ | ⟨p, hp, -⟩
      · obtain ⟨y, hy, hheld'⟩ := h.holder hy'
        have hbefore := ha.held_before hy hlocked (hheld' row hrow')
        have howner : o = y'.owner := h.original.sound.exclusive hx hy hbefore (hheld' row hrow')
        have htx := Store.tx?_of_mem h.erased.sound.owners hy'
        rw [← howner, hx'] at htx
        obtain rfl := Option.some.inj htx
        exact hheld hrow'
      · rw [h.line] at hp
        cases hp
  · exact ⟨reply', s', rfl⟩

/-- A call of a transaction that will commit is answered as it was. -/
theorem call (h : Mirrors σ live r r') {o : Nat} (hlive : live o = true) {c : Call} {now : Instant} {e : Exchange}
    (he : r.store.exchange? (.operation (.call o c now)) = some e) :
    ∃ e', r'.store.exchange? (.operation (.call o c now)) = some e' ∧ e = e'.rename σ ∧
      Mirrors σ live (r.step (.operation (.call o c now))) (r'.step (.operation (.call o c now))) := by
  rcases hc : r.store.call o c now with ⟨_ | reply, s⟩
  · simp [Store.exchange?, hc] at he
  obtain rfl : e = ⟨c, reply⟩ := by simpa [Store.exchange?, hc, eq_comm] using he
  obtain ⟨reply', s', hc'⟩ := h.ready hlive hc
  obtain ⟨x, x', hx, hx', htwin⟩ := h.twin o hlive
  obtain ⟨x₁, ha⟩ := Store.call_ready h.original.sound hx hc
  obtain ⟨x₁', ha'⟩ := Store.call_ready h.erased.sound hx' hc'
  obtain ⟨hreply, hdraft⟩ : reply'.map (c.rename σ) = reply ∧ x₁'.draft.rename σ = x₁.draft := by
    have hanswer := ha.answer
    rw [htwin.draft, h.accounts, Tables.answer_rename h.sends, ha'.answer] at hanswer
    exact Prod.mk.inj hanswer
  have hheld : ∀ row ∈ x₁'.held, row ∈ x₁.held := by
    intro row hrow
    rcases ha'.held_there h.erased.sound hx' h.line hc' hrow with hbefore | ⟨hcalled, hthere⟩
    · exact ha.held_of_held (htwin.held row hbefore)
    · exact ha.held_of_there hcalled (by rw [h.accounts]; exact hthere)
  have hstore : (r.step (.operation (.call o c now))).store = s := congrArg Prod.snd hc
  have hstore' : (r'.step (.operation (.call o c now))).store = s' := congrArg Prod.snd hc'
  refine ⟨⟨c, reply'⟩, by simp [Store.exchange?, hc'], by rw [Exchange.rename, hreply], {
    original := h.original.step (by simp [Store.Step.Opens])
    erased := h.erased.step (by simp [Store.Step.Opens])
    ascends := h.ascends
    sends := ?_
    tables := by rw [hstore, hstore', ha.tables, ha'.tables, h.tables]
    account := by rw [hstore, hstore', ha.nextAccount, ha'.nextAccount, h.account]
    drawn := h.drawn
    line := ?_
    twin := ?_
    gone := ?_ }⟩
  · rw [hstore, hstore', Store.call_next hx hc, Store.call_next hx' hc', ← hreply]
    exact h.sends.draw c reply'
  · rw [hstore']
    rcases ha'.waiting with hline | ⟨row, -, hline⟩ <;> rw [hline, h.line]
    rfl
  · intro p hp
    rw [hstore, hstore', ha.tx? hx, ha'.tx? hx']
    split
    · exact ⟨x₁, x₁', rfl, rfl, hdraft.symm, hheld⟩
    · exact h.twin p hp
  · intro p hp
    have hne : p ≠ o := by
      intro heq
      subst heq
      rw [hlive] at hp
      cases hp
    rw [hstore', ha'.tx? hx', if_neg hne]
    exact h.gone p hp

/-! ## One act -/

/-- What survives is answered as it was. -/
theorem act {a : Registry.Act} {later : List Registry.Act} (h : Mirrors σ (r.commits · (a :: later)) r r')
    (ha : r.survives a later = true) :
    r.answer a = (r'.answer a).rename σ ∧ Mirrors σ ((r.act a).commits · later) (r.act a) (r'.act a) := by
  cases a with
  | draw => exact ⟨congrArg Registry.Answer.number h.account, h.draw⟩
  | put a now => exact ⟨rfl, h.put a now⟩
  | step st =>
    cases st with
    | seek o row => cases ha
    | lock o row => cases ha
    | operation op =>
      cases op with
      | leave o => cases ha
      | drop o => cases ha
      | createAccount owner currency balance now =>
        refine ⟨?_, ?_⟩
        · show Registry.Answer.account _ = Registry.Answer.account _
          rw [Store.createAccount_fst, Store.createAccount_fst, h.account]
        · show Mirrors σ _ (r.draw.put ⟨r.store.next.account, owner, currency, balance, now⟩ now)
            (r'.draw.put ⟨r'.store.next.account, owner, currency, balance, now⟩ now)
          rw [← h.account]
          exact h.draw.put _ now
      | clear => exact ⟨rfl, h.clear⟩
      | begin o =>
        refine ⟨rfl, ?_⟩
        rw [Registry.commits_update ha fun p hp => by simpa [Registry.Act.ends, Operation.ends] using Ne.symm hp]
        exact h.begin o
      | call o c now =>
        obtain ⟨hready, hlive⟩ := Bool.and_eq_true _ _ ▸ (show (_ && _) = true from ha)
        obtain ⟨e, he⟩ := Option.isSome_iff_exists.1 hready
        obtain ⟨e', he', rfl, hmirrors⟩ := h.call hlive he
        refine ⟨?_, hmirrors⟩
        simp only [Registry.answer, he, he', Registry.Answer.rename]
      | commit o =>
        obtain ⟨p, hp, hok⟩ := Registry.isCommit_answer ha
        cases hp
        have hlive : r.commits o (.step (.operation (.commit o)) :: later) = true := by
          rw [Registry.commits_cons_of_ends (by simp [Registry.Act.ends, Operation.ends])]
          exact ha
        obtain ⟨hok', hmirrors⟩ := h.commit hlive hok
        have hfate := (h.original.act _).commits_none (r.tx?_commit o) later
        rw [Registry.commits_update hfate fun p hp => by simpa [Registry.Act.ends, Operation.ends] using Ne.symm hp]
        refine ⟨?_, hmirrors⟩
        show Registry.Answer.committed _ = Registry.Answer.committed _
        rw [hok, hok']

end Mirrors

/-! ## The whole run -/

namespace Registry

variable {σ σ' : Renaming} {r : Registry}

theorem exchange_of_answer {a : Act} {e : Exchange} (h : r.answer a = .exchange e) :
    ∃ st, a = .step st ∧ ¬ st.Opens ∧ r.store.exchange? st = some e := by
  have hsome {found : Option Exchange}
      (h : (match found with | some e => Answer.exchange e | none => Answer.nothing) = .exchange e) :
      found = some e := by
    cases found with
    | none => cases h
    | some e => rw [Answer.exchange.inj h]
  cases a with
  | draw => cases h
  | put a now => cases h
  | step st =>
    refine ⟨st, rfl, ?_, ?_⟩
    · rintro ⟨owner, currency, balance, now, rfl⟩
      cases h
    · cases st with
      | operation op =>
        cases op with
        | createAccount owner currency balance now => cases h
        | commit o => cases h
        | _ => exact hsome h
      | _ => exact hsome h

/-- Renamings that agree on what has got an id rename an answer alike. -/
theorem Kept.answer_congr (hr : r.Kept) {a : Act} (h : σ.Agrees σ' (r.act a).store.next) :
    (r.answer a).rename σ' = (r.answer a).rename σ := by
  cases ha : r.answer a with
  | exchange e =>
    obtain ⟨st, rfl, hst, he⟩ := exchange_of_answer ha
    rw [act_step r hst] at h
    have htransfers := Journal.transfers.adds_step hr.sound hst
    have hentries := Journal.entries.adds_step hr.sound hst
    simp only [Journal.recorded, he, Option.bind_some] at htransfers hentries
    refine congrArg Answer.exchange (Exchange.rename_congr h ?_ ?_)
    · intro t ht
      exact htransfers.lt (Option.mem_toList.2 ht)
    · intro e he
      exact hentries.lt (Option.mem_toList.2 he)
  | _ => rfl

end Registry

namespace Mirrors

variable {σ σ' : Renaming} {r r' : Registry}

theorem tables_of_agrees {live : Nat → Bool} (h : Mirrors σ live r r') (hagrees : σ.Agrees σ' r'.store.next) :
    r.store.tables = r'.store.tables.rename σ' := by
  rw [h.tables, h.erased.tables_congr hagrees]

/-- The renaming is changed for ids that are yet to be given, each time that one is skipped. -/
theorem run {acts : List Registry.Act} (h : Mirrors σ (r.commits · acts) r r') :
    ∃ σ' : Renaming, σ'.Ascends ∧ σ.Agrees σ' r'.store.next ∧ ∀ before after, acts = before ++ after →
      let q := r.run before
      let q' := r'.run (r.survivors before after)
      q.store.tables = q'.store.tables.rename σ' ∧ q'.store.waiting = [] ∧
      ∀ a later, after = a :: later → q.survives a later = true → q.answer a = (q'.answer a).rename σ' := by
  induction acts generalizing σ r r' with
  | nil =>
    refine ⟨σ, h.ascends, .refl _ _, ?_⟩
    intro before after hacts
    obtain ⟨rfl, rfl⟩ := List.append_eq_nil_iff.1 hacts.symm
    refine ⟨h.tables, h.line, ?_⟩
    intro a later hafter
    cases hafter
  | cons a acts ih =>
    cases ha : r.survives a acts with
    | false =>
      obtain ⟨σ', hascends, hagrees, hrun⟩ := ih (h.erase ha)
      have hagrees' := (σ.agrees_extend ..).trans hagrees (Int.le_refl _) (Int.le_refl _)
      refine ⟨σ', hascends, hagrees', ?_⟩
      intro before after hacts
      cases before with
      | nil =>
        obtain rfl : a :: acts = after := hacts
        refine ⟨h.tables_of_agrees hagrees', h.line, ?_⟩
        intro b later hafter hb
        obtain ⟨rfl, rfl⟩ := List.cons.inj hafter
        exact absurd (ha.symm.trans hb) (by simp)
      | cons b before =>
        rw [List.cons_append] at hacts
        obtain ⟨rfl, rfl⟩ := List.cons.inj hacts
        rw [Registry.survivors, if_neg (by rw [ha]; simp)]
        exact hrun before after rfl
    | true =>
      obtain ⟨hanswer, hmirrors⟩ := h.act ha
      obtain ⟨σ', hascends, hagrees, hrun⟩ := ih hmirrors
      obtain ⟨htransfer, hentry⟩ := h.erased.next_le_act a
      have hagrees' := (Renaming.Agrees.refl σ _).trans hagrees htransfer hentry
      refine ⟨σ', hascends, hagrees', ?_⟩
      intro before after hacts
      cases before with
      | nil =>
        obtain rfl : a :: acts = after := hacts
        refine ⟨h.tables_of_agrees hagrees', h.line, ?_⟩
        intro b later hafter _
        obtain ⟨rfl, rfl⟩ := List.cons.inj hafter
        exact hanswer.trans (h.erased.answer_congr hagrees).symm
      | cons b before =>
        rw [List.cons_append] at hacts
        obtain ⟨rfl, rfl⟩ := List.cons.inj hacts
        rw [Registry.survivors, if_pos ha]
        exact hrun before after rfl

end Mirrors

namespace Registry

/-- Of any run take away all that belongs to transactions that do not commit, and all waiting.
    One renaming, which keeps the order of the ids of transfers and of the ids of entries,
    takes what is left to the run at every point:
    1. the tables are the same;
    2. nobody waits, and what comes next is answered in the same way. -/
theorem erased_run (acts : List Act) : ∃ σ : Renaming, σ.Ascends ∧ ∀ before after, acts = before ++ after →
    let r := ({} : Registry).run before
    let r' := ({} : Registry).run (({} : Registry).survivors before after)
    r.store.tables = r'.store.tables.rename σ ∧ r'.store.waiting = [] ∧
    ∀ a later, after = a :: later → r.survives a later = true → r.answer a = (r'.answer a).rename σ := by
  have hstart : Mirrors {} (({} : Registry).commits · acts) {} {} := {
    original := kept_empty
    erased := kept_empty
    ascends := ⟨strictMono_id, strictMono_id⟩
    sends := ⟨fun k _ => by show k = 1 + (k - 1); omega, fun k _ => by show k = 1 + (k - 1); omega⟩
    tables := rfl
    account := rfl
    drawn := rfl
    line := rfl
    twin := fun o ho => by rw [kept_empty.commits_none rfl] at ho; cases ho
    gone := fun _ _ => rfl }
  obtain ⟨σ, hascends, -, hrun⟩ := hstart.run
  exact ⟨σ, hascends, hrun⟩

/-- The first owner rolls back, and with it goes its entry: the entry of the second owner has
    the id 3 in the run and the id 2 in what survives. -/
example :
    let opening := Act.step (.operation (.createAccount "ann" "EUR" 100 .epoch))
    let begins o := Act.step (.operation (.begin o))
    let inserts o := Act.step (.operation (.call o (.insertEntry 1 5) .epoch))
    let commits o := Act.step (.operation (.commit o))
    let acts := [opening, begins 1, begins 2, inserts 1, inserts 2, .step (.operation (.drop 1)), commits 2]
    let survivors := ({} : Registry).survivors acts []
    survivors = [opening, begins 2, inserts 2, commits 2] ∧
      (({} : Registry).run acts).store.tables.entries.map (·.id) = [1, 3] ∧
      (({} : Registry).run survivors).store.tables.entries.map (·.id) = [1, 2] :=
  ⟨rfl, rfl, rfl⟩

/-- The act is a call or a commit of the owner. -/
def Act.asks (o : Nat) : Act → Bool
  | .step (.operation (.call p ..)) => p == o
  | .step (.operation (.commit p)) => p == o
  | _ => false

/-- What an owner is told in the course of a run. -/
def told (r : Registry) (o : Nat) : List Act → List Answer
  | [] => []
  | a :: later => if a.asks o then r.answer a :: (r.act a).told o later else (r.act a).told o later

/-- The second owner waits for the row of the first, gets its lock when the first is dropped,
    and reads the row after the tables have been emptied: the account is not found, and the
    commit, with nothing staged, succeeds. With the call put where the lock was granted, and
    the first owner erased, the account is found, and then the commit fails for want of it;
    no renaming makes one of the other. -/
theorem a_granted_call_does_not_count_yet :
    let opening := Act.step (.operation (.createAccount "ann" "EUR" 100 .epoch))
    let begins o := Act.step (.operation (.begin o))
    let gets o := Act.step (.operation (.call o (.get 1) .epoch))
    let commits o := Act.step (.operation (.commit o))
    let emptying := Act.step (.operation .clear)
    let waits := [opening, begins 1, begins 2, gets 1, .step (.seek 2 1), .step (.operation (.drop 1))]
    let granted := waits ++ [.step (.lock 2 1)]
    let acts := granted ++ [emptying, gets 2, commits 2]
    let placed := [opening, begins 2, gets 2, emptying, commits 2]
    ((({} : Registry).run waits).store.tx? 2).map (·.held) = some [] ∧
      ((({} : Registry).run granted).store.tx? 2).map (·.held) = some [1] ∧
      ({} : Registry).survivors acts [] = [opening, begins 2, emptying, gets 2, commits 2] ∧
      ({} : Registry).told 2 acts =
        [.exchange ⟨.get 1, .error (.accountNotFound 1)⟩, .committed (.ok ())] ∧
      ({} : Registry).told 2 placed =
        [.exchange ⟨.get 1, .ok ⟨1, "ann", "EUR", 100, .epoch⟩⟩, .committed (.error (.accountNotFound 1))] ∧
      ∀ σ : Renaming, ({} : Registry).told 2 acts ≠ (({} : Registry).told 2 placed).map (·.rename σ) := by
  refine ⟨rfl, rfl, rfl, rfl, rfl, fun σ h => ?_⟩
  have hcommit := congrArg List.getLast? h
  cases Option.some.inj hcommit

end Registry

end Giro
