import Giro.Proofs.Leads
import Giro.Proofs.Watch

/-
  Giro.Proofs.Serial — transactions that run side by side end as if each had the store to
  itself.

  Over a fixed set of accounts, take any run of any transactions: reads, updates and
  inserts in any order the row locks permit, waits, failed calls, rollbacks and commits.
  Its committed transactions, one after the other in the order of their commits, write the
  final tables (`run_serial`), and a store that does just their calls in that order
  answers alike and ends alike, up to ids and times of new records (`run_replays`). No
  committed update is lost: every read gives the balance that was last committed before
  in that order, or last written by the transaction itself. A transfer of the engine that is
  done over alone ends with the same balances in its receipt (`transfer_replayed`).

  Main statement: `serializable`.
-/

namespace Giro

/-- Transactions one after the other: each transcript is written over what the ones before
    it published, and published in turn. -/
inductive Serial (start : Tables) : List Transcript → Tables → Prop
  | nil : Serial start [] start
  | snoc {ls : List Transcript} {t : Tables} {l : Transcript} {x : Transaction} (h : Serial start ls t) :
      Written t.accounts l x.draft → Serial start (ls ++ [l]) (t.publish x)

/-- Does the calls of a transcript in a transaction of one owner, and commits. -/
def Transcript.replay (o : Nat) (now : Instant) (l : Transcript) : List Operation :=
  .begin o :: l.map (fun e => .call o e.call now) ++ [.commit o]

/-! ## The committed transactions, one after the other -/

namespace Watch

/-- A commit publishes the draft and puts the transcript last; any other outcome leaves the
    tables and the list of commits. -/
theorem apply_commit (w : Watch) (o : Nat) :
    (w.apply (.commit o)).committed = w.committed ∧ (w.apply (.commit o)).store.tables = w.store.tables ∨
      ∃ x, w.store.tx? o = some x ∧ (w.apply (.commit o)).committed = w.committed ++ [w.logs o] ∧
        (w.apply (.commit o)).store.tables = w.store.tables.publish x := by
  rcases hc : w.store.commit o with ⟨r, s⟩
  simp only [apply, Store.apply, hc]
  cases hc ▸ Store.committed w.store o with
  | noTx _ => exact .inl ⟨rfl, rfl⟩
  | gone _ _ => exact .inl ⟨rfl, rfl⟩
  | done hx _ => exact .inr ⟨_, hx, rfl, rfl⟩

theorem apply_serial {w : Watch} (h : w.Faithful) {start : Tables} (hs : Serial start w.committed w.store.tables)
    {op : Operation} (hop : op.OfTx) : Serial start (w.apply op).committed (w.apply op).store.tables := by
  by_cases hcommit : ∃ o, op = .commit o
  · obtain ⟨o, rfl⟩ := hcommit
    rcases w.apply_commit o with ⟨hc, ht⟩ | ⟨x, hx, hc, ht⟩
    · rwa [hc, ht]
    · rw [hc, ht]
      exact hs.snoc (h.written hx)
  · have hc : (w.apply op).committed = w.committed := by
      cases op with
      | commit o => exact absurd ⟨o, rfl⟩ hcommit
      | _ => rfl
    have hstep := Store.tableStep h.sound op
    rw [hc, apply_store]
    generalize (w.store.apply op).tables = t, (w.store.apply op).next.account = n at hstep ⊢
    cases hstep with
    | same => exact hs
    | opened => cases hop
    | emptied => cases hop
    | published => exact absurd ⟨_, rfl⟩ hcommit

theorem faithful_idle {s : Store} (h : s.Idle) : Faithful { store := s } where
  sound := h.sound
  written hx := by rw [h.tx?] at hx; cases hx

/-- Side by side or one after the other: the committed transcripts, in the order of their
    commits, write the final tables. -/
theorem run_serial {s : Store} (h : s.Idle) {ops : List Operation} (hops : ∀ op ∈ ops, op.OfTx) :
    Serial s.tables (run { store := s } ops).committed (run { store := s } ops).store.tables := by
  suffices ∀ w : Watch, w.Faithful → Serial s.tables w.committed w.store.tables →
      Serial s.tables (w.run ops).committed (w.run ops).store.tables from
    this { store := s } (faithful_idle h) .nil
  induction ops with
  | nil => exact fun w _ hs => hs
  | cons op ops ih =>
    intro w hw hs
    have hop : op.OfTx := hops op (List.mem_cons_self ..)
    exact ih (fun op' h' => hops op' (List.mem_cons_of_mem _ h')) (w.apply op) (hw.apply hop) (apply_serial hw hs hop)

end Watch

/-! ## No update is lost -/

namespace Serial

variable {start t : Tables} {ls : List Transcript}

theorem sorted (h : Serial start ls t) (hstart : start.accounts.Sorted) : t.accounts.Sorted := by
  induction h with
  | nil => exact hstart
  | snoc _ _ ih => exact ih.putAll _

/-- Each account ends with the balance that was committed last. -/
theorem find? (h : Serial start ls t) (hstart : start.accounts.Sorted) (row : Int) :
    t.accounts.find? row = (start.accounts.find? row).map (Transcript.leave ls.flatten) := by
  induction h with
  | nil => cases start.accounts.find? row <;> simp
  | @snoc ls t l x h hw ih =>
    have hlook : (t.publish x).accounts.find? row = x.draft.look t.accounts row :=
      Rows.find?_putAll hw.sorted (h.sorted hstart) row
    rw [hlook, hw.look, ih, Option.map_map]
    congr 1
    funext a
    simp

/-- Each transaction was written over what the ones before it left. -/
theorem prior (h : Serial start ls t) (n : Nat) {l : Transcript} (hn : ls[n]? = some l) :
    ∃ t' d, Serial start (ls.take n) t' ∧ Written t'.accounts l d := by
  induction h with
  | nil => cases hn
  | @snoc ls t l' x h hw ih =>
    rcases Nat.lt_trichotomy n ls.length with hlt | rfl | hgt
    · rw [List.getElem?_append_left hlt] at hn
      rw [List.take_append_of_le_length (Nat.le_of_lt hlt)]
      exact ih hn
    · rw [List.getElem?_append_right (Nat.le_refl _), Nat.sub_self] at hn
      cases hn
      rw [List.take_left]
      exact ⟨t, _, h, hw⟩
    · rw [List.getElem?_eq_none (by simp; omega)] at hn
      cases hn

/-- A read gives the balance that was committed last before, or that the transaction wrote
    last itself. -/
theorem read (h : Serial start ls t) (hstart : start.accounts.Sorted) {n : Nat} {l l' : Transcript} {row : Int}
    {a : Account} (hn : ls[n]? = some (l ++ ⟨.get row, .ok a⟩ :: l')) :
    (start.accounts.find? row).map (Transcript.leave ((ls.take n).flatten ++ l)) = some a := by
  obtain ⟨t', d, ht, hw⟩ := h.prior n hn
  rw [← hw.read, ht.find? hstart, Option.map_map]
  congr 1
  funext b
  simp

end Serial

/-! ## The same calls, one transaction after the other -/

namespace Watch

/-- The owner of the only open transaction, with nobody waiting. -/
structure Alone (w : Watch) (o : Nat) (x : Transaction) : Prop where
  sound : w.store.Sound
  tx : w.store.tx? o = some x
  only : ∀ y ∈ w.store.txs, y = x
  waiting : w.store.waiting = []

theorem alone_begin {w : Watch} (h : w.store.Idle) (o : Nat) : (w.apply (.begin o)).Alone o { owner := o } where
  sound := h.sound.begin o
  tx := by rw [apply_store, Store.apply, Store.tx?_begin, if_pos rfl]
  only y hy := by simpa [Store.apply, Store.begin, Store.forget, h.txs] using hy
  waiting := by simp [Store.apply, Store.begin, Store.forget, h.waiting]

/-- Alone in the store nothing waits: a call is answered at once. -/
theorem Alone.ready {w : Watch} {o : Nat} {x : Transaction} (h : w.Alone o x) (c : Call) (now : Instant) :
    ∃ r s' x', w.store.call o c now = (.ready r, s') ∧
      Store.Answered w.store x c (c.number w.store.next) now r s' x' ∧
      ∀ w' : Watch, w'.store = s' → w'.Alone o x' := by
  rcases hc : w.store.call o c now with ⟨r | r, s'⟩
  · obtain ⟨row, -, -, -, hheld, hbusy⟩ := Store.call_pending h.tx hc
    have hfree : w.store.isFreeFor o row = true := by
      simp only [Store.isFreeFor, h.waiting, List.takeWhile_nil, List.all_nil, Bool.and_true, List.all_eq_true]
      intro y hy
      rw [h.only y hy]
      simpa using hheld
    rw [hfree] at hbusy
    cases hbusy
  · obtain ⟨x', ha⟩ := Store.call_ready h.sound h.tx hc
    refine ⟨r, s', x', rfl, ha, ?_⟩
    rintro w' rfl
    refine ⟨h.sound.answered h.tx ha, ?_, ?_, ?_⟩
    · rw [ha.tx? h.tx, if_pos rfl]
    · rw [ha.txs]
      intro y hy
      obtain ⟨z, hz, rfl⟩ := List.mem_map.1 hy
      rw [h.only z hz, if_pos ha.owner.symm]
    · rcases ha.waiting with hw | ⟨row, -, hw⟩ <;> rw [hw, h.waiting]
      rfl

/-- The answer comes from the draft. -/
theorem Alone.call {w : Watch} {o : Nat} {x : Transaction} (h : w.Alone o x) (c : Call) (now : Instant) :
    ∃ id x', (w.apply (.call o c now)).Alone o x' ∧ (w.apply (.call o c now)).store.tables = w.store.tables ∧
      x'.draft = (x.draft.answer w.store.tables.accounts id now c).2 ∧
      (w.apply (.call o c now)).logs o = w.logs o ++ [⟨c, (x.draft.answer w.store.tables.accounts id now c).1⟩] := by
  obtain ⟨r, s', x', hc, ha, halone⟩ := h.ready c now
  have hs : (w.apply (.call o c now)).store = s' := by rw [apply_store, Store.apply, hc]
  refine ⟨_, x', halone _ hs, by rw [hs, ha.tables], by rw [ha.answer], ?_⟩
  rw [w.apply_call hc, ha.answer]
  exact Function.update_self ..

/-- The calls of a transcript, asked over the rows it was written over, are answered alike
    up to ids and times. -/
theorem run_calls {rows : Rows} {l : Transcript} {d : Tables} (hl : Written rows l d) {w : Watch}
    (h : w.store.Idle) (hrows : w.store.tables.accounts = rows) (o : Nat) (now : Instant) :
    ∃ x, (w.run (.begin o :: l.map fun e => .call o e.call now)).Alone o x ∧ x.draft.gist = d.gist ∧
      ((w.run (.begin o :: l.map fun e => .call o e.call now)).logs o).map Exchange.gist = l.map Exchange.gist ∧
      (w.run (.begin o :: l.map fun e => .call o e.call now)).store.tables = w.store.tables ∧
      (w.run (.begin o :: l.map fun e => .call o e.call now)).committed = w.committed := by
  induction hl with
  | nil =>
    refine ⟨{ owner := o }, alone_begin h o, rfl, ?_, rfl, rfl⟩
    show ((w.apply (.begin o)).logs o).map Exchange.gist = _
    rw [apply]
    simp
  | @snoc l d hl c id now' ih =>
    obtain ⟨x, halone, hgist, hlog, htables, hcommitted⟩ := ih
    rw [List.map_append, ← List.cons_append, run_append, List.map_singleton, run_cons, run_nil]
    generalize w.run (.begin o :: l.map fun e => .call o e.call now) = w₁ at *
    obtain ⟨id', x', halone', htables', hdraft, hlogs⟩ := halone.call c now
    rw [htables, hrows] at hdraft hlogs
    obtain ⟨hans, hgist'⟩ := Tables.gist_answer hgist rows id' id now now' c
    refine ⟨x', halone', by rw [hdraft, hgist'], ?_, by rw [htables', htables], hcommitted⟩
    rw [hlogs, List.map_append, List.map_append, hlog]
    simp [Exchange.gist, hans]

/-- A transaction done over alone commits again, with the same gist. -/
theorem run_replay {t : Tables} {l : Transcript} {x : Transaction} (hl : Written t.accounts l x.draft) {w : Watch}
    (h : w.store.Idle) (htables : w.store.tables.gist = t.gist) (o : Nat) (now : Instant) :
    (w.run (l.replay o now)).store.Idle ∧ (w.run (l.replay o now)).store.tables.gist = (t.publish x).gist ∧
      ∃ l', l'.map Exchange.gist = l.map Exchange.gist ∧ (w.run (l.replay o now)).committed = w.committed ++ [l'] := by
  have hrows : w.store.tables.accounts = t.accounts := (Prod.mk.inj htables).1
  obtain ⟨y, halone, hgist, hlog, ht, hcommitted⟩ := run_calls hl h hrows o now
  rw [Transcript.replay, run_append, run_cons, run_nil]
  generalize w.run (.begin o :: l.map fun e => .call o e.call now) = w₁ at *
  have hy : y.accounts = x.accounts := (Prod.mk.inj hgist).1
  have hsound : (w₁.apply (.commit o)).store.Sound := halone.sound.apply (.commit o)
  rcases hc : w₁.store.commit o with ⟨r, s'⟩
  simp only [apply, Store.apply, hc] at hsound ⊢
  have htxs : (w₁.store.forget o).txs = [] := by
    rw [Store.forget, List.filter_eq_nil_iff]
    intro z hz
    rw [halone.only z hz]
    simpa using Store.owner_of_tx? halone.tx
  have hwait : (w₁.store.forget o).waiting = [] := by rw [Store.forget, halone.waiting]; rfl
  cases hc ▸ Store.committed w₁.store o with
  | noTx hn => rw [halone.tx] at hn; cases hn
  | @gone z a hz ha =>
    rw [halone.tx] at hz
    cases hz
    have hno : w₁.store.tables.accounts.has a.id = false := by simpa using List.find?_some ha
    have hknown := hl.known (Rows.has_of_mem (hy ▸ List.mem_of_find?_eq_some ha : a ∈ x.accounts))
    rw [ht, hrows, hknown] at hno
    cases hno
  | @done z hz _ =>
    rw [halone.tx] at hz
    cases hz
    refine ⟨⟨htxs, hwait, hsound.sorted⟩, ?_, w₁.logs o, hlog, by rw [hcommitted]⟩
    rw [ht]
    exact Tables.gist_publish htables hgist

theorem run_replays {start t : Tables} {ls : List Transcript} (hls : Serial start ls t) {s : Store} (h : s.Idle)
    (hstart : s.tables = start) (o : Nat) (now : Instant) :
    (run { store := s } (ls.flatMap (Transcript.replay o now))).store.Idle ∧
      (run { store := s } (ls.flatMap (Transcript.replay o now))).store.tables.gist = t.gist ∧
      (run { store := s } (ls.flatMap (Transcript.replay o now))).committed.map (List.map Exchange.gist) =
        ls.map (List.map Exchange.gist) := by
  induction hls with
  | nil => exact ⟨h, by rw [← hstart]; rfl, rfl⟩
  | @snoc ls t l x hls hl ih =>
    obtain ⟨hidle, hgist, hcommitted⟩ := ih
    rw [List.flatMap_append, run_append, List.flatMap_singleton]
    obtain ⟨hidle', hgist', l', hl', hcommitted'⟩ := run_replay hl hidle hgist o now
    refine ⟨hidle', hgist', ?_⟩
    rw [hcommitted', List.map_append, hcommitted, List.map_append]
    simp [hl']

end Watch

/-- Whatever program a transaction followed, a program alike comes as far on the answers of its
    replay. -/
theorem Watch.replay_leads {s : Store} (h : s.Idle) {ops : List Operation} (hops : ∀ op ∈ ops, op.OfTx) (now : Instant)
    {n : Nat} {l l' : Transcript} {α : Type} {R : α → α → Prop} {p p' q : Work α} (hp : Work.Alike R p p')
    (hl : (Watch.run { store := s } ops).committed[n]? = some l)
    (hl' : (Watch.run { store := s } ((Watch.run { store := s } ops).committed.flatMap
      (Transcript.replay 0 now))).committed[n]? = some l')
    (hq : p.Leads l q) : ∃ q', p'.Leads l' q' ∧ Work.Alike R q q' := by
  obtain ⟨-, -, hcommitted⟩ := Watch.run_replays (Watch.run_serial h hops) h rfl 0 now
  have hgist := congrArg (·[n]?) hcommitted
  simp only [List.getElem?_map, hl, hl', Option.map_some, Option.some.injEq] at hgist
  exact hp.leads hgist.symm hq

/-! ## Serializability -/

/-- From a store with no open transaction, let any transactions move in any order. The
    committed ones, one after the other in the order of their commits:
    1. with the ids and times that their records got, write exactly the final tables, on
       exactly the answers they were given;
    2. asked again of a store that has only these calls to answer, get the same answers, up
       to ids and times;
    3. and lead it to the same tables, up to ids and times;
    4. where they followed a program that looks at no id and no time, that program asks the
       same calls there and ends alike;
    5. leave each account with the balance that was written last;
    6. read in each account the balance that was committed last before, or that they wrote
       last themselves. -/
theorem serializable {s : Store} (h : s.Idle) {ops : List Operation} (hops : ∀ op ∈ ops, op.OfTx) (now : Instant) :
    let w := Watch.run { store := s } ops
    let w' := Watch.run { store := s } (w.committed.flatMap (Transcript.replay 0 now))
    Serial s.tables w.committed w.store.tables ∧
    w'.committed.map (List.map Exchange.gist) = w.committed.map (List.map Exchange.gist) ∧
    w'.store.tables.gist = w.store.tables.gist ∧
    (∀ (n : Nat) (l l' : Transcript), w.committed[n]? = some l → w'.committed[n]? = some l' →
      ∀ (α : Type) (p q : Work α), p.Blind → p.Leads l q →
        ∃ q', p.Leads l' q' ∧ Work.Alike (fun _ _ => True) q q') ∧
    (∀ row, w.store.tables.accounts.find? row =
      (s.tables.accounts.find? row).map (Transcript.leave w.committed.flatten)) ∧
    ∀ (n : Nat) (l l' : Transcript) (row : Int) (a : Account),
      w.committed[n]? = some (l ++ ⟨.get row, .ok a⟩ :: l') →
        (s.tables.accounts.find? row).map (Transcript.leave ((w.committed.take n).flatten ++ l)) = some a := by
  intro w w'
  have hserial : Serial s.tables w.committed w.store.tables := Watch.run_serial h hops
  obtain ⟨-, htables, hcommitted⟩ := Watch.run_replays hserial h rfl 0 now
  exact ⟨hserial, hcommitted, htables, fun n l l' hl hl' α p q hp hq => Watch.replay_leads h hops now hp hl hl' hq,
    hserial.find? h.sorted, fun n l l' row a => hserial.read h.sorted⟩

/-- A store with one account of 100. -/
def oneAccount : Store := (Store.createAccount {} "ann" "EUR" 100 .epoch).2

/-- Two owners take 10 out of it at once; the second one waits for the row. -/
def twoWithdrawals : List Operation :=
  [.begin 1, .begin 2, .call 1 (.get 1) .epoch, .call 2 (.get 1) .epoch, .call 1 (.update 1 90) .epoch, .commit 1,
    .call 2 (.get 1) .epoch, .call 2 (.update 1 80) .epoch, .commit 2]

theorem serializable_twoWithdrawals :
    oneAccount.Idle ∧ (∀ op ∈ twoWithdrawals, op.OfTx) ∧
      (Watch.run { store := oneAccount } twoWithdrawals).committed.length = 2 ∧
      (Watch.run { store := oneAccount } twoWithdrawals).store.account? 1 = some ⟨1, "ann", "EUR", 80, .epoch⟩ ∧
      (Watch.run { store := oneAccount } ((Watch.run { store := oneAccount } twoWithdrawals).committed.flatMap
        (Transcript.replay 0 .epoch))).store.tables.gist =
        (Watch.run { store := oneAccount } twoWithdrawals).store.tables.gist := by
  have hidle : oneAccount.Idle := ⟨rfl, rfl, List.pairwise_singleton ..⟩
  have hops : ∀ op ∈ twoWithdrawals, op.OfTx := by decide
  exact ⟨hidle, hops, by decide +kernel, by decide +kernel, (serializable hidle hops .epoch).2.2.1⟩

/-- A transfer that was committed in the midst of others comes to its end when it is done over
    alone, in its turn, and its receipt shows the same accounts with the same balances. -/
theorem transfer_replayed {s : Store} (h : s.Idle) {ops : List Operation} (hops : ∀ op ∈ ops, op.OfTx) (now : Instant)
    {n : Nat} {l l' : Transcript} {order : TransferOrder} {receipt : TransferReceipt}
    (hl : (Watch.run { store := s } ops).committed[n]? = some l)
    (hl' : (Watch.run { store := s } ((Watch.run { store := s } ops).committed.flatMap
      (Transcript.replay 0 now))).committed[n]? = some l')
    (hdone : (Work.transfer order).Leads l (.done (.ok receipt))) :
    ∃ receipt', (Work.transfer order).Leads l' (.done (.ok receipt')) ∧ Work.SameAccounts receipt receipt' := by
  obtain ⟨q, hq, halike⟩ := Watch.replay_leads h hops now (Work.transfer_alike order) hl hl' hdone
  cases halike with
  | ok hsame => exact ⟨_, hq, hsame⟩

end Giro
