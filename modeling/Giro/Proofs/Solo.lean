import Giro.Proofs.Polling
import Giro.Proofs.Posting
import Giro.Proofs.Registry
import Giro.Proofs.Serial

/-
  Giro.Proofs.Solo — a job that has the store to itself.

  With no other transaction open no call waits, so that what a program does is a function of
  the committed rows and the counters (`Work.eval`). The store is polled once and the job is
  finished (`Job.poll_solo`): the result is the program's, the counters are as it left them,
  and the tables have what it staged if it came to a good end, and else are as they were.
-/

namespace Giro

/-- A transaction that has the store to itself: what it has staged, and the counters. -/
structure Solo where
  draft : Tables := {}
  next : Counters

/-- The answer to a call over the committed rows. -/
def Solo.answer (rows : Rows) (now : Instant) (z : Solo) (c : Call) : Outcome c.Reply × Solo :=
  let (r, draft) := z.draft.answer rows (c.number z.next) now c
  (r, ⟨draft, c.draw z.next r⟩)

namespace Work

variable {α β : Type} {rows : Rows} {now : Instant}

/-- What a program comes to when it is asked over the committed rows with nobody else there. -/
def eval (rows : Rows) (now : Instant) : Work α → Solo → Outcome α × Solo
  | done r, z => (r, z)
  | call c next, z => (next (z.answer rows now c).1).eval rows now (z.answer rows now c).2
  | report _ next, z => next.eval rows now z
  | trace _ next, z => next.eval rows now z
  | sleep _ next, z => next.eval rows now z

/-! ## Programs in sequence -/

theorem eval_bind (p : Work α) (f : α → Work β) (z : Solo) :
    (p.bind f).eval rows now z =
      match p.eval rows now z with
      | (.ok a, z') => (f a).eval rows now z'
      | (.error e, z') => (.error e, z') := by
  induction p generalizing z with
  | done r => cases r <;> rfl
  | call c next ih => exact ih _ _
  | report event next ih => exact ih _
  | trace action next ih => exact ih _
  | sleep ms next ih => exact ih _

theorem eval_bind_ok {p : Work α} {z z' : Solo} {a : α} (h : p.eval rows now z = (.ok a, z')) (f : α → Work β) :
    (p.bind f).eval rows now z = (f a).eval rows now z' := by
  simp only [eval_bind, h]

theorem eval_bind_error {p : Work α} {z z' : Solo} {e : LedgerError} (h : p.eval rows now z = (.error e, z'))
    (f : α → Work β) : (p.bind f).eval rows now z = (.error e, z') := by
  simp only [eval_bind, h]

/-- What it comes to is what its calls, answered so, lead to. -/
theorem eval_written (p : Work α) {z : Solo} {l : Transcript} (h : Written rows l z.draft) :
    ∃ l', p.Leads l' (done (p.eval rows now z).1) ∧ Written rows (l ++ l') (p.eval rows now z).2.draft := by
  induction p generalizing z l with
  | done r => exact ⟨[], .nil, (List.append_nil l).symm ▸ h⟩
  | call c next ih =>
    have hnext := h.snoc c (c.number z.next) now
    obtain ⟨l', hl, hw⟩ := ih (z.answer rows now c).1 (z := (z.answer rows now c).2) hnext
    exact ⟨_, .call _ hl, by rw [List.append_cons]; exact hw⟩
  | report event next ih =>
    obtain ⟨l', hl, hw⟩ := ih h
    exact ⟨l', .report hl, hw⟩
  | trace action next ih =>
    obtain ⟨l', hl, hw⟩ := ih h
    exact ⟨l', .trace hl, hw⟩
  | sleep ms next ih =>
    obtain ⟨l', hl, hw⟩ := ih h
    exact ⟨l', .sleep hl, hw⟩

theorem eval_leads (p : Work α) (rows : Rows) (now : Instant) (n : Counters) :
    ∃ l, p.Leads l (done (p.eval rows now ⟨{}, n⟩).1) ∧ Written rows l (p.eval rows now ⟨{}, n⟩).2.draft :=
  p.eval_written (z := ⟨{}, n⟩) (l := []) .nil

/-! ## Programs that never sleep -/

/-- The program waits for no clock. -/
inductive Awake : Work α → Prop
  | done (r : Outcome α) : Awake (done r)
  | call {c : Call} {next : Outcome c.Reply → Work α} : (∀ r, Awake (next r)) → Awake (call c next)
  | report (event : Event) {next : Work α} : Awake next → Awake (report event next)
  | trace (action : Action) {next : Work α} : Awake next → Awake (trace action next)

theorem Awake.bind {p : Work α} {f : α → Work β} (h : p.Awake) (hf : ∀ a, (f a).Awake) : (p.bind f).Awake := by
  induction h with
  | done r =>
    cases r with
    | ok a => exact hf a
    | error e => exact .done _
  | call _ ih => exact .call ih
  | report event _ ih => exact .report event ih
  | trace action _ ih => exact .trace action ih

theorem awake_ask (c : Call) : (ask c).Awake := .call fun r => .done r

theorem createTransfer_awake (order : TransferOrder) : (createTransfer order).Awake :=
  (awake_ask _).bind fun _ => .report _ (.done _)

theorem createEntry_awake (account amount : Int) : (createEntry account amount).Awake :=
  (awake_ask _).bind fun _ => .report _ (.done _)

theorem addBalance_awake (account delta : Int) : (addBalance account delta).Awake := by
  rw [addBalance_eq]
  refine (awake_ask _).bind fun a => ?_
  split
  · exact .done _
  · exact .report _ (awake_ask _)

theorem transfer_awake (order : TransferOrder) : (transfer order).Awake := by
  rw [transfer_eq]
  split
  · exact .done _
  · refine (createTransfer_awake order).bind fun _ => (createEntry_awake ..).bind fun _ =>
      (createEntry_awake ..).bind fun _ => ?_
    split
    · exact (addBalance_awake ..).bind fun _ => (addBalance_awake ..).bind fun _ => .done _
    · exact (addBalance_awake ..).bind fun _ => (addBalance_awake ..).bind fun _ => .done _

/-- Without hooks a program only has its calls put on record. -/
theorem eval_hooked (p : Work α) (seen : ActionKind → Nat) (z : Solo) :
    (p.hooked [] seen).eval rows now z = p.eval rows now z := by
  induction p generalizing seen z with
  | done r => rfl
  | call c next ih => exact ih _ _ _
  | report event next ih => exact ih seen z
  | trace action next ih => exact ih seen z
  | sleep ms next ih => exact ih seen z

theorem Awake.hooked {p : Work α} (h : p.Awake) (seen : ActionKind → Nat) : (p.hooked [] seen).Awake := by
  induction h generalizing seen with
  | done r => exact .done r
  | call _ ih => exact .trace _ (.call fun r => ih r _)
  | report event _ ih => exact .report event (ih seen)
  | trace action _ ih => exact .trace action (ih seen)

end Work

/-! ## One look -/

/-- The owner of the only open transaction, with nobody waiting. -/
def Store.Alone (s : Store) (o : Nat) (x : Transaction) : Prop := Watch.Alone { store := s } o x

theorem Store.Idle.alone_begin {s : Store} (h : s.Idle) (o : Nat) : (s.begin o).Alone o { owner := o } :=
  have halone := Watch.alone_begin (w := { store := s }) h o
  ⟨halone.sound, halone.tx, halone.only, halone.waiting⟩

/-- Alone in the store a program that never sleeps is over after one look at it. -/
theorem Work.Awake.poll_alone {α : Type} {p : Work α} (hp : p.Awake) {b : Bank} {o : Nat} {x : Transaction}
    (h : b.store.Alone o x) (wake : Option Timer) :
    let result := p.eval b.store.tables.accounts b.stamp ⟨x.draft, b.store.next⟩
    ∃ rest b' x', p.poll o wake b = (.ready result.1, rest, b') ∧ b'.store.Alone o x' ∧ x'.draft = result.2.draft ∧
      b'.store.next = result.2.next ∧ b'.store.tables = b.store.tables := by
  induction hp generalizing b x wake with
  | done r => exact ⟨_, b, x, rfl, h, rfl, rfl, rfl⟩
  | @call c next _ ih =>
    obtain ⟨r, s', x', hc, ha, halone⟩ := Watch.Alone.ready h c b.stamp
    have hdrawn : s'.next = c.draw b.store.next r := Store.call_next h.tx hc
    have hanswer : Solo.answer b.store.tables.accounts b.stamp ⟨x.draft, b.store.next⟩ c =
        (r, ⟨x'.draft, s'.next⟩) := by
      simp only [Solo.answer, ha.answer, hdrawn]
    have hnext := ih r (b := { b with store := s' }) (halone { store := s' } rfl) none
    simp only [ha.tables] at hnext
    simp only [Work.poll, Work.eval, hc, hanswer]
    exact hnext
  | report event _ ih => exact ih (b := b.report event) h none
  | trace action _ ih => exact ih (b := b.write (.action o action)) h none

/-- The only transaction that was open is gone, and so the store is at rest. -/
theorem Store.Alone.forget {s : Store} {o : Nat} {x : Transaction} (h : s.Alone o x) :
    s.forget o = { tables := s.tables, next := s.next } := by
  have htxs : s.txs.filter (·.owner != o) = [] := by
    refine List.filter_eq_nil_iff.2 fun y hy => ?_
    rw [h.only y hy]
    simpa using owner_of_tx? h.tx
  have hwaiting : s.waiting = [] := h.waiting
  rw [Store.forget, htxs, hwaiting]
  rfl

namespace Job

variable {α : Type} {j : Job α} {b : Bank} {x : Transaction}

/-- A gate without hooks is open. -/
theorem gate_poll (action : Action) (kind : ActionKind) (o : Nat) (wake : Option Timer) (b : Bank) :
    Remainder.poll o ⟨Work.gate [] action kind, wake⟩ b =
      (.ready (.ok ()), ⟨.done (.ok ()), none⟩, b.write (.action o action)) := rfl

/-- Alone in the store a commit publishes what was staged, as long as its accounts are there. -/
theorem pollCommit_alone (hgate : j.commit = ⟨Work.gate [] .commit .commit, none⟩) (h : b.store.Alone j.owner x)
    (hthere : ∀ a ∈ x.accounts, b.store.tables.accounts.has a.id = true) (value : α) :
    (parts.pollCommit value (j, b)).1 = .finished (.ok value) ∧
      (parts.pollCommit value (j, b)).2.2.store = { tables := b.store.tables.publish x, next := b.store.next } := by
  have hcommit : b.store.commit j.owner = (.ok (), { tables := b.store.tables.publish x, next := b.store.next }) := by
    rw [Store.commit_of_known h.tx hthere, h.forget]
  simp only [Parts.pollCommit, parts, pollCommit, hgate, gate_poll, Bank.write, hcommit]
  exact ⟨trivial, trivial⟩

/-- Alone in the store a rollback leaves nothing behind but the counters. -/
theorem pollRollback_alone (hgate : j.rollback = ⟨Work.gate [] .rollback .rollback, none⟩)
    (h : b.store.Alone j.owner x) (e : LedgerError) :
    (parts.pollRollback e (j, b)).1 = .finished (.error e) ∧
      (parts.pollRollback e (j, b)).2.2.store = { tables := b.store.tables, next := b.store.next } := by
  have htx : b.store.tx? j.owner = some x := h.tx
  simp only [Parts.pollRollback, parts, pollRollback, hgate, gate_poll, Bank.write, Bank.rollback, htx, Bank.report,
    h.forget]
  exact ⟨trivial, trivial⟩

/-- A job that finds the store at rest is finished after one look at it, whatever its alarms. -/
theorem poll_solo {p : Work α} (hp : p.Awake) (hrest : b.store.Idle) (o : Nat) (timer : Timer) (alarms : List Alarm)
    (verdict : Outcome α → Option Event) :
    let result := p.eval b.store.tables.accounts b.stamp ⟨{}, b.store.next⟩
    ((Job.start o timer [] alarms p verdict).poll b).1.stage = .finished result.1 ∧
      ∃ x : Transaction, x.draft = result.2.draft ∧ ((Job.start o timer [] alarms p verdict).poll b).2.store =
        { tables := match result.1 with
            | .ok _ => b.store.tables.publish x
            | .error _ => b.store.tables
          next := result.2.next } := by
  intro result
  let j := Job.start o timer [] alarms p verdict
  let b₁ : Bank := { b.write (.action o .begin) with store := b.store.begin o }
  have hlook : ∃ rest b₂ x, (p.hooked [] fun _ => 0).poll o none b₁ = (.ready result.1, rest, b₂) ∧
      b₂.store.Alone o x ∧ x.draft = result.2.draft ∧ b₂.store.next = result.2.next ∧
      b₂.store.tables = b.store.tables := by
    have hlook := (hp.hooked fun _ => 0).poll_alone (b := b₁) (hrest.alone_begin o) none
    rwa [Work.eval_hooked] at hlook
  obtain ⟨rest, b₂, x, hpoll, halone, hdraft, hnext, htables⟩ := hlook
  let j₁ : Job α := { j with begin := ⟨.done (.ok ()), none⟩ }
  let j₂ : Job α := { j₁ with work := rest }
  have hwork : pollWork (j₁, b₁) = (.ready result.1, j₂, b₂) := by
    let polled := (p.hooked [] fun _ => 0).poll o none b₁
    have hpolled : polled = (.ready result.1, rest, b₂) := hpoll
    show (polled.1, { j₁ with work := polled.2.1 }, polled.2.2) = _
    rw [hpolled]
  have hparts : parts.poll j.stage (j, b) =
      match result.1 with
      | .ok value => parts.pollCommit value (j₂, b₂)
      | .error e => parts.pollRollback e (j₂, b₂) := by
    show parts.pollWork (j₁, b₁) = _
    simp only [Parts.pollWork, parts, hwork]
    cases result.1 <;> rfl
  obtain ⟨hstage, hstore⟩ := Job.poll_parts (j := j) (fun r h => by cases h) b
  rw [hparts] at hstage hstore
  have hstage := congrArg Job.stage hstage
  rw [← hnext, ← htables]
  cases hend : result.1 with
  | error e =>
    rw [hend] at hstage hstore
    obtain ⟨hfinished, hleft⟩ := pollRollback_alone (j := j₂) rfl halone e
    exact ⟨hstage.trans hfinished, x, hdraft, hstore.trans hleft⟩
  | ok value =>
    rw [hend] at hstage hstore
    have hthere : ∀ a ∈ x.accounts, b₂.store.tables.accounts.has a.id = true := by
      intro a ha
      obtain ⟨l, -, hwritten⟩ := p.eval_leads b.store.tables.accounts b.stamp b.store.next
      have hstaged : a ∈ result.2.draft.accounts := by
        rw [← hdraft]
        exact ha
      rw [htables]
      exact hwritten.known (Rows.has_of_mem hstaged)
    obtain ⟨hfinished, hleft⟩ := pollCommit_alone (j := j₂) rfl halone hthere value
    exact ⟨hstage.trans hfinished, x, hdraft, hstore.trans hleft⟩

end Job

end Giro
