import Giro.Proofs.History
import Giro.Proofs.Polling
import Giro.Proofs.Progress

/-
  Giro.Proofs.Schedule — jobs in one bank are traffic.

  A job whose hooks only delay takes the steps of its transfer, a few at each look
  (`Job.Shows`), and a look that finds an alarm is a stop signal. So whatever the looks at
  any number of jobs come to, with accounts opened and tables emptied in between, moves of
  the traffic come to as well (`Hall.run_shown`). What holds of all traffic then holds of jobs:
  their books are in order (`audit_clean`), the tables show just the jobs that came to a good
  end (`settled_once`), and they do not lock each other out (`no_deadlock`).
-/

namespace Giro

/-! ## Hooks that only delay -/

namespace Work

variable {α β : Type}

/-- The program `p` with values through `f`, and with sleeps and entries on the record put
    in. -/
inductive Delays (f : α → β) : Work β → Work α → Prop
  | done (r : Outcome α) : Delays f (done (r.map f)) (done r)
  | call (c : Call) {next : Outcome c.Reply → Work β} {next' : Outcome c.Reply → Work α} :
      (∀ r, Delays f (next r) (next' r)) → Delays f (call c next) (call c next')
  | report (event : Event) {q : Work β} {p : Work α} : Delays f q p → Delays f (report event q) (report event p)
  | trace (action : Action) {q : Work β} {p : Work α} : Delays f q p → Delays f (trace action q) (trace action p)
  | sleep (ms : Nat) {q : Work β} {p : Work α} : Delays f q p → Delays f (sleep ms q) (sleep ms p)
  | recorded (action : Action) {q : Work β} {p : Work α} : Delays f q p → Delays f (trace action q) p
  | delayed (ms : Nat) {q : Work β} {p : Work α} : Delays f q p → Delays f (sleep ms q) p

theorem past_delays {f : α → β} {go : Work β} {stop : LedgerError → Work β} {p : Work α} {hooks : List Hook}
    (hhooks : ∀ h ∈ hooks, h.error = none) (hgo : Delays f go p) : Delays f (past go stop hooks) p := by
  induction hooks with
  | nil => exact hgo
  | cons h hooks ih =>
    obtain ⟨hh, hhooks⟩ := List.forall_mem_cons.1 hhooks
    rw [past_cons, hh]
    cases h.delay with
    | none => exact ih hhooks
    | some ms => exact .delayed ms (ih hhooks)

theorem mem_before {hooks : List Hook} {kind : ActionKind} {nth : Nat} {h : Hook}
    (hh : h ∈ Hook.before hooks kind nth) : h ∈ hooks := List.mem_of_mem_filter hh

/-- A program with hooks that only delay, its value handed on through `f`. -/
theorem hooked_delays {hooks : List Hook} (hhooks : ∀ h ∈ hooks, h.error = none) (f : α → β) (p : Work α)
    (seen : ActionKind → Nat) : Delays f ((p.bind fun a => done (.ok (f a))).hooked hooks seen) p := by
  induction p generalizing seen with
  | done r =>
    cases r with
    | error e => exact .done (.error e)
    | ok a => exact .done (.ok a)
  | call c next ih =>
    exact .recorded _ (past_delays (fun h hh => hhooks h (mem_before hh)) (.call c fun r => ih r _))
  | report event next ih => exact .report event (ih seen)
  | trace action next ih => exact .trace action (ih seen)
  | sleep ms next ih => exact .sleep ms (ih seen)

end Work

/-! ## Steps of one transfer -/

namespace Payment

/-- Any number of steps of an owner's transfer, with stop signals. -/
inductive Goes (o : Nat) : Payment → Store → Payment → Store → Prop
  | refl {p : Payment} {s : Store} : Goes o p s p s
  | step {p q : Payment} {s s' : Store} (now : Instant) :
      Goes o (p.step o now s).1 (p.step o now s).2 q s' → Goes o p s q s'
  | stop {p q : Payment} {s s' : Store} : Goes o (p.stop o s).1 (p.stop o s).2 q s' → Goes o p s q s'

theorem Goes.trans {o : Nat} {p q r : Payment} {s s' s'' : Store} (h : Goes o p s q s') (h' : Goes o q s' r s'') :
    Goes o p s r s'' := by
  induction h with
  | refl => exact h'
  | step now _ ih => exact .step now (ih h')
  | stop _ ih => exact .stop (ih h')

/-- Steps of a job's work over the store are steps of the transfer at work. -/
theorem goes_of_runs {α : Type} {f : TransferReceipt → α} {o : Nat} {q q' : Work α} {s s' : Store} {l : Transcript}
    (h : Work.Runs o q s l q' s') (order : TransferOrder) {work : Work TransferReceipt} (hd : Work.Delays f q work) :
    ∃ work', Work.Delays f q' work' ∧ Goes o ⟨order, .working, work⟩ s ⟨order, .working, work'⟩ s' := by
  induction h generalizing work with
  | refl => exact ⟨work, hd, .refl⟩
  | report _ ih =>
    cases hd with
    | report _ hd =>
      obtain ⟨work', hd', hgoes⟩ := ih hd
      exact ⟨work', hd', .step .epoch hgoes⟩
  | trace _ ih =>
    cases hd with
    | trace _ hd =>
      obtain ⟨work', hd', hgoes⟩ := ih hd
      exact ⟨work', hd', .step .epoch hgoes⟩
    | recorded _ hd => exact ih hd
  | sleep _ ih =>
    cases hd with
    | sleep _ hd =>
      obtain ⟨work', hd', hgoes⟩ := ih hd
      exact ⟨work', hd', .step .epoch hgoes⟩
    | delayed _ hd => exact ih hd
  | @asks c next q s s₁ s' l r now hc _ ih =>
    cases hd with
    | call _ hnext =>
      rename_i next'
      obtain ⟨work', hd', hgoes⟩ := ih (hnext r)
      have hstep : step ⟨order, .working, .call c next'⟩ o now s = (⟨order, .working, next' r⟩, s₁) := by
        simp only [step, hc]
      exact ⟨work', hd', .step now (by rw [hstep]; exact hgoes)⟩
  | @waits c next s s' now hc =>
    cases hd with
    | call _ hnext =>
      rename_i next'
      have hstep : step ⟨order, .working, .call c next'⟩ o now s = (⟨order, .working, .call c next'⟩, s') := by
        simp only [step, hc]
      exact ⟨_, .call c hnext, .step now (by rw [hstep]; exact .refl)⟩

end Payment

namespace Traffic

theorem put_put (t : Traffic) (o : Nat) (r r' : Payment × Store) : (t.put o r).put o r' = t.put o r' := by
  simp only [put, Function.update_idem]

theorem move_put_step (t : Traffic) (o : Nat) (p : Payment) (s : Store) (now : Instant) :
    (t.put o (p, s)).move (.step o now) = t.put o (p.step o now s) := by
  have hp : (t.put o (p, s)).payments o = some p := Function.update_self ..
  simp only [move, hp]
  exact t.put_put o _ _

theorem move_put_stop (t : Traffic) (o : Nat) (p : Payment) (s : Store) :
    (t.put o (p, s)).move (.stop o) = t.put o (p.stop o s) := by
  have hp : (t.put o (p, s)).payments o = some p := Function.update_self ..
  simp only [move, hp]
  exact t.put_put o _ _

/-- Steps and stops of one transfer are moves of the traffic. -/
theorem run_goes (t : Traffic) {o : Nat} {p q : Payment} {s s' : Store} (h : Payment.Goes o p s q s') :
    ∃ moves, .clear ∉ moves ∧ (t.put o (p, s)).run moves = t.put o (q, s') := by
  induction h with
  | refl => exact ⟨[], List.not_mem_nil, rfl⟩
  | step now _ ih =>
    obtain ⟨moves, hclear, hmoves⟩ := ih
    exact ⟨.step o now :: moves, by simpa using hclear, by rw [run_cons, move_put_step]; exact hmoves⟩
  | stop _ ih =>
    obtain ⟨moves, hclear, hmoves⟩ := ih
    exact ⟨.stop o :: moves, by simpa using hclear, by rw [run_cons, move_put_stop]; exact hmoves⟩

end Traffic

/-! ## A job shows a transfer -/

variable {α : Type} {f : TransferReceipt → α}

def Stage.map {β : Type} (f : β → α) : Stage β → Stage α
  | .opening => .opening
  | .working => .working
  | .committing value => .committing (f value)
  | .rollingBack e => .rollingBack e
  | .finished r => .finished (r.map f)

/-- The owner's job is as far as the transfer, and nothing stands before its begin and its
    ends but delays. -/
structure Job.Shows (f : TransferReceipt → α) (o : Nat) (j : Job α) (stage : Stage α) (p : Payment) : Prop where
  owner : j.owner = o
  begin : j.begin.work.Ends none
  commit : j.commit.work.Ends none
  rollback : j.rollback.work.Ends none
  stage : stage = p.stage.map f
  work : p.stage = .opening ∨ p.stage = .working → Work.Delays f j.work.work p.work

theorem Job.Shows.receipt? {o : Nat} {j : Job α} {p : Payment} (h : j.Shows f o j.stage p) {value : α}
    (hvalue : j.stage = .finished (.ok value)) : ∃ receipt, p.receipt? = some receipt ∧ value = f receipt := by
  have hstage := h.stage
  rw [hvalue] at hstage
  rcases p with ⟨order, _ | _ | _ | _ | e | receipt, work⟩ <;>
    simp only [Stage.map, reduceCtorEq, Except.map, Stage.finished.injEq, Except.ok.injEq] at hstage
  exact ⟨receipt, rfl, hstage⟩

theorem Job.Shows.finished {o : Nat} {j : Job α} {p : Payment} (h : j.Shows f o j.stage p) {receipt : TransferReceipt}
    (hreceipt : p.receipt? = some receipt) : j.stage = .finished (.ok (f receipt)) := by
  rcases p with ⟨order, _ | _ | _ | _ | e | receipt', work⟩ <;>
    simp only [Payment.receipt?, reduceCtorEq, Option.some.injEq] at hreceipt
  rw [h.stage, hreceipt]
  rfl

/-- The job works at a call for a row that it cannot have now. -/
def Job.isBlocked (j : Job α) (b : Bank) : Bool :=
  match j.stage, j.work.work with
  | .working, .call c _ => (b.store.call j.owner c b.stamp).1.isPending
  | _, _ => false

theorem Job.Shows.isFinished_eq {o : Nat} {j : Job α} {p : Payment} (h : j.Shows f o j.stage p) :
    j.isFinished = p.isFinished := by
  unfold Job.isFinished Payment.isFinished
  rw [h.stage]
  cases p.stage <;> rfl

/-- A job waits for a row only where its transfer does. -/
theorem Job.Shows.isBlocked {o : Nat} {j : Job α} {p : Payment} (h : j.Shows f o j.stage p) {b : Bank}
    (hb : j.isBlocked b = true) : p.isBlocked o b.store = true := by
  obtain rfl := h.owner
  unfold Job.isBlocked at hb
  split at hb
  · rename_i c next hs hw
    have hstage : p.stage = .working := by
      have hstage := h.stage
      rw [hs] at hstage
      cases hp : p.stage <;> rw [hp] at hstage <;> first | rfl | cases hstage
    have hdelays := h.work (.inr hstage)
    rw [hw] at hdelays
    generalize hpw : p.work = work at hdelays
    cases hdelays with
    | call _ _ =>
      have hpending : (b.store.call j.owner c b.stamp).1 = .pending := by
        cases hc : (b.store.call j.owner c b.stamp).1 with
        | pending => rfl
        | ready _ => rw [hc] at hb; cases hb
      simp only [Payment.isBlocked, hstage, hpw, Payment.call_pending_any hpending .epoch]
  · cases hb

/-- Moves of the traffic, none of which empties the tables, come to this store and to a transfer
    that the owner's job shows. -/
def Traffic.Comes (t : Traffic) (f : TransferReceipt → α) (o : Nat) (j : Job α) (stage : Stage α) (s : Store) : Prop :=
  ∃ moves p, .clear ∉ moves ∧ t.run moves = t.put o (p, s) ∧ j.Shows f o stage p

namespace Traffic

variable {t : Traffic} {o : Nat} {j j' : Job α} {stage stage' : Stage α} {s s' : Store} {b : Bank} {e : LedgerError}

theorem comes_of_goes {p p' : Payment} {moves : List Move} (hclear : .clear ∉ moves)
    (hrun : t.run moves = t.put o (p, s)) (hgoes : p.Goes o s p' s') (hshows : j'.Shows f o stage' p') :
    t.Comes f o j' stage' s' := by
  obtain ⟨moves', hclear', hmoves'⟩ := t.run_goes hgoes
  refine ⟨moves ++ moves', p', by simp [hclear, hclear'], ?_, hshows⟩
  rw [run, List.foldl_append]
  show (t.run moves).run moves' = _
  rw [hrun, hmoves']

/-- A transfer that is not at work stands in no line. -/
theorem Orderly.line_empty (h : t.Orderly) {p : Payment} {moves : List Move} (hrun : t.run moves = t.put o (p, s))
    (hstage : p.stage ≠ .working) : ∀ row, ⟨o, row⟩ ∉ s.waiting := by
  have hplaced := (h.run moves).placed o
  rw [hrun, show (t.put o (p, s)).payments o = some p from Function.update_self ..] at hplaced
  have hempty := hplaced.line_eq_empty fun row hasks => hstage hasks.1
  exact fun row hrow => (Set.notMem_empty row) (hempty ▸ hrow)

theorem Comes.pollRollback (ht : t.Orderly) (h : t.Comes f o j (.rollingBack e) b.store) :
    let r := Job.parts.pollRollback e (j, b)
    t.Comes f o r.2.1 r.1 r.2.2.store := by
  obtain ⟨moves, ⟨order, stage, work⟩, hclear, hrun, hshows⟩ := h
  obtain rfl := hshows.owner
  obtain ⟨-, hends, hstore, -, hready⟩ := hshows.rollback.poll j.owner j.rollback.wake b
  have hstage := hshows.stage
  cases stage <;> simp only [Stage.map, reduceCtorEq, Stage.rollingBack.injEq] at hstage
  subst hstage
  simp only [Parts.pollRollback, Job.parts, Job.pollRollback, Remainder.poll]
  rcases hp : j.rollback.work.poll j.owner j.rollback.wake b with ⟨r, rest, b'⟩
  rw [hp] at hends hstore hready
  dsimp only at hends hstore hready
  have hrest : { j with rollback := rest }.Shows f j.owner (.rollingBack e) ⟨order, .rollingBack e, work⟩ :=
    { hshows with rollback := hends }
  rw [← hstore] at hrun
  rcases r with _ | e' | u
  · exact ⟨moves, _, hclear, hrun, hrest⟩
  · have := hready _ rfl
    cases this
  · have hline := ht.line_empty hrun (by simp)
    have hroll : (b'.rollback j.owner).store = b'.store.forget j.owner := by
      unfold Bank.rollback
      split
      · rename_i hn; exact (Store.Gone.forget ⟨hn, hline⟩).symm
      · rfl
    simp only [hroll]
    exact comes_of_goes hclear hrun (.step .epoch .refl) { hrest with stage := rfl, work := by simp [Payment.step] }

theorem Comes.pollCommit {value : α} (h : t.Comes f o j (.committing value) b.store) :
    let r := Job.parts.pollCommit value (j, b)
    t.Comes f o r.2.1 r.1 r.2.2.store := by
  obtain ⟨moves, ⟨order, stage, work⟩, hclear, hrun, hshows⟩ := h
  obtain rfl := hshows.owner
  obtain ⟨-, hends, hstore, -, hready⟩ := hshows.commit.poll j.owner j.commit.wake b
  have hstage := hshows.stage
  cases stage <;> simp only [Stage.map, reduceCtorEq, Stage.committing.injEq] at hstage
  rename_i receipt
  subst hstage
  simp only [Parts.pollCommit, Job.parts, Job.pollCommit, Remainder.poll]
  rcases hp : j.commit.work.poll j.owner j.commit.wake b with ⟨r, rest, b'⟩
  rw [hp] at hends hstore hready
  dsimp only at hends hstore hready
  have hrest : { j with commit := rest }.Shows f j.owner (.committing (f receipt)) ⟨order, .committing receipt, work⟩ :=
    { hshows with commit := hends }
  rw [← hstore] at hrun
  rcases r with _ | e' | u
  · exact ⟨moves, _, hclear, hrun, hrest⟩
  · have := hready _ rfl
    cases this
  · rcases hc : b'.store.commit j.owner with ⟨r, s'⟩
    simp only [hc]
    rcases r with e | u
    · have hstep : Payment.step ⟨order, .committing receipt, work⟩ j.owner .epoch b'.store =
          (⟨order, .finished (.error e), work⟩, s') := by simp only [Payment.step, hc]
      exact comes_of_goes hclear hrun (.step .epoch (by rw [hstep]; exact .refl))
        { hrest with stage := rfl, work := by simp }
    · have hstep : Payment.step ⟨order, .committing receipt, work⟩ j.owner .epoch b'.store =
          (⟨order, .finished (.ok receipt), work⟩, s') := by simp only [Payment.step, hc]
      exact comes_of_goes hclear hrun (.step .epoch (by rw [hstep]; exact .refl))
        { hrest with stage := rfl, work := by simp }

theorem Comes.pollWork (ht : t.Orderly) (h : t.Comes f o j .working b.store) :
    let r := Job.parts.pollWork (j, b)
    t.Comes f o r.2.1 r.1 r.2.2.store := by
  obtain ⟨moves, ⟨order, stage, work⟩, hclear, hrun, hshows⟩ := h
  obtain rfl := hshows.owner
  have hstage := hshows.stage
  cases stage <;> simp only [Stage.map, reduceCtorEq] at hstage
  obtain ⟨hruns, -, hready⟩ := Work.poll_runs j.owner j.work.work j.work.wake b
  obtain ⟨work', hdelays, hgoes⟩ := Payment.goes_of_runs hruns order (hshows.work (.inr rfl))
  have hwork : Parts.work Job.parts = @Job.pollWork α := rfl
  have hstop : Parts.stop Job.parts = @Job.pollStop α := rfl
  unfold Parts.pollWork
  rw [hwork, hstop]
  simp only [Job.pollWork, Remainder.poll]
  rcases hp : j.work.work.poll j.owner j.work.wake b with ⟨r, rest, b'⟩
  rw [hp] at hready hdelays hgoes
  dsimp only at hready hdelays hgoes
  have hrest : { j with work := rest }.Shows f j.owner .working ⟨order, .working, work'⟩ :=
    { hshows with stage := rfl, work := fun _ => hdelays }
  rcases r with _ | r
  · have hheeded := Job.heeded { j with work := rest } b'
    rcases hs : Job.pollStop ({ j with work := rest }, b') with ⟨fired, j₂, b₂⟩
    rw [hs] at hheeded
    simp only [hs]
    cases hheeded with
    | quiet as b₂ _ _ hstore =>
      simp only [hstore]
      exact comes_of_goes hclear hrun hgoes { hrest with }
    | fired as b₂ _ _ hstore =>
      refine Comes.pollRollback ht ?_
      rw [hstore]
      exact comes_of_goes hclear hrun (hgoes.trans (.stop .refl))
        { hrest with stage := rfl, work := by simp [Payment.stop] }
  · have hdone : rest.work = .done r := (hready r).1 rfl
    rw [hdone] at hdelays
    cases hdelays with
    | done r =>
      rcases r with e | receipt
      · refine Comes.pollRollback ht ?_
        exact comes_of_goes hclear hrun (hgoes.trans (.step .epoch .refl))
          { hrest with stage := rfl, work := by simp [Payment.step] }
      · refine Comes.pollCommit ?_
        exact comes_of_goes hclear hrun (hgoes.trans (.step .epoch .refl))
          { hrest with stage := rfl, work := by simp [Payment.step] }

theorem Comes.pollBegin (ht : t.Orderly) (h : t.Comes f o j .opening b.store) :
    let r := Job.parts.pollBegin (j, b)
    t.Comes f o r.2.1 r.1 r.2.2.store := by
  obtain ⟨moves, ⟨order, stage, work⟩, hclear, hrun, hshows⟩ := h
  obtain rfl := hshows.owner
  have hstage := hshows.stage
  cases stage <;> simp only [Stage.map, reduceCtorEq] at hstage
  obtain ⟨-, hends, hstore, -, hready⟩ := hshows.begin.poll j.owner j.begin.wake b
  have hbegin : Parts.begin Job.parts = @Job.pollBegin α := rfl
  have hstop : Parts.stop Job.parts = @Job.pollStop α := rfl
  unfold Parts.pollBegin
  rw [hbegin, hstop]
  simp only [Job.pollBegin, Remainder.poll]
  rcases hp : j.begin.work.poll j.owner j.begin.wake b with ⟨r, rest, b'⟩
  rw [hp] at hends hstore hready
  dsimp only at hends hstore hready
  have hrest : { j with begin := rest }.Shows f j.owner .opening ⟨order, .opening, work⟩ :=
    { hshows with begin := hends }
  rw [← hstore] at hrun
  rcases r with _ | e | u
  · have hheeded := Job.heeded { j with begin := rest } b'
    rcases hs : Job.pollStop ({ j with begin := rest }, b') with ⟨fired, j₂, b₂⟩
    rw [hs] at hheeded
    simp only [hs]
    cases hheeded with
    | quiet as b₂ _ _ hstore =>
      simp only [hstore]
      exact ⟨moves, _, hclear, hrun, { hrest with }⟩
    | fired as b₂ _ _ hstore =>
      rw [hstore, Store.leaveLine_of_line (ht.line_empty hrun (by simp))]
      exact comes_of_goes hclear hrun (.stop .refl) { hrest with stage := rfl, work := by simp [Payment.stop] }
  · have := hready _ rfl
    cases this
  · refine Comes.pollWork ht ?_
    exact comes_of_goes hclear hrun (.step .epoch .refl)
      { hrest with stage := rfl, work := fun _ => hrest.work (.inl rfl) }

/-- A look at a job that shows a transfer is moves of the traffic. -/
theorem Comes.poll (ht : t.Orderly) (h : t.Comes f o j j.stage b.store) :
    t.Comes f o (j.poll b).1 (j.poll b).1.stage (j.poll b).2.store := by
  by_cases hfin : ∃ r, j.stage = .finished r
  · obtain ⟨r, hr⟩ := hfin
    have hsame : j.poll b = (j, b) := by unfold Job.poll; rw [hr]
    rw [hsame]
    exact h
  · have hfin' : ∀ r, j.stage ≠ .finished r := fun r hr => hfin ⟨r, hr⟩
    have hparts : t.Comes f o (Job.parts.poll j.stage (j, b)).2.1 (Job.parts.poll j.stage (j, b)).1
        (Job.parts.poll j.stage (j, b)).2.2.store := by
      cases hs : j.stage with
      | opening => exact (hs ▸ h).pollBegin ht
      | working => exact (hs ▸ h).pollWork ht
      | committing value => exact (hs ▸ h).pollCommit
      | rollingBack e => exact (hs ▸ h).pollRollback ht
      | finished r => exact absurd hs (hfin' r)
    obtain ⟨hjob, hstore⟩ := Job.poll_parts hfin' b
    rw [hjob, hstore]
    obtain ⟨moves, p, hclear, hrun, hshows⟩ := hparts
    exact ⟨moves, p, hclear, hrun, { hshows with }⟩

end Traffic

/-! ## Jobs in one bank -/

/-- A bank with the jobs of any number of owners. -/
structure Hall (α : Type) where
  bank : Bank := {}
  jobs : Nat → Option (Job α) := fun _ => none
  entered : Nat := 0
  opened : List Account := []

/-- What happens in the hall. -/
inductive Act where
  | createAccount (owner currency : String) (balance : Int)
  | clear
  | launch (timer : Timer) (hooks : List Hook) (alarms : List Alarm) (order : TransferOrder)
  | look (owner : Nat)
  | drop (owner : Nat)
  /-- The clock moves, and the bank is as `b` but for its store. -/
  | tick (b : Bank)

/-- What is launched has hooks that only delay. -/
def Act.IsFaultless : Act → Prop
  | .launch _ hooks _ _ => ∀ h ∈ hooks, h.error = none
  | _ => True

namespace Hall

/-- Transfers are launched as jobs whose value is the receipt through `f`. -/
def act (f : TransferReceipt → α) (verdict : TransferOrder → Outcome α → Option Event) (h : Hall α) : Act → Hall α
  | .createAccount owner currency balance =>
    let (a, store) := h.bank.store.createAccount owner currency balance h.bank.stamp
    { h with bank.store := store, opened := h.opened ++ [a] }
  | .clear => { h with bank.store := h.bank.store.clear }
  | .launch timer hooks alarms order =>
    { h with
      jobs := Function.update h.jobs h.entered
        (some (Job.start h.entered timer hooks alarms (return f (← Work.transfer order)) (verdict order)))
      entered := h.entered + 1 }
  | .look o =>
    match h.jobs o with
    | none => h
    | some j => { h with bank := (j.poll h.bank).2, jobs := Function.update h.jobs o (some (j.poll h.bank).1) }
  | .drop o => { h with bank.store := h.bank.store.forget o, jobs := Function.update h.jobs o none }
  | .tick b => { h with bank := { b with store := h.bank.store } }

def run (f : TransferReceipt → α) (verdict : TransferOrder → Outcome α → Option Event) (h : Hall α) (acts : List Act) :
    Hall α := acts.foldl (act f verdict) h

variable {h : Hall α} {t : Traffic}

/-- The traffic that the jobs of the hall show. -/
structure Shows (f : TransferReceipt → α) (h : Hall α) (t : Traffic) : Prop where
  store : t.store = h.bank.store
  entered : t.entered = h.entered
  opened : t.opened = h.opened
  jobs {o : Nat} {j : Job α} : h.jobs o = some j → ∃ p, t.payments o = some p ∧ j.Shows f o j.stage p
  noJob {o : Nat} : h.jobs o = none → t.payments o = none

theorem fault_eq_none {hooks : List Hook} (hhooks : ∀ h ∈ hooks, h.error = none) (kind : ActionKind) (nth : Nat) :
    Hook.fault hooks kind nth = none :=
  List.findSome?_eq_none_iff.2 fun h hh => hhooks h (Work.mem_before hh)

theorem start_shows {o : Nat} {timer : Timer} {hooks : List Hook} {alarms : List Alarm} {order : TransferOrder}
    (hhooks : ∀ h ∈ hooks, h.error = none) (v : Outcome α → Option Event) :
    (Job.start o timer hooks alarms (return f (← Work.transfer order)) v).Shows f o .opening (.enter order) where
  owner := rfl
  begin := fault_eq_none hhooks .begin 1 ▸ Work.gate_ends ..
  commit := fault_eq_none hhooks .commit 1 ▸ Work.gate_ends ..
  rollback := fault_eq_none hhooks .rollback 1 ▸ Work.gate_ends ..
  stage := rfl
  work _ := Work.hooked_delays hhooks f (Work.transfer order) _

/-- A job of an owner and its transfer are replaced together. -/
theorem Shows.update (hs : Shows f h t) {o : Nat} (j? : Option (Job α)) (p? : Option Payment) {b : Bank} {s : Store}
    (hb : s = b.store) (hjob : ∀ j, j? = some j → ∃ p, p? = some p ∧ j.Shows f o j.stage p)
    (hnone : j? = none → p? = none) :
    Shows f { h with bank := b, jobs := Function.update h.jobs o j? }
      { t with store := s, payments := Function.update t.payments o p? } where
  store := hb
  entered := hs.entered
  opened := hs.opened
  jobs {q j} hj := by
    dsimp only at hj ⊢
    by_cases hq : q = o
    · subst hq
      rw [Function.update_self] at hj ⊢
      exact hjob j hj
    · rw [Function.update_of_ne hq] at hj ⊢
      exact hs.jobs hj
  noJob {q} hq' := by
    dsimp only at hq' ⊢
    by_cases hq : q = o
    · subst hq
      rw [Function.update_self] at hq' ⊢
      exact hnone hq'
    · rw [Function.update_of_ne hq] at hq' ⊢
      exact hs.noJob hq'

/-- Whatever happens in the hall, moves of the traffic come to the same. -/
theorem Shows.act (hs : Shows f h t) (ht : t.Orderly) (verdict : TransferOrder → Outcome α → Option Event) {a : Act}
    (ha : a.IsFaultless) :
    ∃ moves, (a ≠ .clear → .clear ∉ moves) ∧ Shows f (h.act f verdict a) (t.run moves) := by
  cases a with
  | createAccount owner currency balance =>
    let a : Account := ⟨t.store.next.account, owner, currency, balance, h.bank.stamp⟩
    refine ⟨[.draw, .openAccount a h.bank.stamp], by simp, ?_⟩
    have hdrawn : a.id ∈ (t.move .draw).drawn := List.mem_append_right _ (List.mem_singleton_self _)
    rw [Traffic.run_cons, Traffic.run_cons, Traffic.run_nil, Traffic.move_openAccount _ hdrawn]
    constructor
    · show t.store.drawAccount.putAccount a h.bank.stamp = _
      rw [← Store.createAccount_eq, hs.store]
      rfl
    · exact hs.entered
    · show t.opened ++ [a] = h.opened ++ [(h.bank.store.createAccount owner currency balance h.bank.stamp).1]
      rw [Store.createAccount_fst, hs.opened, ← hs.store]
    · exact hs.jobs
    · exact hs.noJob
  | clear =>
    exact ⟨[.clear], by simp, congrArg Store.clear hs.store, hs.entered, hs.opened, hs.jobs, hs.noJob⟩
  | launch timer hooks alarms order =>
    refine ⟨[.enter order], by simp, ?_⟩
    let job := Job.start h.entered timer hooks alarms (return f (← Work.transfer order)) (verdict order)
    have hjob : job.Shows f h.entered job.stage (.enter order) := start_shows ha (verdict order)
    have hnew := hs.update (some job) (some (.enter order)) hs.store
      (fun j hj => ⟨_, rfl, Option.some.inj hj ▸ hjob⟩) (by simp)
    rw [Traffic.run_cons, Traffic.run_nil]
    constructor
    · exact hnew.store
    · exact congrArg (· + 1) hs.entered
    · exact hnew.opened
    · simp only [Traffic.move, hs.entered]; exact hnew.jobs
    · simp only [Traffic.move, hs.entered]; exact hnew.noJob
  | look o =>
    unfold Hall.act
    dsimp only
    split
    · exact ⟨[], by simp, hs⟩
    · rename_i j hj
      obtain ⟨p, hp, hshows⟩ := hs.jobs hj
      have hhere : t.put o (p, h.bank.store) = t := by
        rw [Traffic.put, ← hs.store, ← hp, Function.update_eq_self]
      have hcomes : t.Comes f o j j.stage h.bank.store := ⟨[], p, List.not_mem_nil, hhere.symm, hshows⟩
      obtain ⟨moves, p', hclear, hrun, hshows'⟩ := hcomes.poll ht
      refine ⟨moves, fun _ => hclear, ?_⟩
      rw [hrun]
      exact hs.update (some _) (some _) rfl (fun j' hj' => ⟨p', rfl, Option.some.inj hj' ▸ hshows'⟩) (by simp)
  | drop o =>
    have hstore : t.store.forget o = h.bank.store.forget o := by rw [hs.store]
    exact ⟨[.drop o], by simp, hs.update none none hstore (by intro j hj; cases hj) fun _ => rfl⟩
  | tick b => exact ⟨[], by simp, hs.store, hs.entered, hs.opened, hs.jobs, hs.noJob⟩

theorem Shows.run (hs : Shows f h t) (ht : t.Orderly) (verdict : TransferOrder → Outcome α → Option Event)
    {acts : List Act} (hacts : ∀ a ∈ acts, a.IsFaultless) :
    ∃ moves, (.clear ∉ acts → .clear ∉ moves) ∧ Shows f (h.run f verdict acts) (t.run moves) := by
  induction acts generalizing h t with
  | nil => exact ⟨[], fun _ => List.not_mem_nil, hs⟩
  | cons a acts ih =>
    obtain ⟨ha, hacts⟩ := List.forall_mem_cons.1 hacts
    obtain ⟨moves, hclear, hact⟩ := hs.act ht verdict ha
    obtain ⟨moves', hclear', hrun⟩ := ih hact (ht.run moves) hacts
    refine ⟨moves ++ moves', ?_, ?_⟩
    · rw [List.mem_cons, not_or, List.mem_append, not_or]
      exact fun h => ⟨hclear (Ne.symm h.1), hclear' h.2⟩
    · rw [Traffic.run, List.foldl_append]
      exact hrun

/-- Every run of the hall shows a run of the traffic. -/
theorem run_shown (f : TransferReceipt → α) (verdict : TransferOrder → Outcome α → Option Event) (acts : List Act)
    (hacts : ∀ a ∈ acts, a.IsFaultless) :
    ∃ moves, (.clear ∉ acts → .clear ∉ moves) ∧
      Shows f (({} : Hall α).run f verdict acts) (({} : Traffic).run moves) := by
  have hempty : Shows f ({} : Hall α) ({} : Traffic) := ⟨rfl, rfl, rfl, (by intro _ _ h; cases h), fun _ => rfl⟩
  exact hempty.run (Traffic.orderly_idle Store.idle_empty) verdict hacts

/-- Whatever comes of the looks at jobs, the audit finds nothing, and the money is what the
    accounts there are now were opened with. -/
theorem audit_clean (f : TransferReceipt → α) (verdict : TransferOrder → Outcome α → Option Event) (acts : List Act)
    (hacts : ∀ a ∈ acts, a.IsFaultless) :
    let h := ({} : Hall α).run f verdict acts
    let t := h.bank.store.tables
    let report := (Audit.ofRows t.accounts t.entries t.transfers).report
    report.isValid = true ∧ report.issues = [] ∧
      report.totalBalance = Audit.total (h.opened.filter fun a => t.accounts.has a.id) := by
  obtain ⟨moves, -, hs⟩ := run_shown f verdict acts hacts
  intro h t report
  have haudit := (Traffic.inOrder_run moves).audit
  rwa [hs.store, hs.opened] at haudit

/-! ## What jobs leave in the tables -/

/-- As long as nobody empties the tables, they are deeds written down one after the other: openings
    of accounts, and of each job that came to a good end its transfer, once. -/
theorem settled_once (f : TransferReceipt → α) (verdict : TransferOrder → Outcome α → Option Event) (acts : List Act)
    (hacts : ∀ a ∈ acts, a.IsFaultless) (hclear : .clear ∉ acts) :
    let h := ({} : Hall α).run f verdict acts
    let t := h.bank.store.tables
    ∃ deeds : History, t.transfers = deeds.receipts.map (·.transfer) ∧ t.entries = deeds.entries ∧
      t.accounts.Perm (h.opened.map (Account.after t.transfers)) ∧ deeds.accounts = h.opened ∧ deeds.owners.Nodup ∧
      ∀ o j, h.jobs o = some j →
        (∀ receipt, .settled o receipt ∈ deeds → j.stage = .finished (.ok (f receipt))) ∧
        ∀ value, j.stage = .finished (.ok value) → ∃ receipt, .settled o receipt ∈ deeds ∧ value = f receipt := by
  obtain ⟨moves, hmoves, hs⟩ := run_shown f verdict acts hacts
  intro h t
  have hr := Traffic.recorded_run (hmoves hclear)
  have haccounts := hr.accounts
  rw [hr.opened, hs.opened, hs.store] at haccounts
  have htables : t = (({} : Traffic).run moves).store.tables := congrArg Store.tables hs.store.symm
  refine ⟨_, htables ▸ hr.transfers, htables ▸ hr.entries, haccounts, hr.opened.trans hs.opened, hr.once, ?_⟩
  intro o j hj
  obtain ⟨p, hp, hshows⟩ := hs.jobs hj
  constructor
  · intro receipt hmem
    exact hshows.finished ((hr.settled o receipt hmem).2 p hp)
  · intro value hvalue
    obtain ⟨receipt, hreceipt, hf⟩ := hshows.receipt? hvalue
    exact ⟨receipt, hr.complete o receipt (by rw [Traffic.receipt?, hp, Option.bind_some, hreceipt]), hf⟩

/-! ## Jobs do not lock each other out -/

/-- While a job is not at its end, one of those that are not waits for no row. -/
theorem no_deadlock (f : TransferReceipt → α) (verdict : TransferOrder → Outcome α → Option Event) (acts : List Act)
    (hacts : ∀ a ∈ acts, a.IsFaultless) {o : Nat} {j : Job α}
    (hj : (({} : Hall α).run f verdict acts).jobs o = some j) (hrest : j.isFinished = false) :
    ∃ o' j', (({} : Hall α).run f verdict acts).jobs o' = some j' ∧ j'.isFinished = false ∧
      j'.isBlocked (({} : Hall α).run f verdict acts).bank = false := by
  obtain ⟨moves, -, hs⟩ := run_shown f verdict acts hacts
  have ht := (Traffic.orderly_idle Store.idle_empty).run moves
  obtain ⟨p, hp, hshows⟩ := hs.jobs hj
  have hun : (({} : Traffic).run moves).isUnfinished o = true := by
    rw [Traffic.isUnfinished, hp]
    simpa [hshows.isFinished_eq] using hrest
  obtain ⟨o', hcan⟩ := ht.exists_canStep hun
  cases hj' : (({} : Hall α).run f verdict acts).jobs o' with
  | none =>
    rw [Traffic.canStep, hs.noJob hj'] at hcan
    cases hcan
  | some j' =>
    obtain ⟨p', hp', hshows'⟩ := hs.jobs hj'
    simp only [Traffic.canStep, hp', Payment.canStep, Bool.and_eq_true, Bool.not_eq_true'] at hcan
    refine ⟨o', j', hj', hshows'.isFinished_eq.trans hcan.1, Bool.eq_false_iff.2 fun hb => ?_⟩
    have hblocked := hshows'.isBlocked hb
    rw [← hs.store, hcan.2] at hblocked
    cases hblocked

end Hall

end Giro
