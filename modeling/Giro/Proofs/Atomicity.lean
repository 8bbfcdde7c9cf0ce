import Giro.Proofs.Faults
import Giro.Proofs.Posting

/-
  Giro.Proofs.Atomicity — a transfer under hooks and alarms happens whole or not at all.

  A course of a job is looks at it (`Job.poll`) with anything in between that others do to
  the bank (`Store.Others`). The alarms are looked at only while begin or work waits, so a
  look stops the job when it waits and an alarm has come by then (`Stopped`). Whatever the
  hooks fail and whenever an alarm comes: a job that ends with an error has changed no table
  and holds nothing, and its error is the first one that it met, or that of the stop; a job
  that ends well has changed the tables in one look, to what the transfer makes of them when
  nothing fails (`Job.atomic`). `Job.Stands` is what is known at each stage; each part of a
  look keeps it.
-/

namespace Giro

/-- A look at a job: when it came and the tables it found, whether begin or work was left
    waiting and whether the job was at its end after it, the calls that were answered during
    it, and the tables it left. -/
structure Look where
  now : Nat
  tables : Tables
  waits : Bool
  finished : Bool
  answers : Transcript
  after : Tables

def Job.look {α : Type} (j : Job α) (b : Bank) : Look where
  now := b.now
  tables := b.store.tables
  waits := j.waits b
  finished := (j.poll b).1.isFinished
  answers := j.answers b
  after := (j.poll b).2.store.tables

/-- What may happen to a job and its bank, with the looks at it so far. The ids of accounts that
    were drawn and whose row was not put yet are `drawn₀` at first. -/
inductive Job.Course {α : Type} (j₀ : Job α) (b₀ : Bank) (drawn₀ : List Int) :
    Job α → Bank → List Int → List Look → Prop
  | start : Course j₀ b₀ drawn₀ j₀ b₀ drawn₀ []
  | look {j : Job α} {b : Bank} {drawn : List Int} {looks : List Look} : Course j₀ b₀ drawn₀ j b drawn looks →
      Course j₀ b₀ drawn₀ (j.poll b).1 (j.poll b).2 drawn (looks ++ [j.look b])
  /-- Others move, and the clock with them. -/
  | others {j : Job α} {b b' : Bank} {drawn drawn' : List Int} {looks : List Look} :
      Course j₀ b₀ drawn₀ j b drawn looks → b.store.Others j₀.owner drawn b'.store drawn' →
      Course j₀ b₀ drawn₀ j b' drawn' looks

/-- The stop signal was faster: an alarm had come by a look that left begin or work waiting. -/
def Stopped (alarms : List Alarm) (looks : List Look) : Prop :=
  ∃ look ∈ looks, look.waits = true ∧ ∃ a ∈ alarms, a.due ≤ look.now

theorem stopped_snoc {alarms : List Alarm} {looks : List Look} (look : Look) :
    Stopped alarms (looks ++ [look]) ↔
      Stopped alarms looks ∨ look.waits = true ∧ ∃ a ∈ alarms, a.due ≤ look.now := by
  simp [Stopped, or_and_right, exists_or]

/-- The tables that the look found after which the job was at its end, if there was one. -/
def ended (looks : List Look) : Option Tables := (looks.find? (·.finished)).map (·.tables)

/-- The tables went from `before` to `after` by a transfer that no fault touched: asked over
    the tables before, the same calls get the same answers, and the receipt is theirs. -/
structure Posted (order : TransferOrder) (l : Transcript) (receipt : TransferReceipt) (before after : Tables) :
    Prop where
  effect : after = before.post receipt
  settles : receipt.Settles order
  leads : (Work.transfer order).Leads l (.done (.ok receipt))
  faultless : ∃ d, Written before.accounts l d

/-! ## The work over a watched store -/

variable {o : Nat} {hooks : List Hook} {alarms : List Alarm} {order : TransferOrder} {stopped stopped' : Prop}
  {last : Option Tables} {log : Transcript} {drawn : List Int}

/-- Steps of the owner's work leave the tables, and the watch hears them. -/
theorem Work.Runs.watched {α : Type} {p q : Work α} {s s' : Store} {l : Transcript} (h : Runs o p s l q s') {w : Watch}
    (hw : w.store = s) (hkept : w.KeptWith drawn) {x : Transaction} (hx : s.tx? o = some x) :
    ∃ (w' : Watch) (x' : Transaction), w'.store = s' ∧ w'.KeptWith drawn ∧ w'.logs o = w.logs o ++ l ∧
      s'.tx? o = some x' ∧ s'.tables = s.tables := by
  induction h generalizing w x with
  | refl => exact ⟨w, x, hw, hkept, by simp, hx, rfl⟩
  | report _ ih => exact ih hw hkept hx
  | trace _ ih => exact ih hw hkept hx
  | sleep _ ih => exact ih hw hkept hx
  | @asks c next q s s₁ s' l r now hc _ ih =>
    subst hw
    cases hc ▸ Store.asked hkept.sound o c now with
    | ended hn => rw [hn] at hx; cases hx
    | @answered y x₁ id r _ hy ha =>
      obtain rfl := Option.some.inj (hy.symm.trans hx)
      have hstore : (w.apply (.call o c now)).store = s₁ := by rw [Watch.apply_store, Store.apply, hc]
      have hlog : (w.apply (.call o c now)).logs o = w.logs o ++ [⟨c, r⟩] := by
        rw [w.apply_call hc, Watch.noted_ready]
      obtain ⟨w', x', hstore', hkept', hlogs, hx', htables'⟩ :=
        ih hstore (hkept.apply _) (by rw [ha.tx? hx, if_pos rfl])
      refine ⟨w', x', hstore', hkept', ?_, hx', htables'.trans ha.tables⟩
      rw [hlogs, hlog, List.append_assoc]
      rfl
  | @waits c next s s' now hc =>
    subst hw
    cases hc ▸ Store.asked hkept.sound o c now with
    | waits _ _ _ _ _ =>
      refine ⟨w.apply (.call o c now), x, by rw [Watch.apply_store, Store.apply, hc], hkept.apply _, ?_, ?_,
        Store.enqueue_tables ..⟩
      · rw [w.apply_call hc, List.append_nil]; rfl
      · rwa [Store.tx?_of_txs (Store.enqueue_txs ..)]

/-! ## How a job stands -/

/-- What is known at each stage of the job, in a watched store, when the calls of `log` were
    answered so far: whether it was `stopped`, and at its end with the tables `last`. -/
def Job.At (o : Nat) (hooks : List Hook) (order : TransferOrder) (stopped : Prop) (last : Option Tables)
    (log : Transcript) (w : Watch) (j : Job TransferReceipt) : Stage TransferReceipt → Prop
  | .opening => ¬ stopped ∧ log = [] ∧ w.store.Gone o ∧ j.work.work = (Work.transfer order).hooked hooks (fun _ => 0) ∧
      (Work.gate hooks .begin .begin).Leads [] j.begin.work ∧ j.begin.work.Ends (Hook.fault hooks .begin 1)
  | .working => ¬ stopped ∧ w.logs o = log ∧ Hook.fault hooks .begin 1 = none ∧
      ((Work.transfer order).hooked hooks fun _ => 0).Leads log j.work.work ∧ ∃ x, w.store.tx? o = some x
  | .committing receipt => ¬ stopped ∧ w.logs o = log ∧ Reached hooks order log (.done (.ok receipt)) ∧
      ∃ x, w.store.tx? o = some x
  | .rollingBack e => (∃ x, w.store.tx? o = some x) ∧ ∀ last, FirstError hooks order stopped last log e
  | .finished (.error e) => w.store.Gone o ∧ FirstError hooks order stopped last log e
  | .finished (.ok _) => w.store.Gone o ∧ ¬ stopped ∧ ∀ e, ¬ FirstError hooks order stopped last log e

/-- A job of this transfer at a stage, with hooks and alarms as they were given to it. -/
structure Job.Stands (o : Nat) (hooks : List Hook) (alarms : List Alarm) (order : TransferOrder) (drawn : List Int)
    (stopped : Prop) (last : Option Tables) (log : Transcript) (j : Job TransferReceipt) (s : Store)
    (stage : Stage TransferReceipt) : Prop where
  owner : j.owner = o
  commit : j.commit.work.Ends (Hook.fault hooks .commit 1)
  rollback : j.rollback.work.Ends (Hook.fault hooks .rollback 1)
  dues : j.alarms.map (·.due) = alarms.map (·.due)
  watched : ∃ w : Watch, w.store = s ∧ w.KeptWith drawn ∧ At o hooks order stopped last log w j stage

/-- What a look that ends in a stage has made of the tables. -/
def Leaves (order : TransferOrder) (log : Transcript) (before after : Tables) : Stage TransferReceipt → Prop
  | .finished (.ok receipt) => Posted order log receipt before after
  | _ => after = before

namespace Job

variable {j : Job TransferReceipt} {b : Bank} {e : LedgerError}

/-- Only at its end it matters which tables the job found there. -/
theorem Stands.unended {s : Store} {stage : Stage TransferReceipt}
    (h : Stands o hooks alarms order drawn stopped last log j s stage) (hfin : ∀ r, stage ≠ .finished r)
    (last' : Option Tables) : Stands o hooks alarms order drawn stopped last' log j s stage := by
  obtain ⟨w, hw, hkept, hat⟩ := h.watched
  refine { h with watched := ⟨w, hw, hkept, ?_⟩ }
  cases stage with
  | finished r => exact absurd rfl (hfin r)
  | _ => exact hat

/-- A transaction that is dropped leaves nothing, whatever error led to it. -/
theorem Stands.dropped {s : Store} {stage : Stage TransferReceipt}
    (h : Stands o hooks alarms order drawn stopped last log j s stage)
    (he : FirstError hooks order stopped last log e) :
    Stands o hooks alarms order drawn stopped last log j (s.forget o) (.finished (.error e)) := by
  obtain ⟨w, rfl, hkept, -⟩ := h.watched
  exact { h with watched := ⟨w.apply (.drop o), rfl, hkept.apply _, w.store.gone_forget o, he⟩ }

theorem Stands.pollRollback (h : Stands o hooks alarms order drawn stopped last log j b.store (.rollingBack e)) :
    let r := parts.pollRollback e (j, b)
    Stands o hooks alarms order drawn stopped last log r.2.1 r.2.2.store r.1 ∧
      Leaves order log b.store.tables r.2.2.store.tables r.1 := by
  obtain rfl := h.owner
  obtain ⟨w, hw, hkept, ⟨x, hx⟩, he⟩ := h.watched
  obtain ⟨-, hends, hstore, -, -⟩ := h.rollback.poll j.owner j.rollback.wake b
  have hrest : ∀ rest : Remainder Unit, rest.work.Ends (Hook.fault hooks .rollback 1) →
      Stands j.owner hooks alarms order drawn stopped last log { j with rollback := rest } b.store (.rollingBack e) :=
    fun rest hr => { h with rollback := hr, watched := ⟨w, hw, hkept, ⟨x, hx⟩, he⟩ }
  simp only [Parts.pollRollback, parts, Job.pollRollback, Remainder.poll]
  rcases hp : j.rollback.work.poll j.owner j.rollback.wake b with ⟨r, rest, b'⟩
  rw [hp] at hends hstore
  dsimp only at hends hstore
  have hstands := hrest rest hends
  rw [← hstore] at hstands ⊢
  rcases r with _ | e' | u
  · exact ⟨hstands, rfl⟩
  · exact ⟨hstands.dropped (he last), rfl⟩
  · have hx' : b'.store.tx? j.owner = some x := by rw [hstore, ← hw]; exact hx
    have hroll : (b'.rollback j.owner).store = b'.store.forget j.owner := by simp only [Bank.rollback, hx']
    simp only [hroll]
    exact ⟨hstands.dropped (he last), rfl⟩

/-- The commit publishes the transfer, or drops it. -/
theorem Stands.commits {s s' : Store} {receipt : TransferReceipt} {r : Outcome Unit}
    (h : Stands o hooks alarms order drawn stopped last log j s (.committing receipt))
    (hf : Hook.fault hooks .commit 1 = none) (hlast : last = some s.tables) (hc : s.commit o = (r, s')) :
    Stands o hooks alarms order drawn stopped last log j s' (.finished (r.map fun _ => receipt)) ∧
      Leaves order log s.tables s'.tables (.finished (r.map fun _ => receipt)) := by
  obtain ⟨w, rfl, hkept, hns, hlog, hreached, x, hx⟩ := h.watched
  have htouched : ∀ row, x.accounts.has row = true ↔ log.Touched row := hlog ▸ (hkept.tracks hx).touched
  cases hc ▸ Store.committed w.store o with
  | noTx hn => rw [hn] at hx; cases hx
  | @gone y a hy ha =>
    obtain rfl := Option.some.inj (hy.symm.trans hx)
    refine ⟨h.dropped (.gone hns hreached hf hlast ⟨⟨?_, ?_⟩, ?_⟩), rfl⟩
    · exact (htouched a.id).1 (Rows.has_of_mem (List.mem_of_find?_eq_some ha))
    · simpa using List.find?_some ha
    · rintro row ⟨hrow, hgone⟩
      obtain ⟨c, hmem, rfl⟩ := Rows.has_iff.1 ((htouched row).2 hrow)
      exact Rows.Sorted.le_of_find? (hkept.sound.drafts hx) ha hmem (by simp [hgone])
  | @done y hy hknown =>
    obtain rfl := Option.some.inj (hy.symm.trans hx)
    have hleads : (Work.transfer order).Leads (w.logs o) (.done (.ok receipt)) := hlog ▸ hreached.leads
    obtain ⟨hpublish, hsettles, -⟩ := hkept.settle hy hknown hleads
    have hgone := w.store.gone_forget o
    have hstore : (w.apply (.commit o)).store = { w.store.forget o with tables := w.store.tables.publish y } := by
      rw [Watch.apply_store, Store.apply, hc]
    have hthere : ∀ row, log.Touched row → w.store.tables.accounts.has row = true := by
      intro row hrow
      obtain ⟨c, hmem, rfl⟩ := Rows.has_iff.1 ((htouched row).2 hrow)
      exact hknown c hmem
    refine ⟨{ h with watched := ⟨w.apply (.commit o), hstore, hkept.apply _, ?_, hns, fun e => ?_⟩ }, ?_⟩
    · rw [hstore]
      exact ⟨hgone.tx, hgone.line⟩
    · exact hlast ▸ hreached.no_error hns hf hthere
    · exact ⟨hpublish, hsettles, hreached.leads, _, hlog ▸ hkept.written hy hknown hleads⟩

theorem Stands.pollCommit {receipt : TransferReceipt}
    (h : Stands o hooks alarms order drawn stopped last log j b.store (.committing receipt))
    (hlast : last = some b.store.tables) :
    let r := parts.pollCommit receipt (j, b)
    Stands o hooks alarms order drawn stopped last log r.2.1 r.2.2.store r.1 ∧
      Leaves order log b.store.tables r.2.2.store.tables r.1 := by
  obtain rfl := h.owner
  obtain ⟨w, hw, hkept, hns, hlog, hreached, hx⟩ := h.watched
  obtain ⟨-, hends, hstore, -, hready⟩ := h.commit.poll j.owner j.commit.wake b
  have hrest : ∀ rest : Remainder Unit, rest.work.Ends (Hook.fault hooks .commit 1) →
      Stands j.owner hooks alarms order drawn stopped last log { j with commit := rest } b.store
        (.committing receipt) :=
    fun rest hr => { h with commit := hr, watched := ⟨w, hw, hkept, hns, hlog, hreached, hx⟩ }
  simp only [Parts.pollCommit, parts, Job.pollCommit, Remainder.poll]
  rcases hp : j.commit.work.poll j.owner j.commit.wake b with ⟨r, rest, b'⟩
  rw [hp] at hends hstore hready
  dsimp only at hends hstore hready
  have hstands := hrest rest hends
  rw [← hstore] at hstands hlast ⊢
  rcases r with _ | e | u
  · exact ⟨hstands, rfl⟩
  · exact ⟨hstands.dropped (.commit hns hreached (hready _ rfl)), rfl⟩
  · rcases hc : b'.store.commit j.owner with ⟨r, s'⟩
    have := hstands.commits (hready _ rfl) hlast hc
    simp only [hc]
    rcases r with e | u
    · exact this
    · exact this

/-- What a look at the work leaves: the work goes on, and may be stopped, or it is over. -/
theorem Stands.works (h : Stands o hooks alarms order drawn stopped last log j b.store .working)
    {r : Poll (Outcome TransferReceipt)} {j₁ : Job TransferReceipt} {b₁ : Bank}
    (hp : Job.pollWork (j, b) = (r, j₁, b₁)) :
    let log₁ := log ++ j.work.work.answers j.owner j.work.wake b
    b₁.now = b.now ∧ b₁.store.tables = b.store.tables ∧
      match r with
      | .pending => Stands o hooks alarms order drawn stopped last log₁ j₁ b₁.store .working ∧
          ∃ p, Reached hooks order log₁ p ∧ ∀ r, p ≠ .done r
      | .ready (.ok receipt) => Stands o hooks alarms order drawn stopped last log₁ j₁ b₁.store (.committing receipt)
      | .ready (.error e) => Stands o hooks alarms order drawn stopped last log₁ j₁ b₁.store (.rollingBack e) := by
  intro log₁
  obtain rfl := h.owner
  obtain ⟨w, hw, hkept, hns, hlog, hbegun, hleads, x, hx⟩ := h.watched
  obtain ⟨hruns, hnow, hready⟩ := Work.poll_runs j.owner j.work.work j.work.wake b
  have hleads₁ := hleads.trans hruns.leads
  simp only [Job.pollWork, Remainder.poll] at hp
  rcases hq : j.work.work.poll j.owner j.work.wake b with ⟨r', rest, b'⟩
  rw [hq] at hruns hnow hready hp hleads₁
  obtain ⟨rfl, rfl, rfl⟩ : r' = r ∧ { j with work := rest } = j₁ ∧ b' = b₁ := by simpa using hp
  dsimp only at hruns hnow hready hleads₁
  obtain ⟨w₁, x₁, hw₁, hkept₁, hlog₁, hx₁, htables⟩ := hruns.watched hw hkept (hw ▸ hx)
  rw [hlog] at hlog₁
  rw [← hw₁] at hx₁
  have hstands : ∀ stage, At j.owner hooks order stopped last log₁ w₁ { j with work := rest } stage →
      Stands j.owner hooks alarms order drawn stopped last log₁ { j with work := rest } b'.store stage :=
    fun stage hat => { h with watched := ⟨w₁, hw₁, hkept₁, hat⟩ }
  refine ⟨hnow, htables, ?_⟩
  rcases r' with _ | r
  · rcases reached_or_error hns hbegun hleads₁ with ⟨p, hreached, hover⟩ | ⟨e, hover, -⟩
    · refine ⟨hstands _ ⟨hns, hlog₁, hbegun, hleads₁, x₁, hx₁⟩, p, hreached, fun r hr => ?_⟩
      have := (hready r).2 ((hover r).2 hr)
      cases this
    · have := (hready _).2 hover
      cases this
  · have hdone : rest.work = .done r := (hready r).1 rfl
    rcases reached_or_error hns hbegun hleads₁ with ⟨p, hreached, hover⟩ | ⟨e, hover, he⟩
    · obtain rfl := (hover r).1 hdone
      rcases r with e | receipt
      · exact hstands _ ⟨⟨x₁, hx₁⟩, fun _ => .own hns hreached⟩
      · exact hstands _ ⟨hns, hlog₁, hreached, x₁, hx₁⟩
    · obtain rfl := Work.done.inj (hdone.symm.trans hover)
      exact hstands _ ⟨⟨x₁, hx₁⟩, he⟩

/-- What a look at the alarms leaves: none has come, or the job is stopped. -/
theorem Stands.stops (stopped' : Prop) {stage : Stage TransferReceipt} (next : Stage TransferReceipt)
    (h : Stands o hooks alarms order drawn stopped last log j b.store stage)
    (hstay : (∀ a ∈ alarms, ¬ a.due ≤ b.now) → ∀ w as, At o hooks order stopped last log w j stage →
      At o hooks order stopped' last log w { j with alarms := as } stage)
    (hstop : (∃ a ∈ alarms, a.due ≤ b.now) → ∀ w as, At o hooks order stopped last log w j stage →
      At o hooks order stopped' last log (w.apply (.leave o)) { j with alarms := as } next)
    {fired : Bool} {j₁ : Job TransferReceipt} {b₁ : Bank} (hp : pollStop (j, b) = (fired, j₁, b₁)) :
    b₁.store.tables = b.store.tables ∧
      Stands o hooks alarms order drawn stopped' last log j₁ b₁.store (if fired then next else stage) := by
  obtain rfl := h.owner
  obtain ⟨w, hw, hkept, hat⟩ := h.watched
  have hheeded := j.heeded b
  rw [hp] at hheeded
  cases hheeded with
  | quiet as b₁ hdues hnone hstore =>
    rw [h.dues] at hnone
    have hquiet : ∀ a ∈ alarms, ¬ a.due ≤ b.now := fun a ha => Nat.not_le.2 (hnone _ (List.mem_map_of_mem ha))
    rw [hstore]
    exact ⟨rfl, { h with dues := hdues.trans h.dues, watched := ⟨w, hw, hkept, hstay hquiet w as hat⟩ }⟩
  | fired as b₁ hdues hdue hstore =>
    obtain ⟨due, hmem, hle⟩ := hdue
    rw [h.dues] at hmem
    obtain ⟨a, ha, rfl⟩ := List.mem_map.1 hmem
    rw [hstore]
    exact ⟨rfl, { h with
      dues := hdues.trans h.dues
      watched := ⟨w.apply (.leave j.owner), by rw [Watch.apply_store, hw]; rfl, hkept.apply _,
        hstop ⟨a, ha, hle⟩ w as hat⟩ }⟩

theorem Stands.pollWork (h : Stands o hooks alarms order drawn stopped last log j b.store .working)
    (hstopped : stopped' ↔
      stopped ∨ (Job.pollWork (j, b)).1.isPending = true ∧ ∃ a ∈ alarms, a.due ≤ b.now)
    (hlast : last = some b.store.tables) :
    let log₁ := log ++ j.work.work.answers j.owner j.work.wake b
    let r := parts.pollWork (j, b)
    Stands o hooks alarms order drawn stopped' last log₁ r.2.1 r.2.2.store r.1 ∧
      Leaves order log₁ b.store.tables r.2.2.store.tables r.1 := by
  have hwork : Parts.work parts = @Job.pollWork TransferReceipt := rfl
  have hstop : Parts.stop parts = @pollStop TransferReceipt := rfl
  unfold Parts.pollWork
  rw [hwork, hstop]
  rcases hp : Job.pollWork (j, b) with ⟨r, j₁, b₁⟩
  obtain ⟨hnow, htables, hworks⟩ := h.works hp
  rw [hp] at hstopped
  rw [← htables] at hlast ⊢
  rcases r with _ | e | receipt
  · obtain ⟨hstands, p, hreached, hwaits⟩ := hworks
    simp only [Poll.isPending, true_and] at hstopped
    rcases hs : pollStop (j₁, b₁) with ⟨fired, j₂, b₂⟩
    obtain ⟨htables₂, hstops⟩ := hstands.stops stopped' (.rollingBack .cancelled)
      (fun hquiet w as hat => by
        refine ⟨?_, hat.2⟩
        rw [hstopped, not_or]
        refine ⟨hat.1, ?_⟩
        rintro ⟨a, ha, hdue⟩
        exact hquiet a ha (hnow ▸ hdue))
      (fun hdue w as hat => by
        obtain ⟨-, -, -, -, hx⟩ := hat
        rw [hnow] at hdue
        exact ⟨hx, fun _ => .stoppedWorking (hstopped.2 (.inr hdue)) hreached hwaits⟩) hs
    dsimp only
    rw [hs, ← htables₂]
    cases fired with
    | false => exact ⟨hstops, rfl⟩
    | true => exact hstops.pollRollback
  · obtain rfl : stopped' = stopped := propext (by simpa [Poll.isPending] using hstopped)
    exact hworks.pollRollback
  · obtain rfl : stopped' = stopped := propext (by simpa [Poll.isPending] using hstopped)
    exact hworks.pollCommit hlast

/-- What a look at the begin leaves: it is still to be answered, or the transaction is open,
    or a hook failed it. -/
theorem Stands.begins (h : Stands o hooks alarms order drawn stopped last log j b.store .opening)
    {r : Poll (Outcome Unit)} {j₁ : Job TransferReceipt} {b₁ : Bank} (hp : Job.pollBegin (j, b) = (r, j₁, b₁)) :
    b₁.now = b.now ∧ b₁.store.tables = b.store.tables ∧
      match r with
      | .pending => Stands o hooks alarms order drawn stopped last log j₁ b₁.store .opening ∧
          ∀ r, j₁.begin.work ≠ .done r
      | .ready (.ok ()) => Stands o hooks alarms order drawn stopped last log j₁ b₁.store .working
      | .ready (.error e) => Stands o hooks alarms order drawn stopped last log j₁ b₁.store (.finished (.error e)) := by
  obtain rfl := h.owner
  obtain ⟨w, hw, hkept, hns, rfl, hgone, hwork, hgate, hends⟩ := h.watched
  obtain ⟨hl, hends₁, hstore, hnow, hready⟩ := hends.poll j.owner j.begin.wake b
  obtain ⟨-, -, hover⟩ := Work.poll_runs j.owner j.begin.work j.begin.wake b
  simp only [Job.pollBegin, Remainder.poll] at hp
  rcases hq : j.begin.work.poll j.owner j.begin.wake b with ⟨r', rest, b'⟩
  rw [hq] at hl hends₁ hstore hnow hready hover hp
  dsimp only at hl hends₁ hstore hnow hready hover
  rw [← hstore] at hw
  rcases r' with _ | e | u
  · obtain ⟨rfl, rfl, rfl⟩ : .pending = r ∧ { j with begin := rest } = j₁ ∧ b' = b₁ := by simpa using hp
    refine ⟨hnow, congrArg _ hstore, ?_, fun r hr => ?_⟩
    · exact { h with watched := ⟨w, hw, hkept, hns, rfl, hgone, hwork, hgate.skip hl, hends₁⟩ }
    · have := (hover r).2 hr
      cases this
  · obtain ⟨rfl, rfl, rfl⟩ : .ready (.error e) = r ∧ { j with begin := rest } = j₁ ∧ b' = b₁ := by simpa using hp
    exact ⟨hnow, congrArg _ hstore, { h with watched := ⟨w, hw, hkept, hgone, .begin hns (hready _ rfl)⟩ }⟩
  · obtain ⟨rfl, rfl, rfl⟩ : .ready (.ok ()) = r ∧ { j with begin := rest } = j₁ ∧
        { b' with store := b'.store.begin j.owner } = b₁ := by simpa using hp
    have htables : (b'.store.begin j.owner).tables = b.store.tables := by rw [Store.begin_tables, hstore]
    refine ⟨hnow, htables, { h with watched := ⟨w.apply (.begin j.owner), by rw [Watch.apply_store, hw]; rfl,
      hkept.apply _, hns, Function.update_self .., hready _ rfl, ?_, { owner := j.owner }, ?_⟩ }⟩
    · show Work.Leads _ [] j.work.work
      rw [hwork]
      exact .nil
    · rw [Watch.apply_store, Store.apply, Store.tx?_begin, if_pos rfl]

theorem Stands.pollBegin (h : Stands o hooks alarms order drawn stopped last log j b.store .opening)
    (hs : j.stage = .opening)
    (hstopped : stopped' ↔ stopped ∨ j.waits b = true ∧ ∃ a ∈ alarms, a.due ≤ b.now)
    (hlast : last = some b.store.tables) :
    let r := parts.pollBegin (j, b)
    Stands o hooks alarms order drawn stopped' last (log ++ j.answers b) r.2.1 r.2.2.store r.1 ∧
      Leaves order (log ++ j.answers b) b.store.tables r.2.2.store.tables r.1 := by
  have hbegin : Parts.begin parts = @Job.pollBegin TransferReceipt := rfl
  have hstop : Parts.stop parts = @pollStop TransferReceipt := rfl
  unfold Parts.pollBegin
  rw [hbegin, hstop]
  unfold Job.waits at hstopped
  unfold Job.answers
  rw [hs] at hstopped ⊢
  dsimp only at hstopped ⊢
  rcases hp : Job.pollBegin (j, b) with ⟨r, j₁, b₁⟩
  obtain ⟨hnow, htables, hbegins⟩ := h.begins hp
  rw [hp] at hstopped
  rw [← htables] at hlast ⊢
  rcases r with _ | e | u
  · obtain ⟨hstands, hwaits⟩ := hbegins
    simp only [true_and] at hstopped
    rcases hs : pollStop (j₁, b₁) with ⟨fired, j₂, b₂⟩
    obtain ⟨htables₂, hstops⟩ := hstands.stops stopped' (.finished (.error .cancelled))
      (fun hquiet w as hat => by
        refine ⟨?_, hat.2⟩
        rw [hstopped, not_or]
        refine ⟨hat.1, ?_⟩
        rintro ⟨a, ha, hdue⟩
        exact hquiet a ha (hnow ▸ hdue))
      (fun hdue w as hat => by
        obtain ⟨-, rfl, hgone, -, hgate, -⟩ := hat
        rw [hnow] at hdue
        refine ⟨⟨hgone.tx, fun row hrow => hgone.line row (List.mem_of_mem_filter hrow)⟩, ?_⟩
        exact .stoppedOpening (hstopped.2 (.inr hdue)) hgate hwaits) hs
    dsimp only
    rw [hs, ← htables₂, List.append_nil]
    cases fired with
    | false => exact ⟨hstops, rfl⟩
    | true => exact ⟨hstops, rfl⟩
  · obtain rfl : stopped' = stopped := propext (by simpa using hstopped)
    dsimp only
    rw [List.append_nil]
    exact ⟨hbegins, rfl⟩
  · refine hbegins.pollWork ?_ hlast
    rw [hnow]
    exact hstopped

/-! ## A whole course -/

/-- A look at the job leaves it as it stands at its new stage. -/
theorem Stands.poll (h : Stands o hooks alarms order drawn stopped last log j b.store j.stage)
    (hfin : ∀ r, j.stage ≠ .finished r)
    (hstopped : stopped' ↔ stopped ∨ j.waits b = true ∧ ∃ a ∈ alarms, a.due ≤ b.now)
    (hlast : last = some b.store.tables) :
    Stands o hooks alarms order drawn stopped' last (log ++ j.answers b) (j.poll b).1 (j.poll b).2.store
        (j.poll b).1.stage ∧
      Leaves order (log ++ j.answers b) b.store.tables (j.poll b).2.store.tables (j.poll b).1.stage := by
  obtain ⟨hjob, hstore⟩ := poll_parts hfin b
  rw [hjob, hstore]
  have hparts : Stands o hooks alarms order drawn stopped' last (log ++ j.answers b) (parts.poll j.stage (j, b)).2.1
      (parts.poll j.stage (j, b)).2.2.store (parts.poll j.stage (j, b)).1 ∧
      Leaves order (log ++ j.answers b) b.store.tables (parts.poll j.stage (j, b)).2.2.store.tables
        (parts.poll j.stage (j, b)).1 := by
    cases hs : j.stage with
    | opening => exact (hs ▸ h).pollBegin hs hstopped hlast
    | working =>
      have hl : j.answers b = j.work.work.answers j.owner j.work.wake b := by simp only [answers, hs]
      have hw : j.waits b = (Job.pollWork (j, b)).1.isPending := by simp only [waits, hs]
      rw [hl]
      exact (hs ▸ h).pollWork (hw ▸ hstopped) hlast
    | committing receipt =>
      have hl : j.answers b = [] := by simp only [answers, hs]
      have hw : j.waits b = false := by simp only [waits, hs]
      obtain rfl : stopped' = stopped := propext (by simpa [hw] using hstopped)
      rw [hl, List.append_nil]
      exact (hs ▸ h).pollCommit hlast
    | rollingBack e =>
      have hl : j.answers b = [] := by simp only [answers, hs]
      have hw : j.waits b = false := by simp only [waits, hs]
      obtain rfl : stopped' = stopped := propext (by simpa [hw] using hstopped)
      rw [hl, List.append_nil]
      exact (hs ▸ h).pollRollback
    | finished r => exact absurd hs (hfin r)
  exact ⟨{ hparts.1 with }, hparts.2⟩

/-- What others do does not concern the job. -/
theorem Stands.others {s s' : Store} {drawn' : List Int} {stage : Stage TransferReceipt}
    (h : Stands o hooks alarms order drawn stopped last log j s stage) (hs : s.Others o drawn s' drawn') :
    Stands o hooks alarms order drawn' stopped last log j s' stage := by
  obtain ⟨w, rfl, hkept, hat⟩ := h.watched
  obtain ⟨w', hw', hkept', hlogs, htx, hline⟩ := hkept.others hs
  have hgone : w.store.Gone o → w'.store.Gone o := fun hg =>
    ⟨htx.trans hg.tx, fun row hrow => hg.line row ((hline row).1 hrow)⟩
  refine { h with watched := ⟨w', hw', hkept', ?_⟩ }
  cases stage with
  | opening =>
    obtain ⟨hns, hlog, hg, hrest⟩ := hat
    exact ⟨hns, hlog, hgone hg, hrest⟩
  | finished r =>
    cases r with
    | error e => exact hat.imp_left hgone
    | ok receipt => exact hat.imp_left hgone
  | _ =>
    -- Whoever has a transaction has the same one, with the same transcript.
    simp only [At, htx, hlogs] at hat ⊢
    exact hat

variable {timer : Timer} {verdict : Outcome TransferReceipt → Option Event} {b₀ : Bank} {looks : List Look}
  {drawn₀ : List Int}

/-- All calls that were answered during the looks. -/
def logOf (looks : List Look) : Transcript := looks.flatMap (·.answers)

/-- Just one of the looks changed the tables: it posted the transfer. -/
def PostedOnce (order : TransferOrder) (receipt : TransferReceipt) (looks : List Look) : Prop :=
  ∃ before look after, looks = before ++ look :: after ∧ Posted order (logOf looks) receipt look.tables look.after ∧
    ∀ other ∈ before ++ after, other.after = other.tables

/-- What the looks so far have made of the tables, at a stage of the job. -/
def Left (order : TransferOrder) (looks : List Look) : Stage TransferReceipt → Prop
  | .finished (.ok receipt) => PostedOnce order receipt looks
  | _ => ∀ look ∈ looks, look.after = look.tables

theorem stands_start (hstore : ({} : Store).Others o [] b.store drawn) :
    Stands o hooks alarms order drawn (Stopped alarms []) last []
      (Job.start o timer hooks alarms (Work.transfer order) verdict) b.store .opening where
  owner := rfl
  commit := Work.gate_ends ..
  rollback := Work.gate_ends ..
  dues := rfl
  watched := by
    obtain ⟨w, hw, hkept, -, htx, hline⟩ := Watch.KeptWith.empty.others hstore
    refine ⟨w, hw, hkept, by simp [Stopped], rfl, ⟨htx, fun row hrow => ?_⟩, rfl, .nil, Work.gate_ends ..⟩
    cases (hline row).1 hrow

/-- One more look: it changes nothing, unless it is the one that posts the transfer. -/
theorem Left.look {stage : Stage TransferReceipt} {look : Look} (h : Left order looks j.stage)
    (hfin : ∀ r, j.stage ≠ .finished r)
    (hlook : Leaves order (logOf (looks ++ [look])) look.tables look.after stage) :
    Left order (looks ++ [look]) stage := by
  have hquiet : ∀ look ∈ looks, look.after = look.tables := by
    cases hs : j.stage with
    | finished r => exact absurd hs (hfin r)
    | _ => rw [hs] at h; exact h
  have hsnoc : look.after = look.tables → ∀ other ∈ looks ++ [look], other.after = other.tables := by
    intro hl other hother
    rcases List.mem_append.1 hother with hother | hother
    · exact hquiet other hother
    · rw [List.mem_singleton.1 hother]; exact hl
  cases stage with
  | finished r =>
    cases r with
    | error e => exact hsnoc hlook
    | ok receipt => exact ⟨looks, look, [], rfl, hlook, by simpa using hquiet⟩
  | _ => exact hsnoc hlook

/-- A look at a finished job changes nothing. -/
theorem Left.rest {r : Outcome TransferReceipt} {look : Look} (h : Left order looks (.finished r))
    (hlook : look.after = look.tables) (hlog : logOf (looks ++ [look]) = logOf looks) :
    Left order (looks ++ [look]) (.finished r) := by
  have hsnoc : ∀ others : List Look, (∀ other ∈ others, other.after = other.tables) →
      ∀ other ∈ others ++ [look], other.after = other.tables := by
    intro others h other hother
    rcases List.mem_append.1 hother with hother | hother
    · exact h other hother
    · rw [List.mem_singleton.1 hother]; exact hlook
  rcases r with e | receipt
  · exact hsnoc looks h
  · obtain ⟨before, posted, after, hlooks, hposted, hquiet⟩ := h
    refine ⟨before, posted, after ++ [look], by simp [hlooks], hlog.symm ▸ hposted, ?_⟩
    rw [← List.append_assoc]
    exact hsnoc _ hquiet

theorem isFinished_iff {α : Type} {j : Job α} : j.isFinished = true ↔ ∃ r, j.stage = .finished r := by
  unfold isFinished
  split <;> simp_all

theorem poll_finished {α : Type} {j : Job α} {r : Outcome α} (hr : j.stage = .finished r) (b : Bank) :
    j.poll b = (j, b) := by
  unfold Job.poll
  rw [hr]

/-- As long as the job is not at its end, no look found it there. -/
theorem Course.unended {α : Type} {j₀ j : Job α} {b : Bank} (h : Course j₀ b₀ drawn₀ j b drawn looks)
    (hfin : ∀ r, j.stage ≠ .finished r) : ended looks = none := by
  suffices ∀ look ∈ looks, look.finished = false by
    rw [ended, List.find?_eq_none.2 fun look hlook => by simp [this look hlook]]
    rfl
  induction h with
  | start => intro look hlook; cases hlook
  | @look j b drawn looks _ ih =>
    intro look hlook
    have hfin' : ∀ r, j.stage ≠ .finished r := by
      intro r hr
      rw [poll_finished hr] at hfin
      exact hfin r hr
    rcases List.mem_append.1 hlook with hlook | hlook
    · exact ih hfin' look hlook
    · obtain rfl := List.mem_singleton.1 hlook
      refine Bool.eq_false_iff.2 fun hf => ?_
      obtain ⟨r, hr⟩ := isFinished_iff.1 hf
      exact hfin r hr
  | others _ _ ih => exact ih hfin

theorem ended_snoc_of_none {look : Look} (h : ended looks = none) :
    ended (looks ++ [look]) = if look.finished then some look.tables else none := by
  have hnone : looks.find? (·.finished) = none := by simpa [ended] using h
  rw [ended, List.find?_append, hnone, Option.none_or]
  cases hf : look.finished <;> simp [hf]

theorem ended_snoc_of_some {look : Look} {t : Tables} (h : ended looks = some t) :
    ended (looks ++ [look]) = some t := by
  obtain ⟨found, hfound, rfl⟩ := Option.map_eq_some_iff.1 h
  rw [ended, List.find?_append, hfound]
  rfl

/-- A job at its end came there in one of the looks. -/
theorem Course.ended {α : Type} {j₀ j : Job α} {b : Bank} (h : Course j₀ b₀ drawn₀ j b drawn looks)
    (hnew : ∀ r, j₀.stage ≠ .finished r) {r : Outcome α} (hr : j.stage = .finished r) : ∃ t, Giro.ended looks = some t := by
  induction h with
  | start => exact absurd hr (hnew r)
  | @look j b drawn looks hc ih =>
    by_cases hfin : ∃ r, j.stage = .finished r
    · obtain ⟨r', hr'⟩ := hfin
      rw [poll_finished hr'] at hr
      obtain ⟨t, ht⟩ := ih hr
      exact ⟨t, ended_snoc_of_some ht⟩
    · have hf : (j.look b).finished = true := isFinished_iff.2 ⟨r, hr⟩
      rw [ended_snoc_of_none (hc.unended fun r hr => hfin ⟨r, hr⟩), if_pos hf]
      exact ⟨_, rfl⟩
  | others _ _ ih => exact ih hr

theorem Course.stands (hstore : ({} : Store).Others o [] b₀.store drawn₀)
    (h : Course (Job.start o timer hooks alarms (Work.transfer order) verdict) b₀ drawn₀ j b drawn looks) :
    Stands o hooks alarms order drawn (Stopped alarms looks) (Giro.ended looks) (logOf looks) j b.store j.stage ∧
      Left order looks j.stage := by
  induction h with
  | start => exact ⟨stands_start hstore, fun other hother => by cases hother⟩
  | @look j b drawn looks hc ih =>
    obtain ⟨hstands, hleft⟩ := ih
    have hlog : logOf (looks ++ [j.look b]) = logOf looks ++ j.answers b := by simp [logOf, Job.look]
    rw [hlog]
    by_cases hfin : ∃ r, j.stage = .finished r
    · -- The job rests at its end, and the look is no news.
      obtain ⟨r, hr⟩ := hfin
      have hsame : j.poll b = (j, b) := poll_finished hr b
      have hnone : j.answers b = [] := by simp only [answers, hr]
      have hwaits : (j.look b).waits = false := by simp only [Job.look, waits, hr]
      have hstopped : Stopped alarms (looks ++ [j.look b]) = Stopped alarms looks :=
        propext (by simp [stopped_snoc, hwaits])
      obtain ⟨t, ht⟩ := hc.ended (by simp [Job.start]) hr
      rw [hnone, List.append_nil] at hlog
      rw [hstopped, ended_snoc_of_some ht, ← ht, hsame, hnone, List.append_nil]
      exact ⟨hstands, hr ▸ (hr ▸ hleft).rest (by simp only [Job.look, hsame]) hlog⟩
    · have hfin' : ∀ r, j.stage ≠ .finished r := fun r hr => hfin ⟨r, hr⟩
      obtain ⟨hpoll, hleaves⟩ := (hstands.unended hfin' (some b.store.tables)).poll hfin'
        (stopped_snoc (j.look b)) rfl
      refine ⟨?_, hleft.look hfin' (hlog ▸ hleaves)⟩
      rw [ended_snoc_of_none (hc.unended hfin')]
      split
      · exact hpoll
      · rename_i hf
        exact hpoll.unended (fun r hr => hf (isFinished_iff.2 ⟨r, hr⟩)) none
  | others _ hothers ih => exact ⟨ih.1.others hothers, ih.2⟩

/-- A transfer under hooks and alarms happens whole or not at all. When its job ends with an
    error, no look changed a table, the owner holds nothing and the error is the first one
    that was met, or that of the stop when a look had stopped it before, and there is no other
    such error: that of a failing rollback comes too late to be it. When it ends well, no
    error was met, and one look changed the tables, to what the transfer without faults makes
    of them. -/
theorem atomic (hstore : ({} : Store).Others o [] b₀.store drawn₀)
    (h : Course (Job.start o timer hooks alarms (Work.transfer order) verdict) b₀ drawn₀ j b drawn looks) :
    (∀ e, j.stage = .finished (.error e) → (∀ look ∈ looks, look.after = look.tables) ∧ b.store.Gone o ∧
        ∀ e', FirstError hooks order (Stopped alarms looks) (Giro.ended looks) (logOf looks) e' ↔ e' = e) ∧
      (∀ receipt, j.stage = .finished (.ok receipt) → PostedOnce order receipt looks ∧ b.store.Gone o ∧
        ¬ Stopped alarms looks ∧
        ∀ e', ¬ FirstError hooks order (Stopped alarms looks) (Giro.ended looks) (logOf looks) e') := by
  obtain ⟨hstands, hleft⟩ := h.stands hstore
  obtain ⟨w, hw, -, hat⟩ := hstands.watched
  rw [← hw]
  refine ⟨?_, ?_⟩
  · intro e he
    rw [he] at hleft hat
    obtain ⟨hgone, hfirst⟩ := hat
    exact ⟨hleft, hgone, fun e' => ⟨fun h' => h'.unique hfirst, fun heq => heq ▸ hfirst⟩⟩
  · intro receipt hr
    rw [hr] at hleft hat
    exact ⟨hleft, hat⟩

/-- Two accounts, one of them with 100. -/
def openings : List Operation := [.createAccount "ann" "EUR" 100 .epoch, .createAccount "bob" "EUR" 0 .epoch]

/-- The hooks of a transfer that fails at its second update and then, after a while, cannot be
    rolled back. -/
def failures : List Hook := [{ kind := .update, nth := 2, error := some (.storage (.reported "disk full")) },
  { kind := .rollback, nth := 1, delay := some 10, error := some (.storage (.reported "connection lost")) }]

/-- A transfer of 30 that fails twice. The alarm comes while it is rolled back. -/
def twiceFailing : Job TransferReceipt :=
  start 7 ⟨0, 0⟩ failures [{ due := 3 }] (Work.transfer ⟨1, 2, 30⟩) fun _ => none

theorem atomic_twiceFailing :
    let b : Bank := { store := ({} : Store).run openings }
    let j := (twiceFailing.poll b).1
    let b' : Bank := { (twiceFailing.poll b).2 with now := 10 }
    let looks := [twiceFailing.look b, j.look b']
    (j.poll b').1.stage = .finished (.error (.storage (.reported "disk full"))) ∧
      (∀ look ∈ looks, look.after = look.tables) ∧ (j.poll b').2.store.Gone 7 ∧
      ¬ FirstError failures ⟨1, 2, 30⟩ (Stopped [{ due := 3 }] looks) (ended looks) (logOf looks) .cancelled := by
  intro b j b' looks
  have hstage : (j.poll b').1.stage = .finished (.error (.storage (.reported "disk full"))) := rfl
  have hlook : Course twiceFailing b [] j (twiceFailing.poll b).2 [] [twiceFailing.look b] := .look .start
  have hothers : (twiceFailing.poll b).2.store.Others twiceFailing.owner [] b'.store [] := .nothing
  have hcourse : Course twiceFailing b [] (j.poll b').1 (j.poll b').2 [] looks := (hlook.others hothers).look
  have hstore : ({} : Store).Others 7 [] b.store [] := Store.Others.nothing.run (by decide)
  obtain ⟨hquiet, hgone, hfirst⟩ := (atomic hstore hcourse).1 _ hstage
  have hother : LedgerError.cancelled ≠ .storage (.reported "disk full") := by simp
  exact ⟨hstage, hquiet, hgone, fun h => hother ((hfirst _).1 h)⟩

end Job

end Giro
