import Giro.Proofs.Watch
import Giro.Proofs.Leads
import Giro.Runner

/-
  Giro.Proofs.Traffic — any number of transfers on their way through one store, with
  accounts opened and the tables emptied in between.

  A move is one storage step of one transfer (`Payment.step`), a stop signal, a transfer
  that is dropped, or something done outside any transfer. Whoever opens an account draws its
  id in one move and puts the row in a later one, if at all, so that openings may overlap
  with each other and with everything else. Moves come in any order, so a list of moves is an
  interleaving. `Payment.Turn` says all that one step can do, with the operations it asks of
  the store.
-/

namespace Giro

/-- A transfer on its way: the stage of its run and what is left of its work. -/
structure Payment where
  order : TransferOrder
  stage : Stage TransferReceipt
  work : Work TransferReceipt

namespace Payment

def enter (order : TransferOrder) : Payment := ⟨order, .opening, .transfer order⟩

/-- One step of the transfer of an owner. Nothing comes of it while a row is waited for. -/
def step (p : Payment) (o : Nat) (now : Instant) (s : Store) : Payment × Store :=
  match p.stage with
  | .opening => ({ p with stage := .working }, s.begin o)
  | .working =>
    match p.work with
    | .done (.ok receipt) => ({ p with stage := .committing receipt }, s)
    | .done (.error e) => ({ p with stage := .rollingBack e }, s)
    | .report _ next => ({ p with work := next }, s)
    | .trace _ next => ({ p with work := next }, s)
    | .sleep _ next => ({ p with work := next }, s)
    | .call c next =>
      match s.call o c now with
      | (.pending, s) => (p, s)
      | (.ready r, s) => ({ p with work := next r }, s)
  | .committing receipt =>
    match s.commit o with
    | (.ok (), s) => ({ p with stage := .finished (.ok receipt) }, s)
    | (.error e, s) => ({ p with stage := .finished (.error e) }, s)
  | .rollingBack e => ({ p with stage := .finished (.error e) }, s.forget o)
  | .finished _ => (p, s)

/-- The stop signal: a transfer that has not come to its end is cancelled and gives up its
    place in line. From the commit on it is too late. -/
def stop (p : Payment) (o : Nat) (s : Store) : Payment × Store :=
  match p.stage with
  | .opening => ({ p with stage := .finished (.error .cancelled) }, s)
  | .working => ({ p with stage := .rollingBack .cancelled }, s.leaveLine o)
  | _ => (p, s)

/-- All that one step can do, with the operations it asks of the store. -/
inductive Turn (o : Nat) (now : Instant) (s : Store) (p : Payment) : List Operation → Payment × Store → Prop
  | begins : p.stage = .opening → Turn o now s p [.begin o] ({ p with stage := .working }, s.begin o)
  /-- A report, an entry on the record or a sleep. -/
  | goesOn {next : Work TransferReceipt} : p.stage = .working →
      ((∃ e, p.work = .report e next) ∨ (∃ a, p.work = .trace a next) ∨ ∃ ms, p.work = .sleep ms next) →
      Turn o now s p [] ({ p with work := next }, s)
  | asks {c : Call} {next : Outcome c.Reply → Work TransferReceipt} {r : Outcome c.Reply} {s' : Store} :
      p.stage = .working → p.work = .call c next → s.call o c now = (.ready r, s') →
      Turn o now s p [.call o c now] ({ p with work := next r }, s')
  | waits {c : Call} {next : Outcome c.Reply → Work TransferReceipt} {s' : Store} :
      p.stage = .working → p.work = .call c next → s.call o c now = (.pending, s') →
      Turn o now s p [.call o c now] (p, s')
  | agrees {receipt : TransferReceipt} : p.stage = .working → p.work = .done (.ok receipt) →
      Turn o now s p [] ({ p with stage := .committing receipt }, s)
  | fails {e : LedgerError} : p.stage = .working → p.work = .done (.error e) →
      Turn o now s p [] ({ p with stage := .rollingBack e }, s)
  | commits {receipt : TransferReceipt} {s' : Store} : p.stage = .committing receipt → s.commit o = (.ok (), s') →
      Turn o now s p [.commit o] ({ p with stage := .finished (.ok receipt) }, s')
  | refused {receipt : TransferReceipt} {e : LedgerError} {s' : Store} : p.stage = .committing receipt →
      s.commit o = (.error e, s') → Turn o now s p [.commit o] ({ p with stage := .finished (.error e) }, s')
  | rollsBack {e : LedgerError} : p.stage = .rollingBack e →
      Turn o now s p [.drop o] ({ p with stage := .finished (.error e) }, s.forget o)
  | rests {r : Outcome TransferReceipt} : p.stage = .finished r → Turn o now s p [] (p, s)

theorem turn (p : Payment) (o : Nat) (now : Instant) (s : Store) : ∃ ops, Turn o now s p ops (p.step o now s) := by
  unfold step
  split
  · rename_i h; exact ⟨_, .begins h⟩
  · rename_i h
    split
    · rename_i hw; exact ⟨_, .agrees h hw⟩
    · rename_i hw; exact ⟨_, .fails h hw⟩
    · rename_i hw; exact ⟨_, .goesOn h (.inl ⟨_, hw⟩)⟩
    · rename_i hw; exact ⟨_, .goesOn h (.inr (.inl ⟨_, hw⟩))⟩
    · rename_i hw; exact ⟨_, .goesOn h (.inr (.inr ⟨_, hw⟩))⟩
    · rename_i hw
      split
      · rename_i hc; exact ⟨_, .waits h hw hc⟩
      · rename_i hc; exact ⟨_, .asks h hw hc⟩
  · rename_i h
    split
    · rename_i hc; exact ⟨_, .commits h hc⟩
    · rename_i hc; exact ⟨_, .refused h hc⟩
  · rename_i h; exact ⟨_, .rollsBack h⟩
  · rename_i h; exact ⟨_, .rests h⟩

theorem Turn.owner? {o : Nat} {now : Instant} {s : Store} {p : Payment} {ops : List Operation} {r : Payment × Store}
    (h : Turn o now s p ops r) : ∀ op ∈ ops, op.owner? = some o := by
  cases h <;> simp [Operation.owner?]

theorem Turn.store {o : Nat} {now : Instant} {s : Store} {p : Payment} {ops : List Operation} {r : Payment × Store}
    (h : Turn o now s p ops r) : r.2 = s.run ops := by
  cases h with
  | begins _ => rfl
  | goesOn _ _ => rfl
  | asks _ _ hc => rw [Store.run_cons, Store.run_nil, Store.apply, hc]
  | waits _ _ hc => rw [Store.run_cons, Store.run_nil, Store.apply, hc]
  | agrees _ _ => rfl
  | fails _ _ => rfl
  | commits _ hc => rw [Store.run_cons, Store.run_nil, Store.apply, hc]
  | refused _ hc => rw [Store.run_cons, Store.run_nil, Store.apply, hc]
  | rollsBack _ => rfl
  | rests _ => rfl

end Payment

/-! ## Traffic -/

structure Traffic where
  store : Store := {}
  /-- The transfers by owner, but for the dropped ones. -/
  payments : Nat → Option Payment := fun _ => none
  /-- How many transfers have been asked for; the next one gets this owner. -/
  entered : Nat := 0
  /-- The ids of accounts that were drawn and whose row was not put yet. -/
  drawn : List Int := []
  /-- Every account that was opened, with its opening balance, in the order of the rows. -/
  opened : List Account := []

inductive Move where
  /-- Draws the id of an account that is to be opened. -/
  | draw
  /-- Puts the row of an account whose id was drawn; its opening entry has its own time. -/
  | openAccount (a : Account) (now : Instant)
  | clear
  | enter (order : TransferOrder)
  | step (owner : Nat) (now : Instant)
  | stop (owner : Nat)
  | drop (owner : Nat)

namespace Traffic

def put (t : Traffic) (o : Nat) (r : Payment × Store) : Traffic :=
  { t with store := r.2, payments := Function.update t.payments o (some r.1) }

def move (t : Traffic) : Move → Traffic
  | .draw => { t with store := t.store.drawAccount, drawn := t.drawn ++ [t.store.next.account] }
  | .openAccount a now =>
    if a.id ∈ t.drawn then
      { t with store := t.store.putAccount a now, drawn := t.drawn.erase a.id, opened := t.opened ++ [a] }
    else t
  | .clear => { t with store := t.store.clear }
  | .enter order =>
    { t with payments := Function.update t.payments t.entered (some (.enter order)), entered := t.entered + 1 }
  | .step o now =>
    match t.payments o with
    | none => t
    | some p => t.put o (p.step o now t.store)
  | .stop o =>
    match t.payments o with
    | none => t
    | some p => t.put o (p.stop o t.store)
  | .drop o => { t with store := t.store.forget o, payments := Function.update t.payments o none }

def run (t : Traffic) (moves : List Move) : Traffic := moves.foldl move t

@[simp] theorem run_nil (t : Traffic) : t.run [] = t := rfl

@[simp] theorem run_cons (t : Traffic) (m : Move) (moves : List Move) : t.run (m :: moves) = (t.move m).run moves := rfl

theorem move_openAccount (t : Traffic) {a : Account} (ha : a.id ∈ t.drawn) (now : Instant) :
    t.move (.openAccount a now) = { t with
      store := t.store.putAccount a now
      drawn := t.drawn.erase a.id
      opened := t.opened ++ [a] } :=
  if_pos ha

theorem move_openAccount_of_not_drawn (t : Traffic) {a : Account} (ha : a.id ∉ t.drawn) (now : Instant) :
    t.move (.openAccount a now) = t :=
  if_neg ha

/-- What every move keeps, a run keeps. -/
theorem run_induction {I : Traffic → Prop} (hmove : ∀ t m, I t → I (t.move m)) {t : Traffic} (h : I t)
    (moves : List Move) : I (t.run moves) := by
  induction moves generalizing t with
  | nil => exact h
  | cons m moves ih => exact ih (hmove t m h)

end Traffic

end Giro
