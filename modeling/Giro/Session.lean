import Giro.Audit
import Giro.Job
import Giro.Session.Script

/-
  Giro.Session — one bank driven operation by operation in virtual time.

  Transfers and scripted units of work run as tasks beside each other and beside named
  transactions that are led step by step. After each operation every task runs until it
  is finished or waits (`settle`). Tasks that can go on queue up, first come, first served:
  those with a timer that has gone off, then those whose row has become free. Only a
  transaction that ends frees a row, and a task whose transaction has ended is finished,
  so the queue runs dry. Time moves in `advance` alone, from one timer to the next.
-/

namespace Giro

/-- What a task gives. -/
inductive Product where
  | receipt (r : TransferReceipt)
  | items (is : List Item)
  deriving DecidableEq

structure Task where
  name : String
  job : Job Product

/-- A task that has finished: its outcome and what it asked the store. -/
structure Finished where
  name : String
  owner : Nat
  outcome : Outcome Product
  trace : List Action

structure Session where
  bank : Bank := {}
  /-- The time limit of a transfer that brings none of its own. -/
  limit : Option Nat := none
  /-- The tasks that wait, in the order in which they started. -/
  tasks : List Task := []
  /-- The transactions led step by step, by name. -/
  txs : List (String × Nat) := []
  nextOwner : Nat := 0
  started : Nat := 0

/-- How a task is started. -/
structure Launch where
  name : Option String := none
  limit : Option Nat := none
  cancelAfter : Option Nat := none
  hooks : List Hook := []

inductive Op where
  | createAccount (owner currency : String) (balance : Int)
  | transfer (launch : Launch) (order : TransferOrder)
  | script (launch : Launch) (steps : List ScriptStep)
  | abort (task : String)
  | begin (tx : String)
  | step (tx : String) (step : Step)
  | commit (tx : String)
  | rollback (tx : String)
  | drop (tx : String)
  | advance (ms : Nat)
  | clear
  | getAccount (id : Int)
  | getAccountRequired (id : Int)
  | getTransfer (id : Int)
  | listAccounts
  | listTransfers (account : Option Int)
  | listEntries (account : Option Int)
  | audit

/-- What an operation answers. -/
inductive Reply where
  | done
  | failed (e : LedgerError)
  | account (a : Option Account)
  | transfer (t : Option Transfer)
  | accounts (as : List Account)
  | transfers (ts : List Transfer)
  | entries (es : List Entry)
  | audit (r : AuditReport)
  | item (i : Item)
  | task (f : Finished)
  | pending
  | blocked
  | aborted (trace : List Action)
  | noTask
  | noTx

/-- Audits the committed tables; a ledger that does not add up is reported. -/
def Bank.audit (b : Bank) : AuditReport × Bank :=
  let t := b.store.tables
  let audit := Audit.ofRows t.accounts t.entries t.transfers
  (audit.report, if audit.isValid then b else b.report (.checkFailed audit.issues.length))

/-! ## Tasks -/

/-- The tasks that can go on: first those with a timer that has gone off, by the order in
    which the timers were set, then those whose row is free, by their places in line. -/
def Task.awake (tasks : List Task) (b : Bank) : List Nat :=
  let due := tasks.filterMap fun t => (t.job.gone b.now).map fun serial => (serial, t.job.owner)
  let due := (due.mergeSort fun p q => p.1 ≤ q.1).map (·.2)
  due ++ b.store.grantable.filter fun owner => !due.contains owner

/-- The task of an owner. -/
def Task.of? (owner : Nat) (tasks : List Task) : Option Task := tasks.find? (·.job.owner == owner)

/-- The tasks of all other owners. -/
def Task.without (owner : Nat) (tasks : List Task) : List Task := tasks.filter (·.job.owner != owner)

/-- The tasks with the job of an owner replaced. -/
def Task.withJob (job : Job Product) (tasks : List Task) : List Task :=
  tasks.map fun t => if t.job.owner = job.owner then { t with job } else t

theorem Task.length_without_lt {owner : Nat} {tasks : List Task} {t : Task} (h : of? owner tasks = some t) :
    (without owner tasks).length < tasks.length :=
  List.length_filter_lt_length_iff_exists.2
    ⟨t, List.mem_of_find?_eq_some h, by simpa using List.find?_some h⟩

theorem Task.length_withJob (job : Job Product) (tasks : List Task) :
    (withJob job tasks).length = tasks.length := List.length_map _

/-- Lets the tasks of the queue run, one after the other. A task that finishes ends its
    transaction; the tasks whose row that frees queue up behind. -/
def Task.run (queue : List Nat) (tasks : List Task) (b : Bank) : List Task × List Finished × Bank :=
  match queue with
  | [] => (tasks, [], b)
  | owner :: queue =>
    match _h : of? owner tasks with
    | none => run queue tasks b
    | some t =>
      let (job, b) := t.job.poll b
      match job.stage with
      | .finished outcome =>
        let freed := b.store.grantable.filter fun owner => !queue.contains owner
        let (tasks, finished, b) := run (queue ++ freed) (without owner tasks) b
        (tasks, ⟨t.name, owner, outcome, b.actionsOf owner⟩ :: finished, b)
      | _ => run queue (withJob job tasks) b
termination_by (tasks.length, queue.length)
decreasing_by
  · exact Prod.Lex.right _ (Nat.lt_succ_self _)
  · exact Prod.Lex.left _ _ (length_without_lt _h)
  · rw [length_withJob]
    exact Prod.Lex.right _ (Nat.lt_succ_self _)

namespace Session

/-- Lets every task run until it is finished or waits. -/
def settle (s : Session) : List Finished × Session :=
  let (tasks, finished, bank) := Task.run (Task.awake s.tasks s.bank) s.tasks s.bank
  (finished, { s with tasks, bank })

/-- The first time after `now`, and no later than `limit`, at which a timer goes off. -/
def nextDue (s : Session) (now limit : Nat) : Option Nat :=
  (((s.tasks.flatMap (·.job.timers)).map (·.due)).filter fun t => now < t && t ≤ limit).min?

theorem lt_of_nextDue {s : Session} {now limit t : Nat} (h : s.nextDue now limit = some t) :
    now < t ∧ t ≤ limit := by
  have := List.min?_mem h
  simpa using (List.mem_filter.1 this).2

/-- Moves the clock from `now` to `limit`; whenever a timer goes off on the way, the tasks
    run on. -/
def advance (s : Session) (now limit : Nat) : List Finished × Session :=
  match _h : s.nextDue now limit with
  | none => ([], { s with bank.now := limit })
  | some t =>
    let (finished, s) := settle { s with bank.now := t }
    let (more, s) := s.advance t limit
    (finished ++ more, s)
termination_by limit - now
decreasing_by
  have := lt_of_nextDue _h
  omega

/-! ## Operations -/

/-- A transaction is led under this name. -/
def tx? (s : Session) (name : String) : Option Nat := s.txs.lookup name

/-- The alarms of a launch now: the time limit, if it has one, and the caller's signal. -/
def alarms (s : Session) (launch : Launch) (limit : Option (Nat × Event)) (signal : Option Event) :
    List Alarm :=
  (limit.toList.map fun (ms, event) => { due := s.bank.now + ms, event := some event }) ++
    (launch.cancelAfter.toList.map fun ms => { due := s.bank.now + ms, event := signal })

/-- Adds a task; unless it brings a name, it is called by its number. -/
def launch (s : Session) (launch : Launch) (alarms : List Alarm) (work : Work Product)
    (verdict : Outcome Product → Option Event) : Session :=
  let (timer, bank) := s.bank.setTimer s.bank.now
  { s with
    bank
    tasks := s.tasks ++ [{
      name := launch.name.getD s!"#{s.started}"
      job := Job.start s.nextOwner timer launch.hooks alarms work verdict }]
    nextOwner := s.nextOwner + 1
    started := s.started + 1 }

/-- What is reported when a transfer has ended. -/
def verdictOn (order : TransferOrder) : Outcome Product → Option Event
  | .ok (.receipt r) => some (.committed r.transfer.id order)
  | .ok (.items _) => none
  | .error e => some (.aborted order e)

def launchTransfer (s : Session) (l : Launch) (order : TransferOrder) : Session :=
  let limit := (l.limit <|> s.limit).map fun ms => (ms, Event.timedOut order ms)
  s.launch l (s.alarms l limit (some (.cancelledByCaller order)))
    (return .receipt (← Work.transfer order)) (verdictOn order)

def launchScript (s : Session) (l : Launch) (steps : List ScriptStep) : Session :=
  s.launch l (s.alarms l none none) (return .items (← ScriptStep.workAll steps)) (fun _ => none)

/-- Drops the oldest waiting task of a name. -/
def abort (s : Session) (name : String) : Reply × Session :=
  match s.tasks.find? (·.name == name) with
  | none => (.noTask, s)
  | some t =>
    (.aborted (s.bank.actionsOf t.job.owner),
      { s with
        tasks := Task.without t.job.owner s.tasks
        bank.store := s.bank.store.forget t.job.owner })

/-- Runs one step of a transaction that is led by name. A step that would have to wait is
    given up. -/
def leadStep (s : Session) (owner : Nat) (step : Step) : Reply × Session :=
  match step.work.poll owner none s.bank with
  | (.pending, _, bank) => (.blocked, { s with bank := { bank with store := bank.store.leaveLine owner } })
  | (.ready (.ok item), _, bank) => (.item item, { s with bank })
  | (.ready (.error e), _, bank) => (.failed e, { s with bank })

/-- Ends a transaction that is led by name; the name is free afterwards. -/
def endTx (s : Session) (name : String) (finish : Nat → Bank → Outcome Unit × Bank) :
    Reply × Session :=
  match s.tx? name with
  | none => (.noTx, s)
  | some owner =>
    let (r, bank) := finish owner s.bank
    (match r with
      | .ok () => .done
      | .error e => .failed e,
      { s with bank, txs := s.txs.filter (·.1 != name) })

/-- Carries out an operation, up to letting the tasks run. -/
def perform (s : Session) : Op → Reply × Session
  | .createAccount owner currency balance =>
    let (a, store) := s.bank.store.createAccount owner currency balance s.bank.stamp
    (.account (some a), { s with bank.store := store })
  | .transfer l order => (.pending, s.launchTransfer l order)
  | .script l steps => (.pending, s.launchScript l steps)
  | .abort name => s.abort name
  | .begin name =>
    let store := match s.tx? name with
      | some owner => s.bank.store.forget owner
      | none => s.bank.store
    (.done, { s with
      bank.store := store.begin s.nextOwner
      txs := (name, s.nextOwner) :: s.txs.filter (·.1 != name)
      nextOwner := s.nextOwner + 1 })
  | .step name step =>
    match s.tx? name with
    | none => (.noTx, s)
    | some owner => s.leadStep owner step
  | .commit name => s.endTx name fun owner b =>
    let (r, store) := b.store.commit owner
    (r, { b with store })
  | .rollback name => s.endTx name fun owner b => (.ok (), b.rollback owner)
  | .drop name => s.endTx name fun owner b => (.ok (), { b with store := b.store.forget owner })
  | .advance _ => (.done, s)
  | .clear => (.done, { s with bank.store := s.bank.store.clear })
  | .getAccount id => (.account (s.bank.store.account? id), s)
  | .getAccountRequired id =>
    (match s.bank.store.account? id with
      | some a => .account (some a)
      | none => .failed (.accountNotFound id), s)
  | .getTransfer id => (.transfer (s.bank.store.transfer? id), s)
  | .listAccounts => (.accounts s.bank.store.tables.accounts, s)
  | .listTransfers account => (.transfers (s.bank.store.transfers account), s)
  | .listEntries account => (.entries (s.bank.store.entries account), s)
  | .audit =>
    let (report, bank) := s.bank.audit
    (.audit report, { s with bank })

/-- Carries out an operation and lets the tasks run. When the operation started a task
    that is finished by then, its outcome is the answer; the other tasks that finished
    come beside the answer, in the order in which they started. -/
def exec (s : Session) (op : Op) : Reply × List Finished × Session :=
  let newest := s.nextOwner
  let (reply, s) := s.perform op
  let (finished, s) := match op with
    | .advance ms => s.advance s.bank.now (s.bank.now + ms)
    | _ => s.settle
  let finished := finished.mergeSort fun f g => f.owner ≤ g.owner
  match reply with
  | .pending =>
    match finished.find? (·.owner == newest) with
    | some f => (.task f, finished.filter (·.owner != newest), s)
    | none => (.pending, finished, s)
  | _ => (reply, finished, s)

/-- Drops whatever is still open: the names of the tasks that waited, in order and each
    once. -/
def close (s : Session) : List String × Session :=
  let owners := s.tasks.map (·.job.owner) ++ s.txs.map (·.2)
  ((s.tasks.map (·.name)).eraseDups.mergeSort fun m n => m ≤ n,
    { s with tasks := [], txs := [], bank.store := owners.foldl Store.forget s.bank.store })

end Session

end Giro
