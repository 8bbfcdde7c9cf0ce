import Giro.Error
import Giro.Poll
import Giro.Rows

/-
  Giro.Store — the in-memory store: committed tables, id counters, open transactions and
  the requests that wait for a row.

  A transaction stages what it writes; `commit` publishes all of it in one step and
  `forget` discards it. It takes the lock of an account's row on first touch and keeps it
  until it ends. A row held by another transaction, or asked for earlier by another one,
  makes the request wait in line (`waiting`, first come, first served). A waiting request
  outlives the row it waits for: after `clear` it is still granted in its turn, and then
  finds no row.

  Ids come from counters that only go up: not after a rollback, a failure or `clear` are
  they given again.
-/

namespace Giro

/-- What every reader sees. -/
structure Tables where
  accounts : Rows := []
  transfers : List Transfer := []
  entries : List Entry := []
  deriving DecidableEq

/-- The next id of each kind. -/
structure Counters where
  account : Int := 1
  transfer : Int := 1
  entry : Int := 1
  deriving DecidableEq

/-- An open transaction: the rows whose locks it holds and what it has staged. -/
structure Transaction where
  owner : Nat
  held : List Int := []
  accounts : Rows := []
  transfers : List Transfer := []
  entries : List Entry := []
  deriving DecidableEq

/-- A transaction waits for the lock of a row. -/
structure Request where
  owner : Nat
  row : Int
  deriving DecidableEq

structure Store where
  tables : Tables := {}
  next : Counters := {}
  txs : List Transaction := []
  waiting : List Request := []
  deriving DecidableEq

/-- The tables with everything a transaction staged. -/
def Tables.publish (t : Tables) (x : Transaction) : Tables where
  accounts := Rows.putAll x.accounts t.accounts
  transfers := t.transfers ++ x.transfers
  entries := t.entries ++ x.entries

namespace Store

/-! ## Reading the committed tables -/

def account? (s : Store) (id : Int) : Option Account := s.tables.accounts.find? id

def transfer? (s : Store) (id : Int) : Option Transfer := s.tables.transfers.find? (·.id == id)

/-- All transfers, or those that touch one account, in the order of their commits. -/
def transfers (s : Store) (account : Option Int) : List Transfer :=
  match account with
  | none => s.tables.transfers
  | some id => s.tables.transfers.filter (·.touches id)

/-- All entries, or those of one account, in the order of their commits. -/
def entries (s : Store) (account : Option Int) : List Entry :=
  match account with
  | none => s.tables.entries
  | some id => s.tables.entries.filter (·.account == id)

/-! ## Outside any transaction -/

/-- Opens an account; a balance other than zero is recorded as its opening entry. -/
def createAccount (s : Store) (owner currency : String) (balance : Int) (now : Instant) : Account × Store :=
  let a : Account := ⟨s.next.account, owner, currency, balance, now⟩
  let s := { s with
    tables.accounts := Rows.put a s.tables.accounts
    next.account := s.next.account + 1 }
  if balance = 0 then (a, s)
  else (a, { s with
    tables.entries := s.tables.entries ++ [⟨s.next.entry, a.id, balance, now⟩]
    next.entry := s.next.entry + 1 })

/-- Empties the tables. Counters, open transactions and their locks stay. -/
def clear (s : Store) : Store := { s with tables := {} }

/-! ## Transactions -/

/-- The open transaction of an owner. -/
def tx? (s : Store) (owner : Nat) : Option Transaction := s.txs.find? (·.owner == owner)

/-- Replaces the open transaction of `x.owner`. -/
def setTx (s : Store) (x : Transaction) : Store :=
  { s with txs := s.txs.map fun y => if y.owner = x.owner then x else y }

/-- Ends an owner's transaction without a trace: its locks are free, its staged rows are
    gone and it waits for nothing. -/
def forget (s : Store) (owner : Nat) : Store :=
  { s with txs := s.txs.filter (·.owner != owner), waiting := s.waiting.filter (·.owner != owner) }

/-- Opens a transaction; one that its owner still has open is dropped. -/
def begin (s : Store) (owner : Nat) : Store :=
  let s := s.forget owner
  { s with txs := s.txs ++ [{ owner }] }

/-- Gives up every place in line. -/
def leaveLine (s : Store) (owner : Nat) : Store :=
  { s with waiting := s.waiting.filter (·.owner != owner) }

/-- No transaction holds the row and no other owner asked for it earlier. -/
def isFreeFor (s : Store) (owner : Nat) (row : Int) : Bool :=
  s.txs.all (fun x => !x.held.contains row) &&
    (s.waiting.takeWhile (· != ⟨owner, row⟩)).all (·.row != row)

/-- The owner takes a place in line, unless it has one. -/
def enqueue (s : Store) (owner : Nat) (row : Int) : Store :=
  if s.waiting.contains ⟨owner, row⟩ then s else { s with waiting := s.waiting ++ [⟨owner, row⟩] }

/-- The owners whose request can be granted now, in the order of the line. -/
def grantable (s : Store) : List Nat :=
  (s.waiting.filter fun r => s.isFreeFor r.owner r.row).map (·.owner)

/-- Copies a row, whose lock is held, into the staged rows. -/
def stage (s : Store) (x : Transaction) (row : Int) : Outcome Account × Store :=
  match s.account? row with
  | some a => (.ok a, s.setTx { x with accounts := Rows.put a x.accounts })
  | none => (.error (.accountNotFound row), s.setTx x)

/-- Reads an account and keeps its row locked to the end of the transaction. A row that
    was touched before is answered from the staged copy. -/
def get (s : Store) (x : Transaction) (row : Int) : Poll (Outcome Account) × Store :=
  match x.accounts.find? row with
  | some a => (.ready (.ok a), s)
  | none =>
    if x.held.contains row then
      let (r, s) := s.stage x row
      (.ready r, s)
    else if s.waiting.contains ⟨x.owner, row⟩ || s.tables.accounts.has row then
      if s.isFreeFor x.owner row then
        let (r, s) := { s with waiting := s.waiting.erase ⟨x.owner, row⟩ }.stage
          { x with held := x.held ++ [row] } row
        (.ready r, s)
      else (.pending, s.enqueue x.owner row)
    else (.ready (.error (.accountNotFound row)), s)

/-- Reads an account as `get` does and stages it with a new balance. -/
def update (s : Store) (x : Transaction) (row balance : Int) : Poll (Outcome Account) × Store :=
  match s.get x row with
  | (.ready (.ok a), s) =>
    let a := { a with balance }
    match s.tx? x.owner with
    | some x => (.ready (.ok a), s.setTx { x with accounts := Rows.put a x.accounts })
    | none => (.ready (.ok a), s)
  | r => r

/-- Stages the record of a transfer between two accounts that exist. -/
def insertTransfer (s : Store) (x : Transaction) (order : TransferOrder) (now : Instant) :
    Outcome Transfer × Store :=
  if !s.tables.accounts.has order.source then (.error (.accountNotFound order.source), s)
  else if !s.tables.accounts.has order.destination then (.error (.accountNotFound order.destination), s)
  else if order.amount ≤ 0 then (.error (.storage (.amountNotPositive order.amount)), s)
  else
    let t : Transfer := ⟨s.next.transfer, order.source, order.destination, order.amount, now⟩
    (.ok t, { s.setTx { x with transfers := x.transfers ++ [t] } with next.transfer := s.next.transfer + 1 })

/-- Stages an entry of an account that exists. -/
def insertEntry (s : Store) (x : Transaction) (account amount : Int) (now : Instant) :
    Outcome Entry × Store :=
  if !s.tables.accounts.has account then (.error (.accountNotFound account), s)
  else
    let e : Entry := ⟨s.next.entry, account, amount, now⟩
    (.ok e, { s.setTx { x with entries := x.entries ++ [e] } with next.entry := s.next.entry + 1 })

/-- Ends a transaction and publishes what it staged. When an account that it read or
    changed is gone, nothing is published and the smallest such id is the error. -/
def commit (s : Store) (owner : Nat) : Outcome Unit × Store :=
  match s.tx? owner with
  | none => (.error (.storage .transactionEnded), s)
  | some x =>
    match List.find? (fun a => !s.tables.accounts.has a.id) x.accounts with
    | some a => (.error (.accountNotFound a.id), s.forget owner)
    | none => (.ok (), { s.forget owner with tables := s.tables.publish x })

end Store

end Giro
