import Giro.Audit
import Giro.Runner

/-
  Giro.Database.ClosedPool — a ledger over a pool of database connections that was closed
  before it opened one.

  Whatever needs a connection fails when it asks for one, so before it looks at what it
  was given, and a run that cannot begin takes no notice of its stop signal.
-/

namespace Giro.ClosedPool

def isClosed : Bool := true

/-- No connection is given out. -/
def acquire {α : Type} : Outcome α := .error (.storage (.database .poolClosed))

def healthCheck : Outcome Unit := acquire

def begin : Outcome Unit := acquire

/-- Bringing the tables up to date says in its own words that it failed. -/
def migrate : Outcome Unit := .error (.storage (.migration .poolClosed))

def createAccount (_owner _currency : String) (_balance : Int) : Outcome Account := acquire

def account? (_id : Int) : Outcome (Option Account) := acquire

def account (id : Int) : Outcome Account := do
  match ← account? id with
  | some a => return a
  | none => .error (.accountNotFound id)

def transfer? (_id : Int) : Outcome (Option Transfer) := acquire

def accounts : Outcome (List Account) := acquire

def transfers (_account : Option Int) : Outcome (List Transfer) := acquire

def entries (_account : Option Int) : Outcome (List Entry) := acquire

def audit : Outcome Audit := Audit.ofReads accounts (entries none) (transfers none)

/-- The parts of a transfer's run, with a stop signal that has come or never will. -/
def parts (_order : TransferOrder) (stopped : Bool) : Parts Unit TransferReceipt where
  begin s := (.ready begin, s)
  work s := (.ready acquire, s)
  commit s := (.ready acquire, s)
  rollback s := (.ready acquire, s)
  stop s := (stopped, s)
  rollbackFailed _ _ s := s

/-- How far the run of a transfer comes. -/
def transfer (order : TransferOrder) (stopped : Bool) : Stage TransferReceipt :=
  ((parts order stopped).poll .opening ()).1

theorem transfer_eq (order : TransferOrder) (stopped : Bool) :
    transfer order stopped = .finished acquire := rfl

end Giro.ClosedPool
