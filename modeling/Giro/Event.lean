import Giro.Error
import Giro.Record

/-
  Giro.Event — what the ledger reports while it works: each event with its level, the part
  of the program it comes from, its sentence and its fields in the order they are written.
-/

namespace Giro

/-- How serious an event is, from the chattiest up. -/
inductive Level where
  | trace
  | debug
  | info
  | warn
  | error
  deriving DecidableEq

def Level.rank : Level → Nat
  | trace => 0
  | debug => 1
  | info => 2
  | warn => 3
  | error => 4

def Level.name : Level → String
  | trace => "TRACE"
  | debug => "DEBUG"
  | info => "INFO"
  | warn => "WARN"
  | error => "ERROR"

/-- The value of a field: a number, a text that is quoted where lines are text, or the
    sentence of an error, which is not. -/
inductive FieldValue where
  | number (n : Int)
  | quoted (text : String)
  | sentence (text : String)
  deriving DecidableEq

inductive Event where
  | transferWritten (id : Int) (order : TransferOrder)
  | entryWritten (id account amount : Int)
  | applyingDelta (account delta balance : Int)
  | rollingBack (lockedRows stagedEntries : Nat)
  | rollbackFailed (error rollbackError : LedgerError)
  | timedOut (order : TransferOrder) (limit : Nat)
  | cancelledByCaller (order : TransferOrder)
  | committed (id : Int) (order : TransferOrder)
  | aborted (order : TransferOrder) (error : LedgerError)
  | checkFailed (issues : Nat)
  deriving DecidableEq

namespace Event

def level : Event → Level
  | transferWritten .. | entryWritten .. | applyingDelta .. | rollingBack .. => .debug
  | committed .. => .info
  | timedOut .. | cancelledByCaller .. | aborted .. | checkFailed .. => .warn
  | rollbackFailed .. => .error

/-- The part of the program that reports the event, as filters name it. -/
def target : Event → String
  | transferWritten .. | entryWritten .. => "transfer_ledger::ledger::records"
  | applyingDelta .. => "transfer_ledger::ledger::balance"
  | rollingBack .. => "transfer_ledger::utils::memory_storage"
  | rollbackFailed .. => "transfer_ledger::ledger::runner"
  | timedOut .. | cancelledByCaller .. | committed .. | aborted .. | checkFailed .. =>
    "transfer_ledger::ledger::core"

def message : Event → String
  | transferWritten .. => "Transfer record written"
  | entryWritten .. => "Entry written"
  | applyingDelta .. => "Applying balance delta"
  | rollingBack .. => "Rolling back in-memory transaction"
  | rollbackFailed .. => "Rollback failed after aborted unit of work"
  | timedOut .. => "Transfer timed out before commit"
  | cancelledByCaller .. => "Transfer cancelled by caller"
  | committed .. => "Transfer committed"
  | aborted .. => "Transfer aborted"
  | checkFailed .. => "Ledger integrity check failed"

/-- The two accounts of an order. -/
def parties (order : TransferOrder) : List (String × FieldValue) :=
  [("from_account_id", .number order.source), ("to_account_id", .number order.destination)]

def fields : Event → List (String × FieldValue)
  | transferWritten id order =>
    ("transfer_id", .number id) :: parties order ++ [("amount", .number order.amount)]
  | entryWritten id account amount =>
    [("entry_id", .number id), ("account_id", .number account), ("amount", .number amount)]
  | applyingDelta account delta balance =>
    [("account_id", .number account), ("delta", .number delta), ("balance", .number balance)]
  | rollingBack lockedRows stagedEntries =>
    [("locked_rows", .number lockedRows), ("staged_entries", .number stagedEntries)]
  | rollbackFailed error rollbackError =>
    [("error", .sentence error.message), ("rollback_error", .sentence rollbackError.message)]
  | timedOut order limit => parties order ++ [("timeout_ms", .number limit)]
  | cancelledByCaller order => parties order
  | committed id order =>
    ("transfer_id", .number id) :: parties order ++ [("amount", .number order.amount)]
  | aborted order error =>
    parties order ++ [("amount", .number order.amount), ("code", .quoted error.code),
      ("error", .sentence error.message)]
  | checkFailed issues => [("issues", .number issues)]

end Event

end Giro
