import Giro.Amount
import Giro.Database.Fault

/-
  Giro.Error — why an operation of the ledger failed: the cause as data, and its text,
  its code and its kind derived from it.
-/

namespace Giro

/-- Why the store refused or could not answer. -/
inductive StorageFault where
  /-- A transfer record carries a positive amount. -/
  | amountNotPositive (amount : Int)
  /-- The transaction was ended before the call. -/
  | transactionEnded
  /-- The database behind the store failed. -/
  | database (fault : DatabaseFault)
  /-- The tables of a database could not be brought up to date. -/
  | migration (fault : DatabaseFault)
  /-- A failure reported from outside, in its own words. -/
  | reported (text : String)
  deriving DecidableEq

/-- Why a request was refused. -/
inductive Refusal where
  /-- The amount has no opposite that can be stored. -/
  | amountOutOfRange (amount : Int)
  | accountIdNotPositive
  | sameAccount
  | amountNotPositive
  | unsupportedCurrency (currency : String)
  | currencyMismatch (account : Int) (held wanted : String)
  | ownerEmpty
  | ownerTooLong
  | reported (text : String)
  deriving DecidableEq

/-- Why a file gives no text. -/
inductive FileFault where
  | missing
  | isDirectory
  | notText
  deriving DecidableEq

/-- Why a configuration cannot be used. -/
inductive ConfigFault where
  | unreadable (path : String) (fault : FileFault)
  /-- The text is no configuration, for a reason in its reader's words. -/
  | invalid (why : String)
  | noConnections
  | zeroTimeout
  | noDatabaseUrl
  | reported (text : String)
  deriving DecidableEq

/-- Why an operation of the ledger failed. -/
inductive LedgerError where
  | accountNotFound (account : Int)
  | storage (fault : StorageFault)
  | cancelled
  | balanceOverflow (account : Int) (balance delta : Int)
  | validation (refusal : Refusal)
  | config (fault : ConfigFault)
  deriving DecidableEq

def StorageFault.message : StorageFault → String
  | .amountNotPositive n => s!"transfers.amount must be positive, got {n}"
  | .transactionEnded => "transaction has ended"
  | .database fault => fault.message
  | .migration fault => s!"migration failed: while executing migrations: {fault.message}"
  | .reported text => text

def Refusal.message : Refusal → String
  | .amountOutOfRange n => s!"amount {n} out of range"
  | .accountIdNotPositive => "Account IDs must be positive"
  | .sameAccount => "Source and destination accounts must differ"
  | .amountNotPositive => "Amount must be positive"
  | .unsupportedCurrency currency => s!"Unsupported currency: {currency}"
  | .currencyMismatch account held wanted => s!"Account [{account}] currency mismatch: {held} vs {wanted}"
  | .ownerEmpty => "Owner cannot be empty"
  | .ownerTooLong => "Owner cannot exceed 100 characters"
  | .reported text => text

def FileFault.message : FileFault → String
  | .missing => "No such file or directory (os error 2)"
  | .isDirectory => "Is a directory (os error 21)"
  | .notText => "stream did not contain valid UTF-8"

def ConfigFault.message : ConfigFault → String
  | .unreadable path fault => s!"failed to read {path}: {fault.message}"
  | .invalid why => s!"invalid config: {why}"
  | .noConnections => "max_connections must be at least 1"
  | .zeroTimeout => "transfer_timeout_ms must be positive when set"
  | .noDatabaseUrl => "database_url is not set"
  | .reported text => text

namespace LedgerError

/-- The sentence shown to a person. -/
def message : LedgerError → String
  | accountNotFound account => s!"Account not found: {account}"
  | storage fault => s!"Storage error: {fault.message}"
  | cancelled => "Transfer cancelled before commit"
  | balanceOverflow account balance delta => s!"Balance overflow on account {account}: {balance} + {delta}"
  | validation refusal => s!"Validation error: {refusal.message}"
  | config fault => s!"Configuration error: {fault.message}"

/-- The stable code for programs. -/
def code : LedgerError → String
  | accountNotFound _ => "ACCOUNT_NOT_FOUND"
  | storage _ => "STORAGE_ERROR"
  | cancelled => "CANCELLED"
  | balanceOverflow .. => "BALANCE_OVERFLOW"
  | validation _ => "VALIDATION_ERROR"
  | config _ => "CONFIG_ERROR"

/-- The same request may succeed another time. -/
def isRetryable : LedgerError → Bool
  | storage _ => true
  | _ => false

/-- An account is missing. -/
def isNotFound : LedgerError → Bool
  | accountNotFound _ => true
  | _ => false

end LedgerError

/-- What an operation of the ledger gives. -/
abbrev Outcome (α : Type) := Except LedgerError α

end Giro
