import Giro.Audit
import Giro.Config
import Giro.Instant.Text
import Giro.Json.Read

/-
  Giro.Json.Record — the ledger's records, reports and configurations as JSON.

  A record is written as an object with its fields in order. It is read from an object with
  the fields in any order and anything else beside them, or from an array of the fields in
  their order. A field that is there twice, missing or of the wrong kind is refused; only a
  configuration may leave fields to their defaults.
-/

namespace Giro

namespace Json

/-- The fields of a record with these names: the members of an object under them, each at
    most once, or the first items of an array that is not too long. -/
def fields? (names : List String) : Value → Option (List (String × Value))
  | .object members => do
    let members ← members.mapM fun (name, value) => name.map (·, value)
    let known := members.filter fun m => names.contains m.1
    if (known.map (·.1)).Nodup then some known else none
  | .array items => if items.length ≤ names.length then some (names.zip items) else none
  | _ => none

/-- The values of all the fields, in the order of the names. -/
def record? (names : List String) (v : Value) : Option (List Value) := do
  let fields ← fields? names v
  names.mapM fun name => fields.lookup name

namespace Value

/-- An integer that a row can store. -/
def stored? : Value → Option Int
  | integer n => Amount.fit? n
  | _ => none

/-- The least number of 128 bits. -/
def wideLeast : Int := -170141183460469231731687303715884105728

/-- The greatest number of 128 bits. -/
def wideGreatest : Int := 170141183460469231731687303715884105727

/-- An integer of 128 bits, for which `-0` is zero. -/
def wide? : Value → Option Int
  | integer n => if wideLeast ≤ n ∧ n ≤ wideGreatest then some n else none
  | minusZero => some 0
  | _ => none

/-- A natural number below a limit. -/
def below? (limit : Nat) : Value → Option Nat
  | integer n => if 0 ≤ n ∧ n < limit then some n.toNat else none
  | _ => none

def text? : Value → Option String
  | string s => s
  | _ => none

def bool? : Value → Option Bool
  | bool b => some b
  | _ => none

def instant? (v : Value) : Option Instant := v.text?.bind Instant.ofText?

def texts? : Value → Option (List String)
  | array items => items.mapM text?
  | _ => none

/-- Nothing, or what `read` makes of the value. -/
def orNull? {α : Type} (read : Value → Option α) : Value → Option (Option α)
  | null => some none
  | v => (read v).map some

end Value

end Json

open Json (Value record?)

namespace Account

def fieldNames : List String := ["id", "owner", "currency", "balance", "created_at"]

def toJson (a : Account) : Value :=
  .ofMembers [("id", .integer a.id), ("owner", .text a.owner), ("currency", .text a.currency),
    ("balance", .integer a.balance), ("created_at", .text a.createdAt.toText)]

def ofJson? (v : Value) : Option Account := do
  match ← record? fieldNames v with
  | [id, owner, currency, balance, createdAt] =>
    return ⟨← id.stored?, ← owner.text?, ← currency.text?, ← balance.stored?, ← createdAt.instant?⟩
  | _ => none

end Account

namespace Entry

def fieldNames : List String := ["id", "account_id", "amount", "created_at"]

def toJson (e : Entry) : Value :=
  .ofMembers [("id", .integer e.id), ("account_id", .integer e.account), ("amount", .integer e.amount),
    ("created_at", .text e.createdAt.toText)]

def ofJson? (v : Value) : Option Entry := do
  match ← record? fieldNames v with
  | [id, account, amount, createdAt] =>
    return ⟨← id.stored?, ← account.stored?, ← amount.stored?, ← createdAt.instant?⟩
  | _ => none

end Entry

namespace Transfer

def fieldNames : List String := ["id", "from_account_id", "to_account_id", "amount", "created_at"]

def toJson (t : Transfer) : Value :=
  .ofMembers [("id", .integer t.id), ("from_account_id", .integer t.source), ("to_account_id", .integer t.destination),
    ("amount", .integer t.amount), ("created_at", .text t.createdAt.toText)]

def ofJson? (v : Value) : Option Transfer := do
  match ← record? fieldNames v with
  | [id, source, destination, amount, createdAt] =>
    return ⟨← id.stored?, ← source.stored?, ← destination.stored?, ← amount.stored?, ← createdAt.instant?⟩
  | _ => none

end Transfer

namespace TransferOrder

def fieldNames : List String := ["from_account_id", "to_account_id", "amount"]

def toJson (o : TransferOrder) : Value :=
  .ofMembers [("from_account_id", .integer o.source), ("to_account_id", .integer o.destination),
    ("amount", .integer o.amount)]

def ofJson? (v : Value) : Option TransferOrder := do
  match ← record? fieldNames v with
  | [source, destination, amount] => return ⟨← source.stored?, ← destination.stored?, ← amount.stored?⟩
  | _ => none

end TransferOrder

namespace TransferReceipt

def fieldNames : List String := ["transfer", "from_account", "to_account", "from_entry", "to_entry"]

def toJson (r : TransferReceipt) : Value :=
  .ofMembers [("transfer", r.transfer.toJson), ("from_account", r.source.toJson),
    ("to_account", r.destination.toJson), ("from_entry", r.debit.toJson), ("to_entry", r.credit.toJson)]

def ofJson? (v : Value) : Option TransferReceipt := do
  match ← record? fieldNames v with
  | [transfer, source, destination, debit, credit] =>
    return ⟨← Transfer.ofJson? transfer, ← Account.ofJson? source, ← Account.ofJson? destination,
      ← Entry.ofJson? debit, ← Entry.ofJson? credit⟩
  | _ => none

end TransferReceipt

namespace AuditReport

def fieldNames : List String := ["is_valid", "issues", "accounts_checked", "transfers_checked", "total_balance"]

/-- Counts of rows are below this: they have 64 bits. -/
def countLimit : Nat := 18446744073709551616

def toJson (r : AuditReport) : Value :=
  .ofMembers [("is_valid", .bool r.isValid), ("issues", .array (r.issues.map .text)),
    ("accounts_checked", .integer r.accountsChecked),
    ("transfers_checked", .integer r.transfersChecked), ("total_balance", .integer r.totalBalance)]

def ofJson? (v : Value) : Option AuditReport := do
  match ← record? fieldNames v with
  | [isValid, issues, accountsChecked, transfersChecked, totalBalance] =>
    return ⟨← isValid.bool?, ← issues.texts?, ← accountsChecked.below? countLimit,
      ← transfersChecked.below? countLimit, ← totalBalance.wide?⟩
  | _ => none

end AuditReport

namespace Config

def optional {α : Type} (write : α → Value) : Option α → Value
  | none => .null
  | some a => write a

def toJson (c : Config) : Value :=
  .ofMembers [("database_url", optional .text c.databaseUrl), ("max_connections", .integer c.maxConnections),
    ("acquire_timeout_secs", .integer c.acquireTimeoutSecs),
    ("transfer_timeout_ms", optional (fun n => .integer n) c.transferTimeoutMs), ("log_level", .text c.logLevel),
    ("log_json", .bool c.logJson)]

/-- The setting of a key to a value. -/
def settingOfJson? (key : ConfigKey) (v : Value) : Option Setting :=
  match key with
  | .databaseUrl => (v.orNull? Value.text?).map .databaseUrl
  | .maxConnections => (v.below? connectionLimit).map .maxConnections
  | .acquireTimeoutSecs => (v.below? timeLimit).map .acquireTimeoutSecs
  | .transferTimeoutMs => (v.orNull? (Value.below? timeLimit)).map .transferTimeoutMs
  | .logLevel => v.text?.map .logLevel
  | .logJson => v.bool?.map .logJson

/-- The configuration in a value; what its numbers mean is not checked. -/
def ofJson? (v : Value) : Option Config := do
  let fields ← Json.fields? (ConfigKey.all.map ConfigKey.name) v
  let settings ← fields.mapM fun (name, value) => do settingOfJson? (← ConfigKey.ofName? name) value
  ofSettings? settings

end Config

/-- The compact text of the record that a text holds. -/
def Json.compact? {α : Type} (ofJson? : Value → Option α) (toJson : α → Value) (text : String) :
    Option String := do
  let a ← ofJson? (← Value.ofText? text)
  return (toJson a).toText

end Giro
