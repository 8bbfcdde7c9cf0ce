import Giro.Error
import Giro.Record
import Giro.Tally

/-
  Giro.Audit — does a ledger's money add up?

  The audit compares every balance with the sum of the account's entries, and every
  transfer with a debit entry on its source and a credit entry on its destination. Each
  entry backs at most one transfer; an account may keep one entry that backs none, its
  opening balance. What does not fit is reported as an `Issue`, in a fixed order:
  balances in the order of the accounts, entries of unknown accounts by ascending id,
  transfers in their order, and accounts with spare entries in the order of the accounts.
-/

namespace Giro

/-- One thing that does not add up. -/
inductive Issue where
  | balanceMismatch (account balance sum : Int)
  | unknownAccount (account sum : Int)
  | amountNotPositive (transfer amount : Int)
  | noDebit (transfer amount account : Int)
  | noCredit (transfer amount account : Int)
  | unpaired (account count : Int)
  deriving DecidableEq

def Issue.text : Issue → String
  | balanceMismatch account balance sum =>
    s!"Account {account} balance {balance} does not match entry sum {sum}"
  | unknownAccount account sum => s!"Entries totalling {sum} reference unknown account {account}"
  | amountNotPositive transfer amount => s!"Transfer {transfer} has non-positive amount {amount}"
  | noDebit transfer amount account =>
    s!"Transfer {transfer} has no debit entry of {amount} on account {account}"
  | noCredit transfer amount account =>
    s!"Transfer {transfer} has no credit entry of {amount} on account {account}"
  | unpaired account count => s!"Account {account} has {count} entries not paired with any transfer"

/-- The written result of an audit. -/
structure AuditReport where
  isValid : Bool
  issues : List String
  accountsChecked : Nat
  transfersChecked : Nat
  totalBalance : Int
  deriving DecidableEq

/-- What an audit finds. -/
structure Audit where
  issues : List Issue
  accountsChecked : Nat
  transfersChecked : Nat
  totalBalance : Int
  deriving DecidableEq

namespace Audit

/-- One side of a transfer: a signed amount on an account. -/
structure Leg where
  account : Int
  amount : Int
  deriving DecidableEq

def legOf (e : Entry) : Leg := ⟨e.account, e.amount⟩

/-! ## Balances against entries -/

/-- The sum of the entries of each account that has any. -/
def entrySums (entries : List Entry) : Tally Int :=
  entries.foldl (fun t e => t.add e.account e.amount) []

/-- Compares each account with its sum, which is used up: a second account of the same id
    is compared with zero. The sums that no account used are left. -/
def checkBalances : List Account → Tally Int → List Issue × Tally Int
  | [], sums => ([], sums)
  | a :: accounts, sums =>
    let sum := sums.count a.id
    let (issues, sums) := checkBalances accounts (sums.remove a.id)
    if a.balance = sum then (issues, sums) else (.balanceMismatch a.id a.balance sum :: issues, sums)

/-- The sums left over belong to accounts that are not listed. -/
def unknownAccounts (sums : Tally Int) : List Issue :=
  (sums.mergeSort fun p q => p.1 ≤ q.1).map fun p => .unknownAccount p.1 p.2

/-! ## Transfers against entries -/

/-- How many entries there are of each account and amount. -/
def legCounts (entries : List Entry) : Tally Leg :=
  entries.foldl (fun t e => t.add (legOf e) 1) []

/-- Uses up one entry of a leg, if one is left. -/
def take (leg : Leg) (spare : Tally Leg) : Option (Tally Leg) :=
  if 0 < spare.count leg then some (spare.add leg (-1)) else none

/-- Uses up one entry of a leg or reports its lack. -/
def takeOr (issue : Issue) (leg : Leg) (spare : Tally Leg) : List Issue × Tally Leg :=
  match take leg spare with
  | some spare => ([], spare)
  | none => ([issue], spare)

/-- Finds each transfer its debit and its credit entry, in the order of the transfers. -/
def checkTransfers : List Transfer → Tally Leg → List Issue × Tally Leg
  | [], spare => ([], spare)
  | t :: transfers, spare =>
    if t.amount ≤ 0 then
      let (issues, spare) := checkTransfers transfers spare
      (.amountNotPositive t.id t.amount :: issues, spare)
    else
      let (out, spare) := takeOr (.noDebit t.id (-t.amount) t.source) ⟨t.source, -t.amount⟩ spare
      let (into, spare) := takeOr (.noCredit t.id t.amount t.destination) ⟨t.destination, t.amount⟩ spare
      let (issues, spare) := checkTransfers transfers spare
      (out ++ into ++ issues, spare)

/-- How many spare entries each account has. -/
def leftovers (spare : Tally Leg) : Tally Int :=
  spare.foldl (fun t p => t.add p.1.account p.2) []

/-- An account may have one spare entry. -/
def checkLeftovers (accounts : List Account) (left : Tally Int) : List Issue :=
  accounts.filterMap fun a =>
    if 1 < left.count a.id then some (.unpaired a.id (left.count a.id)) else none

/-! ## The audit -/

/-- The sum of all balances. -/
def total : List Account → Int
  | [] => 0
  | a :: accounts => a.balance + total accounts

/-- Audits the given rows, which may be in any order and need not fit together. -/
def ofRows (accounts : List Account) (entries : List Entry) (transfers : List Transfer) : Audit :=
  let (mismatches, rest) := checkBalances accounts (entrySums entries)
  let (unbacked, spare) := checkTransfers transfers (legCounts entries)
  { issues := mismatches ++ unknownAccounts rest ++ unbacked ++ checkLeftovers accounts (leftovers spare)
    accountsChecked := accounts.length
    transfersChecked := transfers.length
    totalBalance := total accounts }

def isValid (a : Audit) : Bool := a.issues.isEmpty

def report (a : Audit) : AuditReport where
  isValid := a.isValid
  issues := a.issues.map Issue.text
  accountsChecked := a.accountsChecked
  transfersChecked := a.transfersChecked
  totalBalance := a.totalBalance

/-- Audits rows that have to be read first; the first read that fails, of accounts,
    entries and transfers, ends the audit. -/
def ofReads (accounts : Outcome (List Account)) (entries : Outcome (List Entry))
    (transfers : Outcome (List Transfer)) : Outcome Audit := do
  let accounts ← accounts
  let entries ← entries
  let transfers ← transfers
  return ofRows accounts entries transfers

end Audit

end Giro
