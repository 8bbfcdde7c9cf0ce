import Giro.Amount
import Giro.Instant

/-
  Giro.Record — what the ledger stores: accounts, signed entries and transfers; and what
  a transfer takes and gives back.
-/

namespace Giro

/-- An account in one currency. -/
structure Account where
  id : Int
  owner : String
  currency : String
  balance : Int
  createdAt : Instant
  deriving DecidableEq

/-- One signed change of one account's balance. -/
structure Entry where
  id : Int
  account : Int
  amount : Int
  createdAt : Instant
  deriving DecidableEq

/-- Money is taken out of the account. -/
def Entry.isDebit (e : Entry) : Bool := e.amount < 0

/-- The record of one movement of money. -/
structure Transfer where
  id : Int
  source : Int
  destination : Int
  amount : Int
  createdAt : Instant
  deriving DecidableEq

/-- The transfer takes money out of the account or brings money in. -/
def Transfer.touches (t : Transfer) (account : Int) : Bool :=
  t.source == account || t.destination == account

/-- What a transfer is asked to move. -/
structure TransferOrder where
  source : Int
  destination : Int
  amount : Int
  deriving DecidableEq

/-- Everything a committed transfer wrote. An account is shown as its own leg left it:
    in a transfer from an account to itself the source still lacks the credit. -/
structure TransferReceipt where
  transfer : Transfer
  source : Account
  destination : Account
  debit : Entry
  credit : Entry
  deriving DecidableEq

end Giro
