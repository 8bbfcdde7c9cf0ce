import Giro.Error
import Giro.Record
import Giro.Text.Blank

/-
  Giro.Request — the checks that a request passes before it reaches the ledger: of several
  faults the first in the order of the checks is the one reported.
-/

namespace Giro.Request

/-- The currencies of accounts and transfers. -/
def currencies : List String := ["USD", "EUR", "CAD"]

/-- The longest name of an owner, in bytes of UTF-8. -/
def ownerLimit : Nat := 100

def refuse (r : Refusal) : Outcome Unit := .error (.validation r)

/-- The accounts are real ids and differ, and there is something to move. -/
def checkOrder (order : TransferOrder) : Outcome Unit :=
  if order.source ≤ 0 ∨ order.destination ≤ 0 then refuse .accountIdNotPositive
  else if order.source = order.destination then refuse .sameAccount
  else if order.amount ≤ 0 then refuse .amountNotPositive
  else .ok ()

def checkCurrency (currency : String) : Outcome Unit :=
  if currencies.contains currency then .ok () else refuse (.unsupportedCurrency currency)

/-- The account is held in the currency. -/
def checkAccountCurrency (a : Account) (currency : String) : Outcome Unit :=
  if a.currency = currency then .ok () else refuse (.currencyMismatch a.id a.currency currency)

/-- The currency is supported and both accounts are held in it. -/
def checkSameCurrency (source destination : Account) (currency : String) : Outcome Unit := do
  checkCurrency currency
  checkAccountCurrency source currency
  checkAccountCurrency destination currency

/-- The name is neither blank nor too long. -/
def checkOwner (owner : String) : Outcome Unit :=
  if Text.allBlank owner.toList then refuse .ownerEmpty
  else if ownerLimit < owner.utf8ByteSize then refuse .ownerTooLong
  else .ok ()

end Giro.Request
