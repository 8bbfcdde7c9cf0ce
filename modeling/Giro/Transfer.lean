import Giro.Work

/-
  Giro.Transfer — moving money between two accounts in one unit of work.

  A transfer writes its record and two entries and then changes the two balances, always
  the account with the smaller id first: two transfers between the same accounts ask for
  the rows in the same order, whichever way the money goes.
-/

namespace Giro

/-- The order in which the rows of two accounts are locked: the smaller id first. -/
def lockOrder (a b : Int) : Int × Int := if a ≤ b then (a, b) else (b, a)

namespace Work

/-- Writes the record of a transfer. -/
def createTransfer (order : TransferOrder) : Work Transfer := do
  let t ← ask (.insertTransfer order)
  tell (.transferWritten t.id order)
  return t

/-- Writes one signed entry. -/
def createEntry (account amount : Int) : Work Entry := do
  let e ← ask (.insertEntry account amount)
  tell (.entryWritten e.id account amount)
  return e

/-- Locks an account's row and changes its balance by `delta`. -/
def addBalance (account delta : Int) : Work Account := do
  let a ← ask (.get account)
  match Amount.add? a.balance delta with
  | none => fail (.balanceOverflow account a.balance delta)
  | some balance =>
    tell (.applyingDelta account delta balance)
    ask (.update account balance)

/-- The five steps of a transfer. The order of the locks decides which row is touched
    first, never which change it gets. -/
def transfer (order : TransferOrder) : Work TransferReceipt := do
  match Amount.neg? order.amount with
  | none => fail (.validation (.amountOutOfRange order.amount))
  | some debit =>
    let t ← createTransfer order
    let out ← createEntry order.source debit
    let into ← createEntry order.destination order.amount
    let (first, second) := lockOrder order.source order.destination
    if first = order.source then
      let source ← addBalance first debit
      let destination ← addBalance second order.amount
      return ⟨t, source, destination, out, into⟩
    else
      let destination ← addBalance first order.amount
      let source ← addBalance second debit
      return ⟨t, source, destination, out, into⟩

end Work

end Giro
