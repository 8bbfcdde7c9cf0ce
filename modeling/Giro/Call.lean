import Giro.Store

/-
  Giro.Call — what can be asked of an open transaction, with the type of each answer, and
  the text that a trace shows for it.
-/

namespace Giro

/-- A question to an open transaction. -/
inductive Call where
  | get (account : Int)
  | update (account balance : Int)
  | insertTransfer (order : TransferOrder)
  | insertEntry (account amount : Int)
  deriving DecidableEq

/-- What answers a call that succeeds. -/
@[reducible] def Call.Reply : Call → Type
  | .get _ => Account
  | .update .. => Account
  | .insertTransfer _ => Transfer
  | .insertEntry .. => Entry

/-- Everything asked of a store on behalf of one unit of work. -/
inductive Action where
  | begin
  | call (c : Call)
  | commit
  | rollback
  deriving DecidableEq

/-- The kinds of actions, which are counted apart. -/
inductive ActionKind where
  | begin
  | get
  | update
  | insertTransfer
  | insertEntry
  | commit
  | rollback
  deriving DecidableEq

def Call.kind : Call → ActionKind
  | get _ => .get
  | update .. => .update
  | insertTransfer _ => .insertTransfer
  | insertEntry .. => .insertEntry

def Call.text : Call → String
  | get account => s!"get({account})"
  | update account balance => s!"update({account},{balance})"
  | insertTransfer order => s!"insert_transfer({order.source},{order.destination},{order.amount})"
  | insertEntry account amount => s!"insert_entry({account},{amount})"

def Action.text : Action → String
  | begin => "begin"
  | call c => c.text
  | commit => "commit"
  | rollback => "rollback"

namespace Store

/-- Answers a call of an owner's open transaction; the answer waits while the row does. -/
def call (s : Store) (owner : Nat) (c : Call) (now : Instant) : Poll (Outcome c.Reply) × Store :=
  match s.tx? owner with
  | none => (.ready (.error (.storage .transactionEnded)), s)
  | some x =>
    match c with
    | .get account => s.get x account
    | .update account balance => s.update x account balance
    | .insertTransfer order => let (r, s) := s.insertTransfer x order now; (.ready r, s)
    | .insertEntry account amount => let (r, s) := s.insertEntry x account amount now; (.ready r, s)

end Store

end Giro
