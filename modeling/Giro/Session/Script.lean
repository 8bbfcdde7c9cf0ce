import Giro.Transfer

/-
  Giro.Session.Script — units of work written as a list of steps, each giving one item.
-/

namespace Giro

/-- What one step gives. -/
inductive Item where
  | account (a : Account)
  | transfer (t : Transfer)
  | entry (e : Entry)
  | nothing
  /-- The error of a step that was only tried. -/
  | failed (e : LedgerError)
  deriving DecidableEq

inductive Step where
  | get (account : Int)
  | update (account balance : Int)
  | insertTransfer (order : TransferOrder)
  | insertEntry (account amount : Int)
  | addBalance (account delta : Int)
  | createTransfer (order : TransferOrder)
  | createEntry (account amount : Int)
  | sleep (ms : Nat)
  | fail (error : LedgerError)
  deriving DecidableEq

def Step.work : Step → Work Item
  | get account => return .account (← Work.ask (.get account))
  | update account balance => return .account (← Work.ask (.update account balance))
  | insertTransfer order => return .transfer (← Work.ask (.insertTransfer order))
  | insertEntry account amount => return .entry (← Work.ask (.insertEntry account amount))
  | addBalance account delta => return .account (← Work.addBalance account delta)
  | createTransfer order => return .transfer (← Work.createTransfer order)
  | createEntry account amount => return .entry (← Work.createEntry account amount)
  | sleep ms => .sleep ms (pure .nothing)
  | fail e => Work.fail e

/-- A step of a script. If it is only tried, its error becomes its item. -/
structure ScriptStep where
  step : Step
  tried : Bool := false
  deriving DecidableEq

def ScriptStep.work (s : ScriptStep) : Work Item :=
  if s.tried then do
    match ← s.step.work.attempt with
    | .ok item => return item
    | .error e => return .failed e
  else s.step.work

/-- The steps in order; an error ends the work, unless its step was only tried. -/
def ScriptStep.workAll : List ScriptStep → Work (List Item)
  | [] => return []
  | s :: steps => do
    let item ← s.work
    let items ← workAll steps
    return item :: items

end Giro
