import Giro.Call
import Giro.Event

/-
  Giro.Work — a unit of work: a program that asks its transaction one thing after another
  and may choose each question by the answers so far.

  `Work` is a monad in which an error ends the program; `attempt` turns that error into
  a value.
-/

namespace Giro

/-- A program over one open transaction. -/
inductive Work (α : Type) : Type where
  /-- The work is over. -/
  | done (result : Outcome α)
  /-- Asks the transaction and goes on with the answer, an error included. -/
  | call (c : Call) (next : Outcome c.Reply → Work α)
  /-- Reports an event. -/
  | report (event : Event) (next : Work α)
  /-- Puts an action on the record of what was asked. -/
  | trace (action : Action) (next : Work α)
  /-- Waits for some milliseconds. -/
  | sleep (ms : Nat) (next : Work α)

namespace Work

def bind {α β : Type} : Work α → (α → Work β) → Work β
  | done (.ok a), f => f a
  | done (.error e), _ => done (.error e)
  | call c next, f => call c fun r => (next r).bind f
  | report event next, f => report event (next.bind f)
  | trace action next, f => trace action (next.bind f)
  | sleep ms next, f => sleep ms (next.bind f)

instance : Monad Work where
  pure a := done (.ok a)
  bind := bind

/-- Ends the work with an error. -/
def fail {α : Type} (e : LedgerError) : Work α := done (.error e)

/-- Asks the transaction; an error ends the work. -/
def ask (c : Call) : Work c.Reply := call c done

/-- Reports an event and goes on. -/
def tell (event : Event) : Work Unit := report event (pure ())

/-- The work with its result, an error included, as the value. -/
def attempt {α : Type} : Work α → Work (Outcome α)
  | done r => done (.ok r)
  | call c next => call c fun r => (next r).attempt
  | report event next => report event next.attempt
  | trace action next => trace action next.attempt
  | sleep ms next => sleep ms next.attempt

end Work

end Giro
