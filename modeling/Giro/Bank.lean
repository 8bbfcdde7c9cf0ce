import Giro.Work

/-
  Giro.Bank — where units of work meet: one store, a clock with timers, and the notes of
  all that was asked and reported, in the order in which it happened.

  `Work.poll` lets a program run until it waits, for a row or for the clock, and says what
  is left of it.
-/

namespace Giro

/-- A note of something that happened. -/
inductive Note where
  | event (event : Event)
  | action (owner : Nat) (action : Action)
  deriving DecidableEq

/-- A time that something waits for. Timers are numbered as they are set, and of those due
    at one time the one that was set first goes off first. -/
structure Timer where
  due : Nat
  serial : Nat
  deriving DecidableEq

structure Bank where
  store : Store := {}
  /-- Milliseconds since the bank opened. -/
  now : Nat := 0
  /-- How many timers have been set. -/
  timers : Nat := 0
  /-- The time that new rows carry. -/
  stamp : Instant := .epoch
  /-- The latest note first. -/
  notes : List Note := []

namespace Bank

def write (b : Bank) (n : Note) : Bank := { b with notes := n :: b.notes }

def report (b : Bank) (e : Event) : Bank := b.write (.event e)

/-- Sets a timer. -/
def setTimer (b : Bank) (due : Nat) : Timer × Bank :=
  (⟨due, b.timers⟩, { b with timers := b.timers + 1 })

/-- The actions asked for by one owner, in order. -/
def actionsOf (b : Bank) (owner : Nat) : List Action :=
  b.notes.reverse.filterMap fun
    | .action o a => if o = owner then some a else none
    | .event _ => none

/-- The events since there were `old` notes, in order. -/
def eventsSince (b : Bank) (old : Nat) : List Event :=
  (b.notes.take (b.notes.length - old)).reverse.filterMap fun
    | .event e => some e
    | .action .. => none

end Bank

/-- What is left of a program, with the timer of the sleep at its head, once that has
    begun. -/
structure Remainder (α : Type) where
  work : Work α
  wake : Option Timer := none

/-- Runs a program of an owner until it is over or waits. -/
def Work.poll {α : Type} (owner : Nat) :
    Work α → Option Timer → Bank → Poll (Outcome α) × Remainder α × Bank
  | done r, _, b => (.ready r, ⟨done r, none⟩, b)
  | report event next, _, b => next.poll owner none (b.report event)
  | trace action next, _, b => next.poll owner none (b.write (.action owner action))
  | sleep ms next, wake, b =>
    let (timer, b) := match wake with
      | some timer => (timer, b)
      | none => b.setTimer (b.now + ms)
    if timer.due ≤ b.now then next.poll owner none b else (.pending, ⟨sleep ms next, some timer⟩, b)
  | call c next, _, b =>
    match b.store.call owner c b.stamp with
    | (.pending, store) => (.pending, ⟨call c next, none⟩, { b with store })
    | (.ready r, store) => (next r).poll owner none { b with store }

/-- Runs what is left of a program until it is over or waits again. -/
def Remainder.poll {α : Type} (owner : Nat) (r : Remainder α) (b : Bank) :
    Poll (Outcome α) × Remainder α × Bank :=
  r.work.poll owner r.wake b

end Giro
