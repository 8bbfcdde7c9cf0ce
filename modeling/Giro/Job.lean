import Giro.Bank
import Giro.Runner
import Giro.Work.Hook

/-
  Giro.Job — a unit of work on its way through the bank, run by `Parts.poll`.

  Hooks may delay or fail its begin, its calls, its commit and its rollback; alarms are
  the stop signal. An end that fails, be it commit or rollback, drops the transaction, so
  whatever happens its locks are free once the run is finished.
-/

namespace Giro

/-- A stop signal that comes at a time and reports an event. Its timer is set when it is
    first looked at. -/
structure Alarm where
  due : Nat
  event : Option Event := none
  timer : Option Timer := none

/-- Sets the timers that are not set yet. -/
def Alarm.setAll : List Alarm → Bank → List Alarm × Bank
  | [], b => ([], b)
  | a :: alarms, b =>
    let (timer, b) := match a.timer with
      | some timer => (timer, b)
      | none => b.setTimer a.due
    let (alarms, b) := setAll alarms b
    ({ a with timer := some timer } :: alarms, b)

/-- A unit of work with what stands before its begin, its commit and its rollback. -/
structure Job (α : Type) where
  owner : Nat
  begin : Remainder Unit
  work : Remainder α
  commit : Remainder Unit
  rollback : Remainder Unit
  alarms : List Alarm
  stage : Stage α := .opening
  /-- What is reported once the run is finished. -/
  verdict : Outcome α → Option Event := fun _ => none

namespace Job

variable {α : Type}

/-- A job that has not begun and is due when `timer` goes off, with hooks in place. -/
def start (owner : Nat) (timer : Timer) (hooks : List Hook) (alarms : List Alarm) (work : Work α)
    (verdict : Outcome α → Option Event) : Job α where
  owner
  begin := ⟨Work.gate hooks .begin .begin, some timer⟩
  work := ⟨work.hooked hooks fun _ => 0, none⟩
  commit := ⟨Work.gate hooks .commit .commit, none⟩
  rollback := ⟨Work.gate hooks .rollback .rollback, none⟩
  alarms
  verdict

/-- Opens the transaction once its hooks are gone through. -/
def pollBegin (s : Job α × Bank) : Poll (Outcome Unit) × (Job α × Bank) :=
  let (j, b) := s
  match j.begin.poll j.owner b with
  | (.ready (.ok ()), rest, b) =>
    (.ready (.ok ()), { j with begin := rest }, { b with store := b.store.begin j.owner })
  | (r, rest, b) => (r, { j with begin := rest }, b)

def pollWork (s : Job α × Bank) : Poll (Outcome α) × (Job α × Bank) :=
  let (j, b) := s
  let (r, rest, b) := j.work.poll j.owner b
  (r, { j with work := rest }, b)

/-- Commits once the hooks are gone through; a hook's error drops the transaction. -/
def pollCommit (s : Job α × Bank) : Poll (Outcome Unit) × (Job α × Bank) :=
  let (j, b) := s
  match j.commit.poll j.owner b with
  | (.pending, rest, b) => (.pending, { j with commit := rest }, b)
  | (.ready (.error e), rest, b) =>
    (.ready (.error e), { j with commit := rest }, { b with store := b.store.forget j.owner })
  | (.ready (.ok ()), rest, b) =>
    let (r, store) := b.store.commit j.owner
    (.ready r, { j with commit := rest }, { b with store })

end Job

/-- Discards an owner's transaction and reports what it held. -/
def Bank.rollback (b : Bank) (owner : Nat) : Bank :=
  match b.store.tx? owner with
  | none => b
  | some x => { b.report (.rollingBack x.held.length x.entries.length) with store := b.store.forget owner }

namespace Job

variable {α : Type}

/-- Rolls back once the hooks are gone through; a hook's error drops the transaction. -/
def pollRollback (s : Job α × Bank) : Poll (Outcome Unit) × (Job α × Bank) :=
  let (j, b) := s
  match j.rollback.poll j.owner b with
  | (.pending, rest, b) => (.pending, { j with rollback := rest }, b)
  | (.ready (.error e), rest, b) =>
    (.ready (.error e), { j with rollback := rest }, { b with store := b.store.forget j.owner })
  | (.ready (.ok ()), rest, b) => (.ready (.ok ()), { j with rollback := rest }, b.rollback j.owner)

/-- Looks at the alarms. One that has come is reported, and the work, which is given up,
    leaves its place in line. -/
def pollStop (s : Job α × Bank) : Bool × (Job α × Bank) :=
  let (j, b) := s
  let (alarms, b) := Alarm.setAll j.alarms b
  let j := { j with alarms }
  match alarms.find? (·.due ≤ b.now) with
  | none => (false, j, b)
  | some alarm =>
    let b := match alarm.event with
      | some e => b.report e
      | none => b
    (true, j, { b with store := b.store.leaveLine j.owner })

def parts : Parts (Job α × Bank) α where
  begin := pollBegin
  work := pollWork
  commit := pollCommit
  rollback := pollRollback
  stop := pollStop
  rollbackFailed error other s := (s.1, s.2.report (.rollbackFailed error other))

/-- Lets a job run until it is finished or waits. -/
def poll (j : Job α) (b : Bank) : Job α × Bank :=
  match j.stage with
  | .finished _ => (j, b)
  | stage =>
    match parts.poll stage (j, b) with
    | (.finished result, j, b) =>
      let b := match j.verdict result with
        | some e => b.report e
        | none => b
      ({ j with stage := .finished result }, b)
    | (stage, j, b) => ({ j with stage }, b)

/-- The timers that let a waiting job go on or stop it. -/
def timers (j : Job α) : List Timer :=
  match j.stage with
  | .opening => j.begin.wake.toList ++ j.alarms.filterMap (·.timer)
  | .working => j.work.wake.toList ++ j.alarms.filterMap (·.timer)
  | .committing _ => j.commit.wake.toList
  | .rollingBack _ => j.rollback.wake.toList
  | .finished _ => []

/-- The number of the first of its timers that has gone off. -/
def gone (j : Job α) (now : Nat) : Option Nat :=
  ((j.timers.filter (·.due ≤ now)).map (·.serial)).min?

end Job

end Giro
