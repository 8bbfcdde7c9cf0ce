import Giro.Work

/-
  Giro.Work.Hook — delays and failures in front of chosen actions, as a way to drive a
  unit of work into every corner.

  A hook names the n-th action of a kind. When that action comes, the hook first waits and
  then, if it carries an error, answers with it in place of the store; `Work.hooked` puts
  the hooks into a program and every action on record.
-/

namespace Giro

/-- A delay, a failure or both in front of the `nth` action of a kind, counted from 1. -/
structure Hook where
  kind : ActionKind
  nth : Nat
  delay : Option Nat := none
  error : Option LedgerError := none
  deriving DecidableEq

/-- The hooks of one action, in the order they are listed. -/
def Hook.before (hooks : List Hook) (kind : ActionKind) (nth : Nat) : List Hook :=
  hooks.filter fun h => h.kind == kind && h.nth == nth

namespace Work

/-- Goes through hooks and on to `go`, or to `stop` at the first error. -/
def past {α : Type} (go : Work α) (stop : LedgerError → Work α) : List Hook → Work α
  | [] => go
  | h :: hooks =>
    let rest := match h.error with
      | some e => stop e
      | none => past go stop hooks
    match h.delay with
    | some ms => sleep ms rest
    | none => rest

/-- What stands before the only action of a kind: it is put on record and its hooks are
    gone through. -/
def gate (hooks : List Hook) (action : Action) (kind : ActionKind) : Work Unit :=
  trace action (past (pure ()) fail (Hook.before hooks kind 1))

/-- Puts every call of a program on record, with its hooks in front. `seen` counts the
    calls of each kind so far. -/
def hooked {α : Type} (hooks : List Hook) : (ActionKind → Nat) → Work α → Work α
  | _, done r => done r
  | seen, call c next =>
    let seen := fun kind => if kind = c.kind then seen kind + 1 else seen kind
    trace (.call c) (past (call c fun r => (next r).hooked hooks seen)
      (fun e => (next (.error e)).hooked hooks seen) (Hook.before hooks c.kind (seen c.kind)))
  | seen, report event next => report event (next.hooked hooks seen)
  | seen, trace action next => trace action (next.hooked hooks seen)
  | seen, sleep ms next => sleep ms (next.hooked hooks seen)

end Work

end Giro
