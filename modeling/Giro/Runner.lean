import Giro.Error
import Giro.Poll

/-
  Giro.Runner — runs a unit of work between `begin` and `commit` or `rollback`, unless a
  stop signal comes first.

  All four parts and the signal take time: they are looked at again and again until they
  are ready. Work that is ready goes before a signal that is ready; the signal is looked
  at only while beginning or working waits, so a commit is never interrupted. A failed
  rollback is reported and never takes the place of the error that led to it.
-/

namespace Giro

/-- How far a run has come. -/
inductive Stage (α : Type) where
  | opening
  | working
  | committing (value : α)
  | rollingBack (error : LedgerError)
  | finished (result : Outcome α)

/-- The parts of a run over a state `σ`, each as one look at it. -/
structure Parts (σ α : Type) where
  begin : σ → Poll (Outcome Unit) × σ
  work : σ → Poll (Outcome α) × σ
  commit : σ → Poll (Outcome Unit) × σ
  rollback : σ → Poll (Outcome Unit) × σ
  /-- The stop signal has come. -/
  stop : σ → Bool × σ
  /-- Reports that the rollback after an error failed with another one. -/
  rollbackFailed : LedgerError → LedgerError → σ → σ

namespace Parts

variable {σ α : Type}

def pollRollback (p : Parts σ α) (error : LedgerError) (s : σ) : Stage α × σ :=
  match p.rollback s with
  | (.pending, s) => (.rollingBack error, s)
  | (.ready (.ok ()), s) => (.finished (.error error), s)
  | (.ready (.error other), s) => (.finished (.error error), p.rollbackFailed error other s)

def pollCommit (p : Parts σ α) (value : α) (s : σ) : Stage α × σ :=
  match p.commit s with
  | (.pending, s) => (.committing value, s)
  | (.ready (.ok ()), s) => (.finished (.ok value), s)
  | (.ready (.error e), s) => (.finished (.error e), s)

def pollWork (p : Parts σ α) (s : σ) : Stage α × σ :=
  match p.work s with
  | (.ready (.ok value), s) => p.pollCommit value s
  | (.ready (.error e), s) => p.pollRollback e s
  | (.pending, s) =>
    match p.stop s with
    | (true, s) => p.pollRollback .cancelled s
    | (false, s) => (.working, s)

def pollBegin (p : Parts σ α) (s : σ) : Stage α × σ :=
  match p.begin s with
  | (.ready (.ok ()), s) => p.pollWork s
  | (.ready (.error e), s) => (.finished (.error e), s)
  | (.pending, s) =>
    match p.stop s with
    | (true, s) => (.finished (.error .cancelled), s)
    | (false, s) => (.opening, s)

/-- One look at a run: it goes as far as it can without waiting. -/
def poll (p : Parts σ α) : Stage α → σ → Stage α × σ
  | .opening, s => p.pollBegin s
  | .working, s => p.pollWork s
  | .committing value, s => p.pollCommit value s
  | .rollingBack error, s => p.pollRollback error s
  | .finished result, s => (.finished result, s)

end Parts

end Giro
