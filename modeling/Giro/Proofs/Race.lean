import Giro.Runner
import Mathlib.Logic.Function.Basic

/-
  Giro.Proofs.Race — what a run does with parts that take any number of looks, or for ever,
  and a stop signal that is there at any looks at all.

  A plan says when each part yields and what; a trial of it logs, in order, what is called,
  what yields and what the signal answers. Two races follow each other, each of a part
  against the signal, the part first (`Race`), and then a commit or a rollback runs alone.
  `Course` says what is logged when a run has come to a stage; `Course.poll` is the step and
  `course_run` the run.

  Main statements: `Course.finished_iff` (when a run is finished, and with what) and
  `run_stop_irrelevant` (a signal that comes after the work makes no difference).
-/

namespace Giro

variable {α β : Type}

/-- Something that is pending for a number of looks before it yields, or for ever. -/
inductive Delayed (α : Type) where
  | never
  | after (looks : Nat) (value : α)

namespace Delayed

/-- What a look after `k` others gives. -/
def look : Delayed α → Nat → Poll α
  | never, _ => .pending
  | after looks value, k => if k < looks then .pending else .ready value

theorem look_after (n : Nat) (value : α) (k : Nat) :
    (after n value).look k = if k < n then .pending else .ready value := rfl

/-- Pending for `k` looks and ready at the next. -/
theorem eq_after_iff {d : Delayed α} {k : Nat} {value : α} :
    d = after k value ↔ (∀ j < k, d.look j = .pending) ∧ d.look k = .ready value := by
  cases d with
  | never => simp [look]
  | after n v =>
    simp only [after.injEq, look_after, ite_eq_left_iff, reduceCtorEq, imp_false, not_not]
    constructor
    · rintro ⟨rfl, rfl⟩
      simp
    · rintro ⟨hpending, hready⟩
      have hle : n ≤ k := by
        by_contra hlt
        simp [show k < n by omega] at hready
      have hge : k ≤ n := by
        by_contra hlt
        have := hpending n (by omega)
        omega
      exact ⟨by omega, by simpa [show ¬ k < n by omega] using hready⟩

theorem le_of_pending {d : Delayed α} {k m : Nat} {value : α} (h : d = after k value)
    (hpending : ∀ j < m, d.look j = .pending) : m ≤ k := by
  by_contra hlt
  have hready := (eq_after_iff.1 h).2
  rw [hpending k (by omega)] at hready
  cases hready

end Delayed

/-- When each part of a run yields, and what, and at which polls the stop signal is there. -/
structure Plan (α : Type) where
  begin : Delayed (Outcome Unit)
  work : Delayed (Outcome α)
  commit : Delayed (Outcome Unit)
  rollback : Delayed (Outcome Unit)
  stop : Nat → Bool

inductive Part where
  | begin
  | work
  | commit
  | rollback
  deriving DecidableEq

inductive Happening (α : Type) where
  | called (part : Part)
  | begun (r : Outcome Unit)
  | worked (r : Outcome α)
  | committed (r : Outcome Unit)
  | rolledBack (r : Outcome Unit)
  /-- The signal was looked at. -/
  | signal (come : Bool)
  | reported (error other : LedgerError)

/-- A run of a plan on its way. -/
structure Trial (α : Type) where
  /-- The looks that each part under way has had; none for one that is not. -/
  looks : Part → Nat := fun _ => 0
  log : List (Happening α) := []

/-- A look at a part. One that is not under way is called; it is under way until it yields. -/
def Trial.look (t : Trial α) (part : Part) (d : Delayed β) (yields : β → Happening α) : Poll β × Trial α :=
  let log := t.log ++ if t.looks part = 0 then [.called part] else []
  match d.look (t.looks part) with
  | .pending => (.pending, ⟨Function.update t.looks part (t.looks part + 1), log⟩)
  | .ready v => (.ready v, ⟨Function.update t.looks part 0, log ++ [yields v]⟩)

def Happening.isCall (part : Part) : Happening α → Bool
  | called p => p == part
  | _ => false

/-- How often a part was called. -/
def calls (part : Part) (log : List (Happening α)) : Nat := log.countP (·.isCall part)

namespace Plan

/-- The parts of a plan's run, as the poll with number `n` finds them. -/
def parts (plan : Plan α) (n : Nat) : Parts (Trial α) α where
  begin t := t.look .begin plan.begin .begun
  work t := t.look .work plan.work .worked
  commit t := t.look .commit plan.commit .committed
  rollback t := t.look .rollback plan.rollback .rolledBack
  stop t := (plan.stop n, { t with log := t.log ++ [.signal (plan.stop n)] })
  rollbackFailed error other t := { t with log := t.log ++ [.reported error other] }

/-- The run of a plan after `n` polls. -/
def run (plan : Plan α) : Nat → Stage α × Trial α
  | 0 => (.opening, {})
  | n + 1 => (plan.parts n).poll (plan.run n).1 (plan.run n).2

end Plan

/-! ## One part against the signal -/

/-- From poll `start` on, `k` polls have found the part pending and no signal. -/
def Waits (d : Delayed β) (stop : Nat → Bool) (start k : Nat) : Prop :=
  ∀ j < k, d.look j = .pending ∧ stop (start + j) = false

/-- `k` polls after `start` it is decided: the part yields, or it is still pending and the
    signal is there. -/
inductive Race (d : Delayed β) (stop : Nat → Bool) (start : Nat) : Nat → Option β → Prop
  | yields {k : Nat} {v : β} : Waits d stop start k → d.look k = .ready v → Race d stop start k (some v)
  | stops {k : Nat} : Waits d stop start k → d.look k = .pending → stop (start + k) = true → Race d stop start k none

section Race

variable {d : Delayed β} {stop : Nat → Bool} {start k k' : Nat} {r r' : Option β}

theorem Waits.succ (h : Waits d stop start k) (hlook : d.look k = .pending) (hstop : stop (start + k) = false) :
    Waits d stop start (k + 1) :=
  Nat.forall_lt_succ_right.2 ⟨h, hlook, hstop⟩

theorem Race.waits (h : Race d stop start k r) : Waits d stop start k := by
  cases h <;> assumption

theorem Race.not_waits (h : Race d stop start k r) (hlt : k < k') : ¬ Waits d stop start k' := by
  intro hwaits
  obtain ⟨hpending, hquiet⟩ := hwaits k hlt
  cases h with
  | yields _ hready => simp [hpending] at hready
  | stops _ _ hstop => simp [hquiet] at hstop

/-- A race is decided once. -/
theorem Race.unique (h : Race d stop start k r) (h' : Race d stop start k' r') : k' = k ∧ r' = r := by
  have hge : ¬ k < k' := fun hlt => h.not_waits hlt h'.waits
  have hle : ¬ k' < k := fun hlt => h'.not_waits hlt h.waits
  obtain rfl : k' = k := by omega
  cases h <;> cases h' <;> simp_all

theorem race_some_iff {v : β} :
    Race d stop start k (some v) ↔ d = .after k v ∧ ∀ j < k, stop (start + j) = false := by
  rw [Delayed.eq_after_iff]
  constructor
  · rintro (⟨hwaits, hready⟩ | _)
    exact ⟨⟨fun j hj => (hwaits j hj).1, hready⟩, fun j hj => (hwaits j hj).2⟩
  · rintro ⟨⟨hpending, hready⟩, hquiet⟩
    exact .yields (fun j hj => ⟨hpending j hj, hquiet j hj⟩) hready

end Race

/-! ## The course of a run -/

namespace Happening

/-- The log of a part that was pending `k` times without a signal, if it was looked at. -/
def waiting (part : Part) (k : Nat) : List (Happening α) :=
  if k = 0 then [] else .called part :: List.replicate k (.signal false)

/-- The log of a part that was pending `k` times, and what decided it. -/
def raced (part : Part) (k : Nat) (last : Happening α) : List (Happening α) :=
  .called part :: (List.replicate k (.signal false) ++ [last])

/-- The log of a part that was looked at `k` times while nobody looked at the signal. -/
def alone (part : Part) (k : Nat) : List (Happening α) := if k = 0 then [] else [.called part]

theorem waiting_append_call (part : Part) (k : Nat) :
    waiting part k ++ (if k = 0 then [.called part] else []) =
      (.called part :: List.replicate k (.signal false) : List (Happening α)) := by
  cases k <;> simp [waiting]

theorem waiting_succ (part : Part) (k : Nat) :
    (waiting part (k + 1) : List (Happening α)) =
      .called part :: (List.replicate k (.signal false) ++ [.signal false]) := by
  rw [waiting, if_neg (Nat.succ_ne_zero k), List.replicate_succ']

theorem alone_append_call (part : Part) (k : Nat) :
    alone part k ++ (if k = 0 then [.called part] else []) = ([.called part] : List (Happening α)) := by
  cases k <;> simp [alone]

end Happening

open Happening

namespace Plan

variable {plan : Plan α} {n : Nat}

/-- The signal has the same say as a part that fails with `cancelled`. -/
def decision (r : Option (Outcome β)) : Outcome β := r.getD (.error .cancelled)

/-- The log of the opening: `none` for the signal. -/
def openingLog (k : Nat) (r : Option (Outcome Unit)) : List (Happening α) :=
  raced .begin k (r.elim (.signal true) .begun)

/-- The log of opening and work, begun after `b` polls. -/
def workLog (b k : Nat) (r : Option (Outcome α)) : List (Happening α) :=
  openingLog b (some (.ok ())) ++ raced .work k (r.elim (.signal true) .worked)

/-- The plan has begun after `b` polls, and its work is decided `k` polls later. -/
structure Decided (plan : Plan α) (b k : Nat) (r : Option (Outcome α)) : Prop where
  begun : Race plan.begin plan.stop 0 b (some (.ok ()))
  work : Race plan.work plan.stop b k r

/-- Where a run can be after `n` polls if at poll `start` its work was decided. -/
inductive Ending (plan : Plan α) (n start : Nat) (before : List (Happening α)) : Outcome α → Stage α × Trial α → Prop
  | committing {t : Trial α} {k : Nat} {v : α} : (∀ j < k, plan.commit.look j = .pending) → 0 < k → n = start + k →
      t.looks .commit = k → t.log = before ++ [.called .commit] → Ending plan n start before (.ok v) (.committing v, t)
  | committed {t : Trial α} {k : Nat} {v : α} {r : Outcome Unit} : plan.commit = .after k r → start + k < n →
      t.log = before ++ [.called .commit, .committed r] →
      Ending plan n start before (.ok v) (.finished (r.map fun _ => v), t)
  | rollingBack {t : Trial α} {k : Nat} {e : LedgerError} : (∀ j < k, plan.rollback.look j = .pending) → 0 < k →
      n = start + k → t.looks .rollback = k → t.log = before ++ [.called .rollback] →
      Ending plan n start before (.error e) (.rollingBack e, t)
  /-- A rollback that fails is reported, and that is all. -/
  | rolledBack {t : Trial α} {k : Nat} {e : LedgerError} {r : Outcome Unit} : plan.rollback = .after k r →
      start + k < n →
      t.log = before ++ .called .rollback :: .rolledBack r ::
        (match r with | .ok () => [] | .error other => [.reported e other]) →
      Ending plan n start before (.error e) (.finished (.error e), t)

/-- Where a run can be after `n` polls, and what it has logged. -/
inductive Course (plan : Plan α) (n : Nat) : Stage α × Trial α → Prop
  | opening {t : Trial α} : Waits plan.begin plan.stop 0 n → t.looks = Function.update (fun _ => 0) .begin n →
      t.log = waiting .begin n → Course plan n (.opening, t)
  | unopened {t : Trial α} {k : Nat} {r : Option (Outcome Unit)} {e : LedgerError} :
      Race plan.begin plan.stop 0 k r → decision r = .error e → k < n → t.log = openingLog k r →
      Course plan n (.finished (.error e), t)
  | working {t : Trial α} {b k : Nat} : Race plan.begin plan.stop 0 b (some (.ok ())) → Waits plan.work plan.stop b k →
      0 < k → n = b + k → t.looks = Function.update (fun _ => 0) .work k →
      t.log = openingLog b (some (.ok ())) ++ waiting .work k → Course plan n (.working, t)
  | ending {b w : Nat} {r : Option (Outcome α)} {s : Stage α × Trial α} : plan.Decided b w r → b + w < n →
      plan.Ending n (b + w) (workLog b w r) (decision r) s → Course plan n s

/-- The poll in which a run comes to its end, and its result. -/
inductive Ends (plan : Plan α) : Nat → Outcome α → Prop
  | unopened {k : Nat} {r : Option (Outcome Unit)} {e : LedgerError} : Race plan.begin plan.stop 0 k r →
      decision r = .error e → Ends plan k (.error e)
  | committed {b w k : Nat} {v : α} {r : Outcome Unit} : plan.Decided b w (some (.ok v)) →
      plan.commit = .after k r → Ends plan (b + w + k) (r.map fun _ => v)
  | rolledBack {b w k : Nat} {r : Option (Outcome α)} {e : LedgerError} {r' : Outcome Unit} :
      plan.Decided b w r → decision r = .error e → plan.rollback = .after k r' → Ends plan (b + w + k) (.error e)

end Plan

section Look

variable {t : Trial α} {part : Part} {d : Delayed β} {yields : β → Happening α} {k : Nat}

theorem Trial.look_pending (hk : t.looks part = k) (h : d.look k = .pending) :
    t.look part d yields = (.pending, ⟨Function.update t.looks part (k + 1),
      t.log ++ if k = 0 then [.called part] else []⟩) := by
  subst hk
  rw [look, h]

theorem Trial.look_ready {v : β} (hk : t.looks part = k) (h : d.look k = .ready v) :
    t.look part d yields = (.ready v, ⟨Function.update t.looks part 0,
      t.log ++ (if k = 0 then [.called part] else []) ++ [yields v]⟩) := by
  subst hk
  rw [look, h]

end Look

namespace Plan

variable {plan : Plan α} {n b w k start : Nat} {t : Trial α} {before : List (Happening α)}

theorem pollCommit_ending {v : α} (hpending : ∀ j < k, plan.commit.look j = .pending) (hn : n = start + k)
    (hlooks : t.looks .commit = k) (hlog : t.log = before ++ alone .commit k) :
    plan.Ending (n + 1) start before (.ok v) ((plan.parts n).pollCommit v t) := by
  have hcalled : t.log ++ (if k = 0 then [.called .commit] else []) = before ++ [.called .commit] := by
    rw [hlog, List.append_assoc, alone_append_call]
  cases hlook : plan.commit.look k with
  | pending =>
    simp only [Parts.pollCommit, parts, Trial.look_pending hlooks hlook, hcalled]
    exact .committing (Nat.forall_lt_succ_right.2 ⟨hpending, hlook⟩) k.succ_pos (by omega) (by simp) rfl
  | ready r =>
    have hcommit : plan.commit = .after k r := Delayed.eq_after_iff.2 ⟨hpending, hlook⟩
    simp only [Parts.pollCommit, parts, Trial.look_ready hlooks hlook, hcalled]
    cases r with
    | ok _ => exact .committed hcommit (by omega) (List.append_assoc ..)
    | error e => exact .committed hcommit (by omega) (List.append_assoc ..)

theorem pollRollback_ending {e : LedgerError} (hpending : ∀ j < k, plan.rollback.look j = .pending)
    (hn : n = start + k) (hlooks : t.looks .rollback = k) (hlog : t.log = before ++ alone .rollback k) :
    plan.Ending (n + 1) start before (.error e) ((plan.parts n).pollRollback e t) := by
  have hcalled : t.log ++ (if k = 0 then [.called .rollback] else []) = before ++ [.called .rollback] := by
    rw [hlog, List.append_assoc, alone_append_call]
  cases hlook : plan.rollback.look k with
  | pending =>
    simp only [Parts.pollRollback, parts, Trial.look_pending hlooks hlook, hcalled]
    exact .rollingBack (Nat.forall_lt_succ_right.2 ⟨hpending, hlook⟩) k.succ_pos (by omega) (by simp) rfl
  | ready r =>
    have hrollback : plan.rollback = .after k r := Delayed.eq_after_iff.2 ⟨hpending, hlook⟩
    simp only [Parts.pollRollback, parts, Trial.look_ready hlooks hlook, hcalled]
    cases r with
    | ok _ => exact .rolledBack hrollback (by omega) (List.append_assoc ..)
    | error other => exact .rolledBack hrollback (by omega) (by simp)

theorem Ending.poll {d : Outcome α} {s : Stage α × Trial α} (h : plan.Ending n start before d s) :
    plan.Ending (n + 1) start before d ((plan.parts n).poll s.1 s.2) := by
  cases h with
  | committing hpending hk hn hlooks hlog =>
    exact pollCommit_ending hpending hn hlooks (by rw [hlog, alone, if_neg (by omega)])
  | committed hcommit hk hlog => exact .committed hcommit (by omega) hlog
  | rollingBack hpending hk hn hlooks hlog =>
    exact pollRollback_ending hpending hn hlooks (by rw [hlog, alone, if_neg (by omega)])
  | rolledBack hrollback hk hlog => exact .rolledBack hrollback (by omega) hlog

/-- Work that is ready goes on to its end in the same look; otherwise the signal is asked. -/
theorem pollWork_course (hbegun : Race plan.begin plan.stop 0 b (some (.ok ())))
    (hwaits : Waits plan.work plan.stop b k) (hn : n = b + k) (hlooks : t.looks = Function.update (fun _ => 0) .work k)
    (hlog : t.log = openingLog b (some (.ok ())) ++ waiting .work k) :
    plan.Course (n + 1) ((plan.parts n).pollWork t) := by
  subst hn
  have hk : t.looks .work = k := by rw [hlooks, Function.update_self]
  have hcalled : t.log ++ (if k = 0 then [.called .work] else []) =
      openingLog b (some (.ok ())) ++ .called .work :: List.replicate k (.signal false) := by
    rw [hlog, List.append_assoc, waiting_append_call]
  cases hlook : plan.work.look k with
  | pending =>
    simp only [Parts.pollWork, parts, Trial.look_pending hk hlook, hcalled]
    cases hstop : plan.stop (b + k) with
    | true =>
      refine .ending ⟨hbegun, .stops hwaits hlook hstop⟩ (b + k).lt_succ_self ?_
      exact pollRollback_ending (k := 0) (by simp) rfl (by simp [hlooks]) (by simp [workLog, raced, alone])
    | false =>
      refine .working hbegun (hwaits.succ hlook hstop) k.succ_pos rfl ?_ ?_
      · simp [hlooks]
      · simp [waiting_succ]
  | ready r =>
    simp only [Parts.pollWork, parts, Trial.look_ready hk hlook, hcalled]
    cases r with
    | ok v =>
      refine .ending ⟨hbegun, .yields hwaits hlook⟩ (b + k).lt_succ_self ?_
      exact pollCommit_ending (k := 0) (by simp) rfl (by simp [hlooks]) (by simp [workLog, raced, alone])
    | error e =>
      refine .ending ⟨hbegun, .yields hwaits hlook⟩ (b + k).lt_succ_self ?_
      exact pollRollback_ending (k := 0) (by simp) rfl (by simp [hlooks]) (by simp [workLog, raced, alone])

theorem pollBegin_course (hwaits : Waits plan.begin plan.stop 0 n)
    (hlooks : t.looks = Function.update (fun _ => 0) .begin n) (hlog : t.log = waiting .begin n) :
    plan.Course (n + 1) ((plan.parts n).pollBegin t) := by
  have hn : t.looks .begin = n := by rw [hlooks, Function.update_self]
  have hcalled : t.log ++ (if n = 0 then [.called .begin] else []) =
      .called .begin :: List.replicate n (.signal false) := by
    rw [hlog, waiting_append_call]
  cases hlook : plan.begin.look n with
  | pending =>
    simp only [Parts.pollBegin, parts, Trial.look_pending hn hlook, hcalled]
    cases hstop : plan.stop n with
    | true =>
      refine .unopened (.stops hwaits hlook (by simpa using hstop)) rfl n.lt_succ_self ?_
      simp [openingLog, raced]
    | false =>
      refine .opening (hwaits.succ hlook (by simpa using hstop)) ?_ ?_
      · simp [hlooks]
      · simp [waiting_succ]
  | ready r =>
    have hrace : Race plan.begin plan.stop 0 n (some r) := .yields hwaits hlook
    simp only [Parts.pollBegin, parts, Trial.look_ready hn hlook, hcalled]
    cases r with
    | ok _ =>
      refine pollWork_course (k := 0) hrace (by simp [Waits]) rfl (by simp [hlooks]) ?_
      simp [openingLog, raced, waiting]
    | error e => exact .unopened hrace rfl n.lt_succ_self (by simp [openingLog, raced])

theorem Course.poll {r : Stage α × Trial α} (h : plan.Course n r) :
    plan.Course (n + 1) ((plan.parts n).poll r.1 r.2) := by
  cases h with
  | opening hwaits hlooks hlog => exact pollBegin_course hwaits hlooks hlog
  | unopened hrace he hk hlog => exact .unopened hrace he (by omega) hlog
  | working hbegun hwaits _ hn hlooks hlog => exact pollWork_course hbegun hwaits hn hlooks hlog
  | ending hdecided hlt h => exact .ending hdecided (by omega) h.poll

theorem course_run (plan : Plan α) (n : Nat) : plan.Course n (plan.run n) := by
  induction n with
  | zero => exact .opening (by simp [Waits]) (by simp) rfl
  | succ n ih => exact ih.poll

/-! ## Once for all -/

theorem decided_ok_iff {v : α} : plan.Decided b w (some (.ok v)) ↔
    plan.begin = .after b (.ok ()) ∧ plan.work = .after w (.ok v) ∧ ∀ k < b + w, plan.stop k = false := by
  constructor
  · rintro ⟨hbegun, hwork⟩
    obtain ⟨hbegin, hearly⟩ := race_some_iff.1 hbegun
    obtain ⟨hwork, hlate⟩ := race_some_iff.1 hwork
    refine ⟨hbegin, hwork, fun k hk => ?_⟩
    by_cases hkb : k < b
    · simpa using hearly k hkb
    · simpa [show b + (k - b) = k by omega] using hlate (k - b) (by omega)
  · rintro ⟨hbegin, hwork, hquiet⟩
    exact ⟨race_some_iff.2 ⟨hbegin, fun j hj => by simpa using hquiet j (by omega)⟩,
      race_some_iff.2 ⟨hwork, fun j hj => hquiet (b + j) (by omega)⟩⟩

theorem Decided.unique {b' w' : Nat} {r r' : Option (Outcome α)} (h : plan.Decided b w r)
    (h' : plan.Decided b' w' r') : b' = b ∧ w' = w ∧ r' = r := by
  obtain ⟨rfl, -⟩ := h.begun.unique h'.begun
  exact ⟨rfl, h.work.unique h'.work⟩

variable {s : Stage α × Trial α} {r : Option (Outcome α)}

/-- From the poll that decides the work on, a run is ending. -/
theorem Course.ending_of_decided (h : plan.Course n s) (hdecided : plan.Decided b w r) (hlt : b + w < n) :
    plan.Ending n (b + w) (workLog b w r) (decision r) s := by
  cases h with
  | opening hwaits => exact absurd hwaits (hdecided.begun.not_waits (by omega))
  | unopened hrace he =>
    obtain ⟨-, rfl⟩ := hrace.unique hdecided.begun
    cases he
  | working hbegun hwaits _ hn =>
    obtain ⟨rfl, -⟩ := hbegun.unique hdecided.begun
    exact absurd hwaits (hdecided.work.not_waits (by omega))
  | ending hdecided' _ hending =>
    obtain ⟨rfl, rfl, rfl⟩ := hdecided'.unique hdecided
    exact hending

theorem Course.unopened_of_race {r : Option (Outcome Unit)} {e : LedgerError} (h : plan.Course n s)
    (hrace : Race plan.begin plan.stop 0 k r) (he : decision r = .error e) (hlt : k < n) :
    s.1 = .finished (.error e) := by
  cases h with
  | opening hwaits => exact absurd hwaits (hrace.not_waits hlt)
  | unopened hrace' he' =>
    obtain ⟨-, rfl⟩ := hrace'.unique hrace
    rw [he] at he'
    cases he'
    rfl
  | working hbegun =>
    obtain ⟨-, rfl⟩ := hbegun.unique hrace
    cases he
  | ending hdecided =>
    obtain ⟨-, rfl⟩ := hdecided.begun.unique hrace
    cases he

theorem decision_eq_ok_iff {r : Option (Outcome β)} {v : β} : decision r = .ok v ↔ r = some (.ok v) := by
  cases r <;> simp [decision]

theorem decision_eq_error_iff {r : Option (Outcome β)} {e : LedgerError} :
    decision r = .error e ↔ r = some (.error e) ∨ r = none ∧ e = .cancelled := by
  cases r <;> simp [decision, eq_comm]

/-- An ending run waits for its commit or its rollback, and for nothing else. -/
theorem Ending.finished_iff {d x : Outcome α} (h : plan.Ending n start before d s) :
    s.1 = .finished x ↔
      (∃ v k r, d = .ok v ∧ plan.commit = .after k r ∧ start + k < n ∧ x = r.map fun _ => v) ∨
        ∃ e k r, d = .error e ∧ plan.rollback = .after k r ∧ start + k < n ∧ x = .error e := by
  cases h with
  | @committing t k v hpending _ hn =>
    refine iff_of_false (by simp) ?_
    rintro (⟨_, k', _, -, hcommit, hlt, -⟩ | ⟨_, _, _, ⟨⟩, -⟩)
    have := Delayed.le_of_pending hcommit hpending
    omega
  | @committed t k v r hcommit hlt =>
    constructor
    · rintro ⟨⟩
      exact .inl ⟨v, k, r, rfl, hcommit, hlt, rfl⟩
    · rintro (⟨_, _, _, ⟨⟩, hcommit', -, rfl⟩ | ⟨_, _, _, ⟨⟩, -⟩)
      cases hcommit.symm.trans hcommit'
      rfl
  | @rollingBack t k e hpending _ hn =>
    refine iff_of_false (by simp) ?_
    rintro (⟨_, _, _, ⟨⟩, -⟩ | ⟨_, k', _, -, hrollback, hlt, -⟩)
    have := Delayed.le_of_pending hrollback hpending
    omega
  | @rolledBack t k e r hrollback hlt =>
    constructor
    · rintro ⟨⟩
      exact .inr ⟨e, k, r, rfl, hrollback, hlt, rfl⟩
    · rintro (⟨_, _, _, ⟨⟩, -⟩ | ⟨_, _, _, ⟨⟩, -, -, rfl⟩)
      rfl

/-- A run is finished exactly from the poll after its end on. -/
theorem Course.finished_iff (h : plan.Course n s) {x : Outcome α} : s.1 = .finished x ↔ ∃ k < n, plan.Ends k x := by
  constructor
  · intro hx
    cases h with
    | opening | working => cases hx
    | unopened hrace he hk =>
      cases hx
      exact ⟨_, hk, .unopened hrace he⟩
    | ending hdecided _ hending =>
      rcases hending.finished_iff.1 hx with ⟨v, k, r, hok, hcommit, hlt, rfl⟩ | ⟨e, k, r, he, hrollback, hlt, rfl⟩
      · rw [decision_eq_ok_iff] at hok
        subst hok
        exact ⟨_, hlt, .committed hdecided hcommit⟩
      · exact ⟨_, hlt, .rolledBack hdecided he hrollback⟩
  · rintro ⟨k, hk, hends⟩
    cases hends with
    | unopened hrace he => exact h.unopened_of_race hrace he hk
    | committed hdecided hcommit =>
      exact (h.ending_of_decided hdecided (by omega)).finished_iff.2 (.inl ⟨_, _, _, rfl, hcommit, hk, rfl⟩)
    | rolledBack hdecided he hrollback =>
      exact (h.ending_of_decided hdecided (by omega)).finished_iff.2 (.inr ⟨_, _, _, he, hrollback, hk, rfl⟩)

/-! ## The signal after the work -/

/-- A run knows the signal only as far as it has gone. -/
theorem run_congr {stop : Nat → Bool} (h : ∀ k < n, stop k = plan.stop k) :
    Plan.run { plan with stop } n = plan.run n := by
  induction n with
  | zero => rfl
  | succ n ih =>
    have hparts : Plan.parts { plan with stop } n = plan.parts n := by
      simp only [parts, h n n.lt_succ_self]
    rw [run, run, hparts, ih fun k hk => h k (by omega)]

/-- An ending run is where its commit or its rollback is, and has logged what that has come to. -/
theorem Ending.unique {plan' : Plan α} {d : Outcome α} {s' : Stage α × Trial α} (h : plan.Ending n start before d s)
    (h' : plan'.Ending n start before d s') (hcommit : plan'.commit = plan.commit)
    (hrollback : plan'.rollback = plan.rollback) : s'.1 = s.1 ∧ s'.2.log = s.2.log := by
  cases h with
  | committing hpending _ hn _ hlog =>
    cases h' with
    | committing _ _ _ _ hlog' => exact ⟨rfl, hlog'.trans hlog.symm⟩
    | committed hcommit' hlt =>
      have := Delayed.le_of_pending (hcommit ▸ hcommit') hpending
      omega
  | committed hcommit₁ hlt hlog =>
    cases h' with
    | committing hpending _ hn =>
      have := Delayed.le_of_pending (hcommit.trans hcommit₁) hpending
      omega
    | committed hcommit₂ _ hlog' =>
      cases hcommit₁.symm.trans (hcommit ▸ hcommit₂)
      exact ⟨rfl, hlog'.trans hlog.symm⟩
  | rollingBack hpending _ hn _ hlog =>
    cases h' with
    | rollingBack _ _ _ _ hlog' => exact ⟨rfl, hlog'.trans hlog.symm⟩
    | rolledBack hrollback' hlt =>
      have := Delayed.le_of_pending (hrollback ▸ hrollback') hpending
      omega
  | rolledBack hrollback₁ hlt hlog =>
    cases h' with
    | rollingBack hpending _ hn =>
      have := Delayed.le_of_pending (hrollback.trans hrollback₁) hpending
      omega
    | rolledBack hrollback₂ _ hlog' =>
      cases hrollback₁.symm.trans (hrollback ▸ hrollback₂)
      exact ⟨rfl, hlog'.trans hlog.symm⟩

/-- Once the work has come to a good end, it makes no difference when the signal comes. -/
theorem run_stop_irrelevant {stop : Nat → Bool} {v : α} (hbegin : plan.begin = .after b (.ok ()))
    (hwork : plan.work = .after w (.ok v)) (hquiet : ∀ k < b + w, plan.stop k = false)
    (hquiet' : ∀ k < b + w, stop k = false) :
    (Plan.run { plan with stop } n).1 = (plan.run n).1 ∧
      (Plan.run { plan with stop } n).2.log = (plan.run n).2.log := by
  by_cases hlt : b + w < n
  · have h := (plan.course_run n).ending_of_decided (decided_ok_iff.2 ⟨hbegin, hwork, hquiet⟩) hlt
    have h' := (Plan.course_run { plan with stop } n).ending_of_decided
      (decided_ok_iff.2 ⟨hbegin, hwork, hquiet'⟩) hlt
    exact h.unique h' rfl rfl
  · rw [run_congr fun k hk => by rw [hquiet k (by omega), hquiet' k (by omega)]]
    exact ⟨rfl, rfl⟩

end Plan

end Giro
