import Giro.Proofs.Race

/-
  Giro.Proofs.Protocol — which parts a run calls, when it looks at the stop signal, and what
  comes of it.

  The facts about a log are read off the run's course (`course_run`), stage by stage.
  Main statement: `protocol`, for every plan and after any number of polls.
-/

namespace Giro

open Happening

namespace Plan

variable {α : Type} {plan : Plan α} {n b w k start : Nat} {before : List (Happening α)} {s : Stage α × Trial α}

/-! ## What every course keeps to -/

section Log

variable {k : Nat} {r : Option (Outcome Unit)} {x : Happening α}

theorem mem_waiting {part : Part} : x ∈ waiting part k ↔ k ≠ 0 ∧ (x = .called part ∨ x = .signal false) := by
  cases k <;> simp [waiting]

theorem mem_openingLog : x ∈ openingLog k r ↔
    x = .called .begin ∨ (k ≠ 0 ∧ x = .signal false) ∨ (r = none ∧ x = .signal true) ∨
      ∃ y, r = some y ∧ x = .begun y := by
  cases r <;> simp [openingLog, raced]

theorem mem_workLog {r : Option (Outcome α)} : x ∈ workLog b k r ↔
    x ∈ openingLog b (some (.ok ())) ∨ x = .called .work ∨ (k ≠ 0 ∧ x = .signal false) ∨
      (r = none ∧ x = .signal true) ∨ ∃ y, r = some y ∧ x = .worked y := by
  cases r <;> simp [workLog, raced]

end Log

/-- Work is called when the transaction has begun, and not before. -/
theorem Course.begun_of_called (h : plan.Course n s) (hcalled : .called .work ∈ s.2.log) :
    ∃ l₁ l₂, s.2.log = l₁ ++ .begun (.ok ()) :: l₂ ∧ .called .work ∉ l₁ := by
  have hopened (b : Nat) (rest : List (Happening α)) :
      ∃ l₁ l₂, openingLog b (some (.ok ())) ++ rest = l₁ ++ .begun (.ok ()) :: l₂ ∧ .called .work ∉ l₁ :=
    ⟨.called .begin :: List.replicate b (.signal false), rest, by simp [openingLog, raced], by simp⟩
  cases h with
  | opening _ _ hlog => simp [hlog, mem_waiting] at hcalled
  | @unopened t k r e hrace he hk hlog =>
    cases r <;> simp [hlog, mem_openingLog] at hcalled
  | working _ _ _ _ _ hlog => rw [hlog]; exact hopened ..
  | @ending b w r s _ _ hending =>
    generalize decision r = d at hending
    cases hending <;> rename_i hlog <;> rw [hlog, workLog, List.append_assoc] <;> exact hopened ..

theorem Course.ok_iff (h : plan.Course n s) (v : α) :
    s.1 = .finished (.ok v) ↔ .worked (.ok v) ∈ s.2.log ∧ .committed (.ok ()) ∈ s.2.log := by
  cases h with
  | opening _ _ hlog => simp [hlog, mem_waiting]
  | @unopened t k r e hrace he hk hlog => cases r <;> simp [hlog, mem_openingLog]
  | working _ _ _ _ _ hlog => simp [hlog, mem_openingLog, mem_waiting]
  | @ending b w r s _ _ hending =>
    generalize hd : decision r = d at hending
    cases hending with
    | committing _ _ _ _ hlog => simp [hlog, mem_workLog, mem_openingLog]
    | @committed t k v' r' _ _ hlog =>
      obtain rfl := decision_eq_ok_iff.1 hd
      cases r' <;> simp [hlog, mem_workLog, mem_openingLog, Except.map, eq_comm]
    | rollingBack _ _ _ _ hlog => simp [hlog, mem_workLog, mem_openingLog]
    | @rolledBack t k e r' _ _ hlog =>
      rcases decision_eq_error_iff.1 hd with rfl | ⟨rfl, rfl⟩ <;> cases r' <;>
        simp [hlog, mem_workLog, mem_openingLog]

/-- The errors of a run, and where each comes from: none from the rollback. -/
theorem Course.error_iff (h : plan.Course n s) (e : LedgerError) :
    s.1 = .finished (.error e) ↔
      .begun (.error e) ∈ s.2.log ∨ .committed (.error e) ∈ s.2.log ∨
      (.begun (.ok ()) ∉ s.2.log ∧ .signal true ∈ s.2.log ∧ e = .cancelled) ∨
      ((∃ r, .rolledBack r ∈ s.2.log) ∧ (.worked (.error e) ∈ s.2.log ∨ .signal true ∈ s.2.log ∧ e = .cancelled)) := by
  cases h with
  | opening _ _ hlog => simp [hlog, mem_waiting]
  | @unopened t k r e' hrace he hk hlog =>
    rcases decision_eq_error_iff.1 he with rfl | ⟨rfl, rfl⟩ <;> simp [hlog, mem_openingLog, eq_comm]
  | working _ _ _ _ _ hlog => simp [hlog, mem_openingLog, mem_waiting]
  | @ending b w r s _ _ hending =>
    generalize hd : decision r = d at hending
    cases hending with
    | committing _ _ _ _ hlog => simp [hlog, mem_workLog, mem_openingLog]
    | @committed t k v' r' _ _ hlog =>
      cases r' <;> simp [hlog, mem_workLog, mem_openingLog, Except.map, eq_comm]
    | rollingBack _ _ _ _ hlog => simp [hlog, mem_workLog, mem_openingLog]
    | @rolledBack t k e' r' _ _ hlog =>
      rcases decision_eq_error_iff.1 hd with rfl | ⟨rfl, rfl⟩ <;> cases r' <;>
        simp [hlog, mem_workLog, mem_openingLog, eq_comm]

section Calls

variable {part : Part} {l l' : List (Happening α)}

@[simp] theorem calls_nil : calls part ([] : List (Happening α)) = 0 := rfl

@[simp] theorem calls_append : calls part (l ++ l') = calls part l + calls part l' := List.countP_append

@[simp] theorem calls_cons (x : Happening α) : calls part (x :: l) = calls part l + if x.isCall part then 1 else 0 :=
  List.countP_cons

@[simp] theorem calls_replicate_signal (k : Nat) (come : Bool) :
    calls part (List.replicate k (.signal come) : List (Happening α)) = 0 := by
  simp [calls, List.countP_replicate, isCall]

theorem calls_openingLog (k : Nat) (r : Option (Outcome Unit)) :
    calls part (openingLog k r : List (Happening α)) = if part = .begin then 1 else 0 := by
  cases part <;> cases r <;> simp [openingLog, raced, isCall]

theorem calls_workLog (b k : Nat) (r : Option (Outcome α)) :
    calls part (workLog b k r) = if part = .begin ∨ part = .work then 1 else 0 := by
  rw [workLog, calls_append, calls_openingLog]
  cases part <;> cases r <;> simp [raced, isCall]

theorem calls_waiting (part' : Part) (k : Nat) :
    calls part (waiting part' k : List (Happening α)) = if k ≠ 0 ∧ part' = part then 1 else 0 := by
  cases k <;> simp [waiting, isCall]

end Calls

/-- From the poll that decides the work on, one of commit and rollback has been called, once. -/
theorem Ending.calls_one {d : Outcome α} (h : plan.Ending n start before d s) :
    calls .commit s.2.log + calls .rollback s.2.log = calls .commit before + calls .rollback before + 1 := by
  cases h with
  | committing _ _ _ _ hlog => simp [hlog, isCall]; omega
  | committed _ _ hlog => simp [hlog, isCall]; omega
  | rollingBack _ _ _ _ hlog => simp [hlog, isCall]; omega
  | @rolledBack t k e r _ _ hlog => cases r <;> simp [hlog, isCall] <;> omega

theorem Ending.calls_of_ne {d : Outcome α} (h : plan.Ending n start before d s) {part : Part}
    (hcommit : part ≠ .commit) (hrollback : part ≠ .rollback) : calls part s.2.log = calls part before := by
  have hc : (Part.commit == part) = false := beq_eq_false_iff_ne.2 hcommit.symm
  have hr : (Part.rollback == part) = false := beq_eq_false_iff_ne.2 hrollback.symm
  cases h with
  | committing _ _ _ _ hlog => simp [hlog, isCall, hc]
  | committed _ _ hlog => simp [hlog, isCall, hc]
  | rollingBack _ _ _ _ hlog => simp [hlog, isCall, hr]
  | @rolledBack t k e r _ _ hlog => cases r <;> simp [hlog, isCall, hr]

/-- No part is called twice. -/
theorem Course.calls_le_one (h : plan.Course n s) (part : Part) : calls part s.2.log ≤ 1 := by
  cases h with
  | opening _ _ hlog =>
    rw [hlog, calls_waiting]
    split <;> omega
  | unopened _ _ _ hlog =>
    rw [hlog, calls_openingLog]
    split <;> omega
  | working _ _ _ _ _ hlog =>
    rw [hlog, calls_append, calls_openingLog, calls_waiting]
    cases part <;> simp
    all_goals split <;> omega
  | ending _ _ hending =>
    have hsum := hending.calls_one
    rw [calls_workLog, calls_workLog] at hsum
    by_cases hpart : part = .commit ∨ part = .rollback
    · rcases hpart with rfl | rfl <;> simp at hsum <;> omega
    · rw [not_or] at hpart
      rw [hending.calls_of_ne hpart.1 hpart.2, calls_workLog]
      split <;> omega

/-- A finished run that has begun has called one of commit and rollback, once. -/
theorem Course.calls_of_begun (h : plan.Course n s) {x : Outcome α} (hx : s.1 = .finished x)
    (hbegun : .begun (.ok ()) ∈ s.2.log) : calls .commit s.2.log + calls .rollback s.2.log = 1 := by
  cases h with
  | opening | working => cases hx
  | @unopened t k r e _ he _ hlog =>
    rcases decision_eq_error_iff.1 he with rfl | ⟨rfl, rfl⟩ <;> simp [hlog, mem_openingLog] at hbegun
  | ending _ _ hending => simp [hending.calls_one, calls_workLog]

theorem Course.calls_of_not_begun (h : plan.Course n s) (hbegun : .begun (.ok ()) ∉ s.2.log) :
    calls .commit s.2.log = 0 ∧ calls .rollback s.2.log = 0 := by
  cases h with
  | opening _ _ hlog => simp [hlog, calls_waiting]
  | unopened _ _ _ hlog => simp [hlog, calls_openingLog]
  | working _ _ _ _ _ hlog => simp [hlog, mem_openingLog] at hbegun
  | @ending b w r s _ _ hending =>
    generalize decision r = d at hending
    cases hending <;> rename_i hlog <;> simp [hlog, mem_workLog, mem_openingLog] at hbegun

/-- Commit is called in the poll in which the work comes to a good end. -/
theorem Course.calls_commit_iff (h : plan.Course n s) :
    calls .commit s.2.log = 1 ↔ ∃ b w v, plan.Decided b w (some (.ok v)) ∧ b + w < n := by
  constructor
  · intro hcalls
    cases h with
    | opening _ _ hlog => simp [hlog, calls_waiting] at hcalls
    | unopened _ _ _ hlog => simp [hlog, calls_openingLog] at hcalls
    | working _ _ _ _ _ hlog => simp [hlog, calls_openingLog, calls_waiting] at hcalls
    | @ending b w r s hdecided hlt hending =>
      cases hd : decision r with
      | ok v =>
        obtain rfl := decision_eq_ok_iff.1 hd
        exact ⟨b, w, v, hdecided, hlt⟩
      | error e =>
        rw [hd] at hending
        cases hending with
        | rollingBack _ _ _ _ hlog => simp [hlog, calls_workLog, isCall] at hcalls
        | @rolledBack t k e r' _ _ hlog => cases r' <;> simp [hlog, calls_workLog, isCall] at hcalls
  · rintro ⟨b, w, v, hdecided, hlt⟩
    have hending := h.ending_of_decided hdecided hlt
    rw [show decision (some (.ok v)) = .ok v from rfl] at hending
    cases hending with
    | committing _ _ _ _ hlog => simp [hlog, calls_workLog, isCall]
    | committed _ _ hlog => simp [hlog, calls_workLog, isCall]

/-- Nobody looks at the signal after it has come or the work has come to its end. -/
def SignalsEnd (log : List (Happening α)) : Prop :=
  log.Pairwise fun x y => (x = .signal true ∨ ∃ r, x = .worked r) → ∀ come, y ≠ .signal come

theorem Course.signalsEnd (h : plan.Course n s) : SignalsEnd s.2.log := by
  cases h with
  | opening _ _ hlog =>
    cases n <;> simp [SignalsEnd, hlog, waiting]
  | @unopened t k r e _ he _ hlog =>
    cases r <;> simp [SignalsEnd, hlog, openingLog, raced, List.pairwise_append]
  | @working t b k _ _ _ _ _ hlog =>
    cases k <;> simp [SignalsEnd, hlog, openingLog, raced, waiting, List.pairwise_append]
  | @ending b w r s _ _ hending =>
    generalize decision r = d at hending
    have hwork : SignalsEnd (workLog b w r) := by
      cases r <;> simp [SignalsEnd, workLog, openingLog, raced, List.pairwise_append]
    cases hending with
    | committing _ _ _ _ hlog => simpa [SignalsEnd, hlog, List.pairwise_append] using hwork
    | committed _ _ hlog => simpa [SignalsEnd, hlog, List.pairwise_append] using hwork
    | rollingBack _ _ _ _ hlog => simpa [SignalsEnd, hlog, List.pairwise_append] using hwork
    | @rolledBack t k e r _ _ hlog => cases r <;> simpa [SignalsEnd, hlog, List.pairwise_append] using hwork

/-! ## The protocol -/

/-- After any number of polls of a run of any plan:
    (1) work was called only when the transaction had begun, no part was called twice, and
    one of commit and rollback was called if the run has begun and is finished, and neither
    if it has not begun;
    (2) commit was called just if begin and work came to a good end and the signal was there
    at none of the polls that found them pending, and from then on the signal makes no
    difference;
    (3) the signal was not looked at again when it had come or the work was done;
    (4) the result is the work's value if the work and the commit are good, and otherwise the
    error of what failed, where the rollback has no say; and it is there after the poll in
    which the last part yields. -/
theorem protocol (plan : Plan α) (n : Nat) :
    let stage := (plan.run n).1
    let log := (plan.run n).2.log
    ((.called .work ∈ log → ∃ l₁ l₂, log = l₁ ++ .begun (.ok ()) :: l₂ ∧ .called .work ∉ l₁) ∧
      (∀ part, calls part log ≤ 1) ∧
      (∀ x, stage = .finished x → .begun (.ok ()) ∈ log → calls .commit log + calls .rollback log = 1) ∧
      (.begun (.ok ()) ∉ log → calls .commit log = 0 ∧ calls .rollback log = 0)) ∧
    ((calls .commit log = 1 ↔ ∃ b w v, plan.begin = .after b (.ok ()) ∧ plan.work = .after w (.ok v) ∧
        (∀ k < b + w, plan.stop k = false) ∧ b + w < n) ∧
      ∀ b w v, plan.begin = .after b (.ok ()) → plan.work = .after w (.ok v) → (∀ k < b + w, plan.stop k = false) →
        ∀ stop, (∀ k < b + w, stop k = false) →
          (Plan.run { plan with stop } n).1 = stage ∧ (Plan.run { plan with stop } n).2.log = log) ∧
    log.Pairwise (fun x y => (x = .signal true ∨ ∃ r, x = .worked r) → ∀ come, y ≠ .signal come) ∧
    (∀ v, stage = .finished (.ok v) ↔ .worked (.ok v) ∈ log ∧ .committed (.ok ()) ∈ log) ∧
    (∀ e, stage = .finished (.error e) ↔
      .begun (.error e) ∈ log ∨ .committed (.error e) ∈ log ∨
      (.begun (.ok ()) ∉ log ∧ .signal true ∈ log ∧ e = .cancelled) ∨
      ((∃ r, .rolledBack r ∈ log) ∧ (.worked (.error e) ∈ log ∨ .signal true ∈ log ∧ e = .cancelled))) ∧
    ∀ x, stage = .finished x ↔ ∃ k < n, plan.Ends k x := by
  intro stage log
  have h := plan.course_run n
  refine ⟨⟨h.begun_of_called, h.calls_le_one, fun x => h.calls_of_begun, h.calls_of_not_begun⟩, ⟨?_, ?_⟩,
    h.signalsEnd, h.ok_iff, h.error_iff, fun x => h.finished_iff⟩
  · rw [h.calls_commit_iff]
    simp only [decided_ok_iff, and_assoc]
  · intro b w v hbegin hwork hquiet stop hquiet'
    exact run_stop_irrelevant hbegin hwork hquiet hquiet'

/-- A signal that is there when the work gets ready comes too late. -/
example : (Plan.run
    { begin := .after 1 (.ok ())
      work := .after 2 (.ok 7)
      commit := .after 1 (.ok ())
      rollback := .never
      stop := fun poll => decide (3 ≤ poll) } 5).1 = .finished (.ok 7) := rfl

end Plan

end Giro
