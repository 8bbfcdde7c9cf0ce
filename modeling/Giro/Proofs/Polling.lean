import Giro.Job
import Giro.Proofs.Leads
import Giro.Proofs.Operation

/-
  Giro.Proofs.Polling — what one look at a program, at a gate or at the alarms can do.

  A look at a program runs it step by step over the store (`Work.Runs`, `Work.poll_runs`);
  what else stands in the bank, the clock and the notes, decides only how far it gets. A
  gate asks the store nothing and ends as its hooks say (`Work.Ends`, `Work.gate_ends`).
-/

namespace Giro

/-- The error that hooks put in the place of the `nth` action of a kind. -/
def Hook.fault (hooks : List Hook) (kind : ActionKind) (nth : Nat) : Option LedgerError :=
  (Hook.before hooks kind nth).findSome? Hook.error

namespace Work

variable {α : Type} {o : Nat}

/-! ## Programs -/

/-- The calls that the store answers during a look at a program, with the answers. -/
def answers (o : Nat) : Work α → Option Timer → Bank → Transcript
  | done _, _, _ => []
  | report event next, _, b => next.answers o none (b.report event)
  | trace action next, _, b => next.answers o none (b.write (.action o action))
  | sleep ms next, wake, b =>
    let (timer, b) := match wake with
      | some timer => (timer, b)
      | none => b.setTimer (b.now + ms)
    if timer.due ≤ b.now then next.answers o none b else []
  | call c next, _, b =>
    match b.store.call o c b.stamp with
    | (.pending, _) => []
    | (.ready r, store) => ⟨c, r⟩ :: (next r).answers o none { b with store }

/-- Steps of an owner's program over the store, as many as it may be, with the calls that
    are answered. A call that is not answered is the last one. -/
inductive Runs (o : Nat) : Work α → Store → Transcript → Work α → Store → Prop
  | refl {p : Work α} {s : Store} : Runs o p s [] p s
  | report {event : Event} {next q : Work α} {s s' : Store} {l : Transcript} :
      Runs o next s l q s' → Runs o (report event next) s l q s'
  | trace {action : Action} {next q : Work α} {s s' : Store} {l : Transcript} :
      Runs o next s l q s' → Runs o (trace action next) s l q s'
  | sleep {ms : Nat} {next q : Work α} {s s' : Store} {l : Transcript} :
      Runs o next s l q s' → Runs o (sleep ms next) s l q s'
  | asks {c : Call} {next : Outcome c.Reply → Work α} {q : Work α} {s s₁ s' : Store} {l : Transcript}
      {r : Outcome c.Reply} (now : Instant) : s.call o c now = (.ready r, s₁) → Runs o (next r) s₁ l q s' →
      Runs o (call c next) s (⟨c, r⟩ :: l) q s'
  | waits {c : Call} {next : Outcome c.Reply → Work α} {s s' : Store} (now : Instant) :
      s.call o c now = (.pending, s') → Runs o (call c next) s [] (call c next) s'

theorem Runs.leads {p q : Work α} {s s' : Store} {l : Transcript} (h : Runs o p s l q s') : p.Leads l q := by
  induction h with
  | refl => exact .nil
  | report _ ih => exact .report ih
  | trace _ ih => exact .trace ih
  | sleep _ ih => exact .sleep ih
  | asks _ _ _ ih => exact .call _ ih
  | waits => exact .nil

/-- A look at a program takes steps of it, and gives its result just when it is over. -/
theorem poll_runs (o : Nat) (p : Work α) (wake : Option Timer) (b : Bank) :
    Runs o p b.store (p.answers o wake b) (p.poll o wake b).2.1.work (p.poll o wake b).2.2.store ∧
      (p.poll o wake b).2.2.now = b.now ∧
      ∀ r, (p.poll o wake b).1 = .ready r ↔ (p.poll o wake b).2.1.work = done r := by
  induction p generalizing wake b with
  | done r => exact ⟨.refl, rfl, fun r' => by simp [poll]⟩
  | report event next ih =>
    obtain ⟨hruns, hrest⟩ := ih none (b.report event)
    exact ⟨.report hruns, hrest⟩
  | trace action next ih =>
    obtain ⟨hruns, hrest⟩ := ih none (b.write (.action o action))
    exact ⟨.trace hruns, hrest⟩
  | sleep ms next ih =>
    have hgo : ∀ (timer : Timer) (b' : Bank), b'.store = b.store → b'.now = b.now →
        let out := if timer.due ≤ b'.now then next.poll o none b' else (.pending, ⟨sleep ms next, some timer⟩, b')
        let l := if timer.due ≤ b'.now then next.answers o none b' else []
        Runs o (sleep ms next) b.store l out.2.1.work out.2.2.store ∧ out.2.2.now = b.now ∧
          ∀ r, out.1 = .ready r ↔ out.2.1.work = done r := by
      intro timer b' hstore hnow
      by_cases hdue : timer.due ≤ b'.now
      · obtain ⟨hruns, hnow', hready⟩ := ih none b'
        simp only [if_pos hdue]
        exact ⟨.sleep (hstore ▸ hruns), hnow'.trans hnow, hready⟩
      · simp only [if_neg hdue]
        exact ⟨hstore ▸ .refl, hnow, fun r => by simp⟩
    cases wake with
    | some timer => exact hgo timer b rfl rfl
    | none => exact hgo _ _ rfl rfl
  | call c next ih =>
    unfold poll answers
    rcases hc : b.store.call o c b.stamp with ⟨r | r, s'⟩
    · exact ⟨.waits b.stamp hc, rfl, fun r => by simp⟩
    · obtain ⟨hruns, hrest⟩ := ih r none { b with store := s' }
      exact ⟨.asks b.stamp hc hruns, hrest⟩

/-! ## Gates -/

/-- The program asks nothing, and ends with this error or with none. -/
def Ends (fault : Option LedgerError) : Work Unit → Prop
  | done (.ok ()) => fault = none
  | done (.error e) => fault = some e
  | call .. => False
  | report _ next => Ends fault next
  | trace _ next => Ends fault next
  | sleep _ next => Ends fault next

/-- A hook's delay comes first, then its error. -/
theorem past_cons (go : Work α) (stop : LedgerError → Work α) (h : Hook) (hooks : List Hook) :
    past go stop (h :: hooks) =
      h.delay.elim (h.error.elim (past go stop hooks) stop) (sleep · (h.error.elim (past go stop hooks) stop)) := by
  rw [past]
  cases h.delay <;> cases h.error <;> rfl

theorem past_ends (hooks : List Hook) : (past (pure ()) fail hooks).Ends (hooks.findSome? Hook.error) := by
  induction hooks with
  | nil => rfl
  | cons h hooks ih =>
    have hrest : (h.error.elim (past (pure ()) fail hooks) fail).Ends ((h :: hooks).findSome? Hook.error) := by
      rw [List.findSome?_cons]
      cases h.error with
      | some e => rfl
      | none => exact ih
    rw [past_cons]
    cases h.delay with
    | none => exact hrest
    | some ms => exact hrest

theorem gate_ends (hooks : List Hook) (action : Action) (kind : ActionKind) :
    (gate hooks action kind).Ends (Hook.fault hooks kind 1) := past_ends _

/-- A look at a gate leaves the store. -/
theorem Ends.poll {fault : Option LedgerError} {p : Work Unit} (h : p.Ends fault) (o : Nat) (wake : Option Timer)
    (b : Bank) :
    p.Leads [] (p.poll o wake b).2.1.work ∧ (p.poll o wake b).2.1.work.Ends fault ∧
      (p.poll o wake b).2.2.store = b.store ∧ (p.poll o wake b).2.2.now = b.now ∧
      ∀ r, (p.poll o wake b).1 = .ready r → fault = match r with | .ok () => none | .error e => some e := by
  obtain ⟨hruns, hnow, hready⟩ := poll_runs o p wake b
  have hstay : p.Leads [] (p.poll o wake b).2.1.work ∧ (p.poll o wake b).2.1.work.Ends fault ∧
      (p.poll o wake b).2.2.store = b.store := by
    generalize (p.poll o wake b).2.1.work = q, (p.poll o wake b).2.2.store = s' at hruns
    generalize p.answers o wake b = l, b.store = s at hruns ⊢
    clear hnow hready
    induction hruns with
    | refl => exact ⟨.nil, h, rfl⟩
    | report _ ih => exact (ih h).imp_left .report
    | trace _ ih => exact (ih h).imp_left .trace
    | sleep _ ih => exact (ih h).imp_left .sleep
    | asks => exact h.elim
    | waits => exact h.elim
  refine ⟨hstay.1, hstay.2.1, hstay.2.2, hnow, ?_⟩
  intro r hr
  have hdone := hstay.2.1
  rw [(hready r).1 hr] at hdone
  cases r <;> exact hdone

end Work

/-! ## Alarms -/

theorem Alarm.setAll_spec (alarms : List Alarm) (b : Bank) :
    (setAll alarms b).1.map (·.due) = alarms.map (·.due) ∧ (setAll alarms b).2.store = b.store ∧
      (setAll alarms b).2.now = b.now := by
  induction alarms generalizing b with
  | nil => exact ⟨rfl, rfl, rfl⟩
  | cons a alarms ih =>
    cases ha : a.timer with
    | some timer =>
      obtain ⟨hdue, hstore, hnow⟩ := ih b
      simp only [setAll, ha, List.map_cons, hdue]
      exact ⟨trivial, hstore, hnow⟩
    | none =>
      obtain ⟨hdue, hstore, hnow⟩ := ih (b.setTimer a.due).2
      simp only [setAll, ha, List.map_cons, hdue]
      exact ⟨trivial, hstore, hnow⟩

/-- What a look at the alarms can do. -/
inductive Job.Heeded {α : Type} (j : Job α) (b : Bank) : Bool × Job α × Bank → Prop
  /-- No alarm has come. -/
  | quiet (alarms : List Alarm) (b' : Bank) : alarms.map (·.due) = j.alarms.map (·.due) →
      (∀ due ∈ j.alarms.map (·.due), b.now < due) → b'.store = b.store → Heeded j b (false, { j with alarms }, b')
  /-- An alarm has come, and the owner leaves the line. -/
  | fired (alarms : List Alarm) (b' : Bank) : alarms.map (·.due) = j.alarms.map (·.due) →
      (∃ due ∈ j.alarms.map (·.due), due ≤ b.now) → b'.store = b.store.leaveLine j.owner →
      Heeded j b (true, { j with alarms }, b')

theorem Job.heeded {α : Type} (j : Job α) (b : Bank) : j.Heeded b (pollStop (j, b)) := by
  obtain ⟨hdue, hstore, hnow⟩ := Alarm.setAll_spec j.alarms b
  unfold pollStop
  dsimp only
  split
  · rename_i hnone
    refine .quiet _ _ hdue ?_ hstore
    rw [← hdue, ← hnow]
    simpa using hnone
  · rename_i alarm ha
    have hfired : ∃ due ∈ j.alarms.map (·.due), due ≤ b.now := by
      refine ⟨alarm.due, hdue ▸ List.mem_map_of_mem (List.mem_of_find?_eq_some ha), ?_⟩
      rw [← hnow]
      simpa using List.find?_some ha
    cases alarm.event with
    | none => exact .fired _ _ hdue hfired (by rw [← hstore])
    | some e => exact .fired _ _ hdue hfired (by rw [← hstore]; rfl)

/-! ## Jobs -/

/-- The calls of a job that the store answers during a look at it, with the answers. -/
def Job.answers {α : Type} (j : Job α) (b : Bank) : Transcript :=
  match j.stage with
  | .opening =>
    match pollBegin (j, b) with
    | (.ready (.ok ()), j, b) => j.work.work.answers j.owner j.work.wake b
    | _ => []
  | .working => j.work.work.answers j.owner j.work.wake b
  | _ => []

/-- When a look at the begin or the work is over, it still has no answer: only then are the
    alarms looked at. -/
def Job.waits {α : Type} (j : Job α) (b : Bank) : Bool :=
  match j.stage with
  | .opening =>
    match pollBegin (j, b) with
    | (.pending, _) => true
    | (.ready (.ok ()), s) => (pollWork s).1.isPending
    | (.ready (.error _), _) => false
  | .working => (pollWork (j, b)).1.isPending
  | _ => false

/-- The job has come to its end. -/
def Job.isFinished {α : Type} (j : Job α) : Bool :=
  match j.stage with
  | .finished _ => true
  | _ => false

/-- A look at a job that is not finished is one of its parts; a verdict is no more than a
    note. -/
theorem Job.poll_parts {α : Type} {j : Job α} (h : ∀ r, j.stage ≠ .finished r) (b : Bank) :
    (j.poll b).1 = { (parts.poll j.stage (j, b)).2.1 with stage := (parts.poll j.stage (j, b)).1 } ∧
      (j.poll b).2.store = (parts.poll j.stage (j, b)).2.2.store := by
  unfold poll
  split
  · rename_i r hr; exact absurd hr (h r)
  · rcases parts.poll j.stage (j, b) with ⟨stage, j', b'⟩
    cases stage with
    | finished r =>
      dsimp only
      split <;> exact ⟨rfl, rfl⟩
    | _ => exact ⟨rfl, rfl⟩

end Giro
