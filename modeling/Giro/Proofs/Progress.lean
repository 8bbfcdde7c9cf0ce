import Giro.Proofs.Ascent
import Giro.Proofs.Traffic

/-
  Giro.Proofs.Progress — no deadlock among transfers.

  A transfer that waits for a row holds only smaller ones (`Placed`, from
  `Work.transfer_climbs`), and every row that is held or asked for belongs to a transfer on
  its way. So of the transfers that wait, the first in line for the greatest row does not:
  while any transfer is unfinished, one of them can step. Each takes at most
  fifteen steps, so every schedule that goes on as long as it can ends with all finished.
-/

namespace Giro

namespace Payment

def isFinished (p : Payment) : Bool :=
  match p.stage with
  | .finished _ => true
  | _ => false

/-- Between its begin and its end. -/
def isOpen (p : Payment) : Bool :=
  match p.stage with
  | .opening => false
  | .finished _ => false
  | _ => true

/-- The transfer works at a call for a row. -/
def AsksFor (p : Payment) (row : Int) : Prop :=
  p.stage = .working ∧ ∃ (c : Call) (next : Outcome c.Reply → Work TransferReceipt),
    p.work = .call c next ∧ c.row? = some row

theorem AsksFor.unique {p : Payment} {row row' : Int} (h : p.AsksFor row) (h' : p.AsksFor row') : row = row' := by
  obtain ⟨-, c, next, hw, hrow⟩ := h
  obtain ⟨-, c', next', hw', hrow'⟩ := h'
  rw [hw] at hw'
  cases hw'
  rw [hrow] at hrow'
  exact Option.some.inj hrow'

/-- The call that a transfer works at has no answer now. -/
def isBlocked (p : Payment) (o : Nat) (s : Store) : Bool :=
  match p.stage, p.work with
  | .working, .call c _ =>
    match (s.call o c .epoch).1 with
    | .pending => true
    | .ready _ => false
  | _, _ => false

/-- The transfer has not come to its end and does not wait for a row. -/
def canStep (p : Payment) (o : Nat) (s : Store) : Bool := !p.isFinished && !p.isBlocked o s

/-- How an owner's transfer, transaction and places in line belong together. -/
structure Placed (p? : Option Payment) (x? : Option Transaction) (line : Set Int) : Prop where
  owned {x : Transaction} : x? = some x → ∃ p, p? = some p ∧ p.isOpen = true
  begun {p : Payment} : p? = some p → p.stage = .working → ∃ x, x? = some x
  opening {p : Payment} : p? = some p → p.stage = .opening → p.work.Climbs (fun _ => True) ∅
  /-- With the rows it holds, the work that is left asks only for greater ones. -/
  climbs {p : Payment} {x : Transaction} : p? = some p → x? = some x → p.stage = .working →
    p.work.Climbs (fun _ => True) { row | row ∈ x.held }
  lined {row : Int} : row ∈ line → ∃ p, p? = some p ∧ p.AsksFor row
  unheld {row : Int} {x : Transaction} : row ∈ line → x? = some x → row ∉ x.held

/-- The rows that an owner stands in line for. -/
def line (s : Store) (o : Nat) : Set Int := { row | ⟨o, row⟩ ∈ s.waiting }

variable {o : Nat} {s : Store} {p : Payment} {now : Instant}

theorem not_asksFor_of_done {r : Outcome TransferReceipt} (h : p.work = .done r) (row : Int) : ¬ p.AsksFor row := by
  rintro ⟨-, c, next, hw, -⟩
  rw [h] at hw
  cases hw

theorem Placed.line_eq_empty {x? : Option Transaction} {l : Set Int} (h : Placed (some p) x? l)
    (hp : ∀ row, ¬ p.AsksFor row) : l = ∅ := by
  refine Set.eq_empty_iff_forall_notMem.2 ?_
  intro row hrow
  obtain ⟨q, hq, hasks⟩ := h.lined hrow
  cases hq
  exact hp row hasks

/-- A transfer that is not at work, and asks for nothing new, waits for nothing. -/
theorem Placed.ended {x? : Option Transaction} (h : Placed (some p) x? (line s o)) {stage : Stage TransferReceipt}
    (hstage : p.stage = stage) (hne : stage ≠ .working) {s' : Store}
    (hwaiting : ∀ row, ⟨o, row⟩ ∈ s'.waiting → ⟨o, row⟩ ∈ s.waiting) : line s' o = ∅ := by
  have hline : line s o = ∅ := h.line_eq_empty fun row hasks => hne (hstage.symm.trans hasks.1)
  refine Set.eq_empty_iff_forall_notMem.2 ?_
  intro row hrow
  have hmem : row ∈ line s o := hwaiting row hrow
  rw [hline] at hmem
  exact hmem

theorem line_forget (s : Store) (o : Nat) : line (s.forget o) o = ∅ := by
  simp [line, Store.forget]

theorem placed_nothing : Placed none none ∅ where
  owned hx := by cases hx
  begun hq := by cases hq
  opening hq := by cases hq
  climbs hq := by cases hq
  lined hrow := hrow.elim
  unheld hrow := hrow.elim

/-- Past its work a transfer keeps its transaction, and asks for nothing. -/
theorem placed_closing {q : Payment} (hopen : q.isOpen = true) (hw : q.stage ≠ .working) (x? : Option Transaction) :
    Placed (some q) x? ∅ where
  owned _ := ⟨q, rfl, hopen⟩
  begun hq hs := by cases hq; exact absurd hs hw
  opening hq hs := by cases hq; simp [isOpen, hs] at hopen
  climbs hq _ hs := by cases hq; exact absurd hs hw
  lined hrow := hrow.elim
  unheld hrow := hrow.elim

/-- A finished transfer has no transaction. -/
theorem placed_finished {q : Payment} {r : Outcome TransferReceipt} (h : q.stage = .finished r) :
    Placed (some q) none ∅ where
  owned hx := by cases hx
  begun hq hs := by cases hq; rw [h] at hs; cases hs
  opening hq hs := by cases hq; rw [h] at hs; cases hs
  climbs _ hx := by cases hx
  lined hrow := hrow.elim
  unheld hrow := hrow.elim

/-- A transfer at work, with the rows locked that it may climb from. -/
theorem placed_working {q : Payment} {x : Transaction} (hs : q.stage = .working)
    (hclimbs : q.work.Climbs (fun _ => True) { row | row ∈ x.held }) {l : Set Int}
    (hl : ∀ row ∈ l, q.AsksFor row ∧ row ∉ x.held) : Placed (some q) (some x) l where
  owned _ := ⟨q, rfl, by simp [isOpen, hs]⟩
  begun _ _ := ⟨x, rfl⟩
  opening hq hs' := by cases hq; rw [hs] at hs'; cases hs'
  climbs hq hx _ := by cases hq; cases hx; exact hclimbs
  lined hrow := ⟨q, rfl, (hl _ hrow).1⟩
  unheld hrow hx := by cases hx; exact (hl _ hrow).2

/-- A transfer that enters, for an owner with nothing. -/
theorem Placed.enter {x? : Option Transaction} {l : Set Int} (h : Placed none x? l) (order : TransferOrder) :
    Placed (some (enter order)) x? l where
  owned hx := by obtain ⟨q, hq, -⟩ := h.owned hx; cases hq
  begun hq hs := by cases hq; cases hs
  opening hq _ := by cases hq; exact Work.transfer_climbs order
  climbs hq _ hs := by cases hq; cases hs
  lined hrow := by obtain ⟨q, hq, -⟩ := h.lined hrow; cases hq
  unheld := h.unheld

/-- An answer to a call takes its owner out of line. -/
theorem Placed.line_answered {c : Call} {next : Outcome c.Reply → Work TransferReceipt} {r : Outcome c.Reply}
    {s' : Store} {x x' : Transaction} {id : Int} (h : Placed (some p) (s.tx? o) (line s o))
    (hnodup : s.waiting.Nodup) (hw : p.work = .call c next) (hx : s.tx? o = some x)
    (ha : Store.Answered s x c id now r s' x') : line s' o = ∅ := by
  refine Set.eq_empty_iff_forall_notMem.2 ?_
  intro row hrow
  have hmem : row ∈ line s o := by
    have hrow' : ⟨o, row⟩ ∈ s'.waiting := hrow
    rcases ha.waiting with hwait | ⟨_, -, hwait⟩ <;> rw [hwait] at hrow'
    · exact hrow'
    · exact List.mem_of_mem_erase hrow'
  obtain ⟨q, hq, -, c', next', hw', hrow'⟩ := h.lined hmem
  cases hq
  rw [hw] at hw'
  cases hw'
  have hleft := ha.left hnodup row hrow' (h.unheld hmem hx)
  rw [Store.owner_of_tx? hx] at hleft
  exact hleft hrow

/-- A call that is answered well locks its row. -/
theorem held_answered {c : Call} {a : c.Reply} {s' : Store} {x x' : Transaction} {id : Int}
    (ha : Store.Answered s x c id now (.ok a) s' x') :
    { row | row ∈ x'.held } = { row | row ∈ x.held } ∪ c.rows := by
  ext row
  have hlocked := ha.locked rfl row
  rcases ha.held with hh | ⟨r, hr, -, -, hh⟩ <;> rw [hh] at hlocked ⊢
  · simp only [Set.mem_union, Set.mem_ofPred_eq, Call.rows]
    exact ⟨.inl, fun hrow => hrow.elim (fun h => h) hlocked⟩
  · simp [Call.rows, hr, eq_comm, or_comm]

theorem Placed.answered {c : Call} {next : Outcome c.Reply → Work TransferReceipt} {r : Outcome c.Reply}
    {s' : Store} {x x' : Transaction} {id : Int} (h : Placed (some p) (s.tx? o) (line s o))
    (hnodup : s.waiting.Nodup) (hstage : p.stage = .working) (hw : p.work = .call c next) (hx : s.tx? o = some x)
    (ha : Store.Answered s x c id now r s' x') :
    Placed (some { p with work := next r }) (s'.tx? o) (line s' o) := by
  obtain ⟨-, herror, hok⟩ : (Work.call c next).Climbs _ { row | row ∈ x.held } := hw ▸ h.climbs rfl hx hstage
  rw [ha.tx? hx, if_pos rfl, h.line_answered hnodup hw hx ha]
  have hclimbs : (next r).Climbs (fun _ => True) { row | row ∈ x'.held } := by
    cases r with
    | error e =>
      rw [herror e]
      trivial
    | ok a =>
      rw [held_answered ha]
      exact hok a
  exact placed_working (q := { p with work := next r }) hstage hclimbs fun row hrow =>
    (Set.notMem_empty row hrow).elim

/-- A call that waits adds its row to the line, and nothing else. -/
theorem Placed.waits {c : Call} {next : Outcome c.Reply → Work TransferReceipt} {x : Transaction} {row : Int}
    (h : Placed (some p) (s.tx? o) (line s o)) (hstage : p.stage = .working) (hw : p.work = .call c next)
    (hrow : c.row? = some row) (hx : s.tx? o = some x) (hheld : row ∉ x.held) :
    Placed (some p) ((s.enqueue o row).tx? o) (line (s.enqueue o row) o) := by
  rw [Store.tx?_of_txs (Store.enqueue_txs ..), hx]
  refine placed_working hstage (h.climbs rfl hx hstage) ?_
  intro row' hrow'
  have hcase : row' ∈ line s o ∨ row' = row := by
    unfold line Store.enqueue at hrow'
    split at hrow'
    · exact .inl hrow'
    · simpa [line] using hrow'
  rcases hcase with hold | rfl
  · obtain ⟨q, hq, hasks⟩ := h.lined hold
    cases hq
    exact ⟨hasks, h.unheld hold hx⟩
  · exact ⟨⟨hstage, c, next, hw, hrow⟩, hheld⟩

/-- One step keeps an owner's transfer, transaction and places together. -/
theorem Turn.placed {ops : List Operation} {r : Payment × Store} (ht : Turn o now s p ops r) (hs : s.Sound)
    (hnodup : s.waiting.Nodup) (h : Placed (some p) (s.tx? o) (line s o)) :
    Placed (some r.1) (r.2.tx? o) (line r.2 o) := by
  cases ht with
  | begins hstage =>
    have hline : line (s.begin o) o = ∅ := line_forget s o
    have hclimbs := h.opening rfl hstage
    have hempty : { row : Int | row ∈ ({ owner := o } : Transaction).held } = ∅ := by ext; simp
    rw [Store.tx?_begin, if_pos rfl, hline]
    exact placed_working rfl (hempty ▸ hclimbs) (by simp)
  | @goesOn next hstage hnext =>
    obtain ⟨x, hx⟩ := h.begun rfl hstage
    have hclimbs := h.climbs rfl hx hstage
    have hline : line s o = ∅ := h.line_eq_empty fun row hasks => by
      obtain ⟨-, c, next, hw, -⟩ := hasks
      rw [hw] at hnext
      rcases hnext with ⟨_, hn⟩ | ⟨_, hn⟩ | ⟨_, hn⟩ <;> cases hn
    rw [hx, hline]
    refine placed_working (q := { p with work := next }) hstage ?_ fun row hrow => (Set.notMem_empty row hrow).elim
    rcases hnext with ⟨_, hn⟩ | ⟨_, hn⟩ | ⟨_, hn⟩ <;> rw [hn] at hclimbs <;> exact hclimbs
  | @asks c next r s' hstage hw hc =>
    cases hc ▸ Store.asked hs o c now with
    | ended hn =>
      obtain ⟨x, hx⟩ := h.begun rfl hstage
      rw [hn] at hx
      cases hx
    | answered hx ha => exact h.answered hnodup hstage hw hx ha
  | @waits c next s' hstage hw hc =>
    cases hc ▸ Store.asked hs o c now with
    | waits hx hrow _ hheld _ => exact h.waits hstage hw hrow hx hheld
  | @agrees receipt hstage hw =>
    rw [h.line_eq_empty (not_asksFor_of_done hw)]
    exact placed_closing (q := { p with stage := .committing receipt }) rfl (by simp) _
  | @fails e hstage hw =>
    rw [h.line_eq_empty (not_asksFor_of_done hw)]
    exact placed_closing (q := { p with stage := .rollingBack e }) rfl (by simp) _
  | @commits receipt s' hstage hc =>
    obtain ⟨hn, hwaiting⟩ := Store.commit_ends hc
    rw [hn, h.ended hstage (by simp) hwaiting]
    exact placed_finished rfl
  | @refused receipt e s' hstage hc =>
    obtain ⟨hn, hwaiting⟩ := Store.commit_ends hc
    rw [hn, h.ended hstage (by simp) hwaiting]
    exact placed_finished rfl
  | rollsBack hstage =>
    rw [Store.tx?_forget, if_pos rfl, line_forget]
    exact placed_finished rfl
  | rests hstage => exact h

end Payment

namespace Traffic

open Payment (Placed line)

variable {t : Traffic}

/-- Every owner's transfer, transaction and places belong together, and an owner to come has
    none of them. -/
structure Orderly (t : Traffic) : Prop where
  sound : t.store.Sound
  lined : t.store.waiting.Nodup
  fresh : ∀ o, t.entered ≤ o → t.payments o = none
  placed : ∀ o, Placed (t.payments o) (t.store.tx? o) (line t.store o)

theorem orderly_idle {s : Store} (h : s.Idle) : Orderly { store := s } where
  sound := h.sound
  lined := by rw [h.waiting]; exact List.nodup_nil
  fresh _ _ := rfl
  placed o := by
    have hline : line s o = ∅ := by simp [line, h.waiting]
    rw [h.tx?, hline]
    exact Payment.placed_nothing

/-- Operations of one owner keep the order if they place the owner again. -/
theorem Orderly.moved (h : t.Orderly) {o : Nat} (ops : List Operation) {q : Option Payment}
    (hops : ∀ op ∈ ops, op.owner? = some o) (ho : t.entered ≤ o → q = none)
    (hq : Placed q ((t.store.run ops).tx? o) (line (t.store.run ops) o)) :
    Orderly { t with store := t.store.run ops, payments := Function.update t.payments o q } where
  sound := h.sound.run ops
  lined := Store.run_waiting_nodup h.sound h.lined ops
  fresh p hp := by
    dsimp only at hp ⊢
    by_cases hpo : p = o
    · subst hpo
      rw [Function.update_self, ho hp]
    · rw [Function.update_of_ne hpo, h.fresh p hp]
  placed := by
    refine (Function.forall_update_iff t.payments fun p q =>
      Placed q ((t.store.run ops).tx? p) (line (t.store.run ops) p)).2 ⟨hq, ?_⟩
    intro p hp
    obtain ⟨htx, hline⟩ := Store.run_others h.sound (Operation.not_of_other hops hp)
    have hline' : line (t.store.run ops) p = line t.store p := Set.ext hline
    rw [htx, hline']
    exact h.placed p

theorem Orderly.entered (h : t.Orderly) {o : Nat} {p : Payment} (hp : t.payments o = some p) : ¬ t.entered ≤ o := by
  intro hle
  rw [h.fresh o hle] at hp
  cases hp

theorem Orderly.stop (h : t.Orderly) (o : Nat) : (t.move (.stop o)).Orderly := by
  unfold Traffic.move
  dsimp only
  split
  · exact h
  · rename_i p hp
    have hplaced := h.placed o
    rw [hp] at hplaced
    unfold put Payment.stop
    split
    · rename_i hs
      refine h.moved [] (by simp) (fun hle => absurd hle (h.entered hp)) ?_
      have htx : t.store.tx? o = none := by
        cases hx : t.store.tx? o with
        | none => rfl
        | some x =>
          obtain ⟨q, hq, hopen⟩ := hplaced.owned hx
          cases hq
          simp [Payment.isOpen, hs] at hopen
      rw [Store.run_nil, htx, hplaced.ended hs (by simp) fun _ => id]
      exact Payment.placed_finished rfl
    · refine h.moved [.leave o] (by simp [Operation.owner?]) (fun hle => absurd hle (h.entered hp)) ?_
      have hline : line (t.store.leaveLine o) o = ∅ := by simp [line, Store.leaveLine]
      rw [Store.run_cons, Store.run_nil, Store.apply, Store.leaveLine_tx?, hline]
      exact Payment.placed_closing (q := { p with stage := .rollingBack .cancelled }) rfl (by simp) _
    · exact h.moved [] (by simp) (fun hle => absurd hle (h.entered hp)) hplaced

theorem Orderly.move (h : t.Orderly) (m : Move) : (t.move m).Orderly := by
  cases m with
  | draw => exact ⟨h.sound.ofTxs rfl h.sound.sorted, h.lined, h.fresh, h.placed⟩
  | openAccount a now =>
    by_cases ha : a.id ∈ t.drawn
    · rw [t.move_openAccount ha]
      refine ⟨h.sound.ofTxs (Store.putAccount_txs ..) ?_, ?_, h.fresh, fun o => ?_⟩
      · rw [Store.putAccount_accounts]; exact h.sound.sorted.put a
      · rw [Store.putAccount_waiting]; exact h.lined
      · have hline : line (t.store.putAccount a now) o = line t.store o := by simp [line]
        rw [Store.tx?_of_txs (Store.putAccount_txs ..), hline]
        exact h.placed o
    · rw [t.move_openAccount_of_not_drawn ha]
      exact h
  | clear => exact ⟨h.sound.apply .clear, h.lined, h.fresh, h.placed⟩
  | enter order =>
    refine ⟨h.sound, h.lined, ?_, ?_⟩
    · intro o ho
      have hlt : t.entered < o := ho
      exact (Function.update_of_ne (by omega) ..).trans (h.fresh o (by omega))
    · have hnew := h.placed t.entered
      rw [h.fresh _ (Nat.le_refl _)] at hnew
      exact (Function.forall_update_iff t.payments fun o q => Placed q (t.store.tx? o) (line t.store o)).2
        ⟨hnew.enter order, fun o _ => h.placed o⟩
  | step o now =>
    unfold Traffic.move
    dsimp only
    split
    · exact h
    · rename_i p hp
      obtain ⟨ops, hturn⟩ := p.turn o now t.store
      have hplaced := h.placed o
      rw [hp] at hplaced
      have hnext := hturn.placed h.sound h.lined hplaced
      rw [hturn.store] at hnext
      rw [put, hturn.store]
      exact h.moved ops hturn.owner? (fun hle => absurd hle (h.entered hp)) hnext
  | stop o => exact h.stop o
  | drop o =>
    refine h.moved [.drop o] (by simp [Operation.owner?]) (fun _ => rfl) ?_
    rw [Store.run_cons, Store.run_nil, Store.apply, Store.tx?_forget, if_pos rfl, Payment.line_forget]
    exact Payment.placed_nothing

theorem Orderly.run (h : t.Orderly) (moves : List Move) : (t.run moves).Orderly :=
  run_induction (fun _ m h => h.move m) h moves

/-! ## Who waits for whom -/

/-- The owner's transfer has not come to its end. -/
def isUnfinished (t : Traffic) (o : Nat) : Bool :=
  match t.payments o with
  | some p => !p.isFinished
  | none => false

/-- The owner's transfer has not come to its end and does not wait for a row. -/
def canStep (t : Traffic) (o : Nat) : Bool :=
  match t.payments o with
  | some p => p.canStep o t.store
  | none => false

/-- The owner's transfer waits for the row. -/
def Awaits (t : Traffic) (o : Nat) (row : Int) : Prop :=
  ∃ p, t.payments o = some p ∧ p.AsksFor row ∧ p.isBlocked o t.store = true

/-- One owner's transfer waits for a row that another one's transaction holds. -/
def WaitsFor (t : Traffic) (o p : Nat) : Prop :=
  ∃ row x, t.Awaits o row ∧ t.store.tx? p = some x ∧ row ∈ x.held

theorem Awaits.unique {o : Nat} {row row' : Int} (h : t.Awaits o row) (h' : t.Awaits o row') : row = row' := by
  obtain ⟨p, hp, hasks, -⟩ := h
  obtain ⟨p', hp', hasks', -⟩ := h'
  rw [hp] at hp'
  cases hp'
  exact hasks.unique hasks'

theorem Orderly.blocked (h : t.Orderly) {o : Nat} {p : Payment} (hp : t.payments o = some p)
    (hb : p.isBlocked o t.store = true) :
    ∃ row x, t.Awaits o row ∧ t.store.tx? o = some x ∧ t.store.isFreeFor o row = false ∧ ∀ r ∈ x.held, r < row := by
  have hblocked := hb
  unfold Payment.isBlocked at hb
  split at hb
  · rename_i c next hs hw
    rcases hc : t.store.call o c .epoch with ⟨r, s'⟩
    rw [hc] at hb
    cases hc ▸ Store.asked h.sound o c .epoch with
    | ended _ => cases hb
    | answered _ _ => cases hb
    | @waits x row hx hrow _ hh hf =>
      obtain ⟨hclimb, -⟩ : (Work.call c next).Climbs _ { row | row ∈ x.held } := hw ▸ (h.placed o).climbs hp hx hs
      exact ⟨row, x, ⟨p, hp, ⟨hs, c, next, hw, hrow⟩, hblocked⟩, hx, hf, (hclimb row hrow).resolve_left hh⟩
  · cases hb

/-- A transfer that waits for a row holds only smaller ones. -/
theorem Orderly.ascends (h : t.Orderly) {o : Nat} {row : Int} (hrow : t.Awaits o row) {x : Transaction}
    (hx : t.store.tx? o = some x) : ∀ r ∈ x.held, r < row := by
  obtain ⟨p, hp, hasks, hb⟩ := id hrow
  obtain ⟨row', x', hrow', hx', -, hless⟩ := h.blocked hp hb
  rw [hx] at hx'
  cases hx'
  rwa [hrow.unique hrow']

/-- Along a chain of transfers that wait for each other the rows ascend. -/
theorem Orderly.chain (h : t.Orderly) {o p : Nat} (hchain : Relation.TransGen t.WaitsFor o p) {row : Int}
    (hrow : t.Awaits o row) : ∃ x, t.store.tx? p = some x ∧ ∃ r ∈ x.held, row ≤ r := by
  induction hchain with
  | single hw =>
    obtain ⟨r, x, hr, hx, hheld⟩ := hw
    exact ⟨x, hx, r, hheld, (hrow.unique hr).le⟩
  | tail _ hw ih =>
    obtain ⟨y, hy, r', hheld', hle⟩ := ih
    obtain ⟨r, x, hr, hx, hheld⟩ := hw
    have := h.ascends hr hy r' hheld'
    exact ⟨x, hx, r, hheld, by omega⟩

/-- No transfers wait for each other in a circle. -/
theorem Orderly.no_cycle (h : t.Orderly) (o : Nat) : ¬ Relation.TransGen t.WaitsFor o o := by
  intro hcycle
  obtain ⟨p, ⟨row, -, hrow, -, -⟩, -⟩ := Relation.TransGen.head'_iff.1 hcycle
  obtain ⟨x, hx, r, hheld, hle⟩ := h.chain hcycle hrow
  have := h.ascends hrow hx r hheld
  omega

/-! ## Somebody can step -/

/-- The row that an owner's transfer asks for; any number if it asks for none. -/
def row (t : Traffic) (o : Nat) : Int :=
  match t.payments o with
  | some ⟨_, _, .call c _⟩ => c.row?.getD 0
  | _ => 0

theorem Awaits.row_eq {o : Nat} {r : Int} (h : t.Awaits o r) : t.row o = r := by
  obtain ⟨⟨order, stage, work⟩, hp, ⟨-, c, next, rfl, hrow⟩, -⟩ := h
  simp only [row, hp, hrow, Option.getD_some]

theorem Orderly.awaits (h : t.Orderly) {o : Nat} (ho : t.isUnfinished o = true) (hno : ¬ t.canStep o = true) :
    ∃ r, t.Awaits o r ∧ t.store.isFreeFor o r = false := by
  unfold isUnfinished at ho
  unfold canStep at hno
  split at ho
  · rename_i p hp
    have hb : p.isBlocked o t.store = true := by
      rw [hp] at hno
      simpa [Payment.canStep, ho] using hno
    obtain ⟨r, x, hr, -, hf, -⟩ := h.blocked hp hb
    exact ⟨r, hr, hf⟩
  · cases ho

/-- While a transfer is unfinished, one of them can step: else take the greatest row that one
    waits for. Its holder does not wait, having smaller rows to itself only; and if there is
    no holder, the first in line may have it. -/
theorem Orderly.exists_canStep (h : t.Orderly) {o : Nat} (ho : t.isUnfinished o = true) :
    ∃ p, t.canStep p = true := by
  by_contra hnone
  have hawaits : ∀ p, t.isUnfinished p = true → ∃ r, t.Awaits p r ∧ t.store.isFreeFor p r = false := fun p hp =>
    h.awaits hp fun hstep => hnone ⟨p, hstep⟩
  have hentered : ∀ p, t.isUnfinished p = true → p < t.entered := by
    intro p hp
    unfold isUnfinished at hp
    split at hp
    · rename_i q hq
      exact Nat.lt_of_not_le (h.entered hq)
    · cases hp
  obtain ⟨q, hq, hmax⟩ := ((Finset.range t.entered).filter fun p => t.isUnfinished p = true).exists_max_image t.row
    ⟨o, Finset.mem_filter.2 ⟨Finset.mem_range.2 (hentered o ho), ho⟩⟩
  obtain ⟨r, hr, hf⟩ := hawaits q (Finset.mem_filter.1 hq).2
  rcases Store.busy hf with ⟨x, hx, hheld⟩ | ⟨p, hline, hfree⟩
  · -- The holder `x.owner` is on its way, so it waits too, for a row above this one.
    have htx := Store.tx?_of_mem h.sound.owners hx
    obtain ⟨p, hp, hopen⟩ := (h.placed x.owner).owned htx
    have hun : t.isUnfinished x.owner = true := by
      simp only [isUnfinished, hp]
      unfold Payment.isOpen at hopen
      unfold Payment.isFinished
      split at hopen <;> simp_all
    obtain ⟨r', hr', -⟩ := hawaits x.owner hun
    have hless := h.ascends hr' htx r hheld
    have hle := hmax x.owner (Finset.mem_filter.2 ⟨Finset.mem_range.2 (hentered _ hun), hun⟩)
    rw [hr.row_eq, hr'.row_eq] at hle
    omega
  · -- The first in line works at a call for the row, and the row is free for it.
    obtain ⟨q', hq', hasks⟩ := (h.placed p).lined (show r ∈ line t.store p from hline)
    have hun : t.isUnfinished p = true := by
      simp [isUnfinished, hq', Payment.isFinished, hasks.1]
    obtain ⟨r', hr', hf'⟩ := hawaits p hun
    obtain ⟨q'', hq'', hasks', -⟩ := hr'
    rw [hq'] at hq''
    cases hq''
    rw [← hasks.unique hasks', hfree] at hf'
    cases hf'

end Traffic

/-! ## How long a transfer takes -/

namespace Payment

/-- The transfer has at most so many steps to go. -/
def Within (n : Nat) (p : Payment) : Prop :=
  match p.stage with
  | .opening => ∃ m, p.work.Within m ∧ m + 3 ≤ n
  | .working => ∃ m, p.work.Within m ∧ m + 2 ≤ n
  | .committing _ => 1 ≤ n
  | .rollingBack _ => 1 ≤ n
  | .finished _ => True

theorem Within.mono {p : Payment} {n m : Nat} (h : p.Within n) (hnm : n ≤ m) : p.Within m := by
  unfold Within at h ⊢
  split at h
  · obtain ⟨k, hk, hle⟩ := h; exact ⟨k, hk, by omega⟩
  · obtain ⟨k, hk, hle⟩ := h; exact ⟨k, hk, by omega⟩
  · exact Nat.le_trans h hnm
  · exact Nat.le_trans h hnm
  · trivial

theorem enter_within (order : TransferOrder) : (enter order).Within 15 := ⟨12, Work.transfer_within order, by omega⟩

/-- Whether a call is answered does not depend on the time. -/
theorem call_pending_any {s : Store} {o : Nat} {c : Call} {now : Instant} (h : (s.call o c now).1 = .pending)
    (now' : Instant) : (s.call o c now').1 = .pending := by
  unfold Store.call at h ⊢
  split at h
  · cases h
  · cases c with
    | get row => exact h
    | update row balance => exact h
    | insertTransfer order => cases h
    | insertEntry account amount => cases h

/-- A step of a transfer that can step brings it nearer to its end. -/
theorem Turn.within {o : Nat} {now : Instant} {s : Store} {p : Payment} {ops : List Operation} {r : Payment × Store}
    (ht : Turn o now s p ops r) (hstep : p.canStep o s = true) {n : Nat} (h : p.Within n) :
    ∃ m, n = m + 1 ∧ r.1.Within m := by
  obtain ⟨hf, hb⟩ : p.isFinished = false ∧ p.isBlocked o s = false := by simpa [canStep] using hstep
  unfold Within at h
  cases ht with
  | begins hs =>
    simp only [hs] at h
    obtain ⟨m, hm, hle⟩ := h
    exact ⟨n - 1, by omega, m, hm, by omega⟩
  | goesOn hs hnext =>
    simp only [hs] at h
    obtain ⟨m, hm, hle⟩ := h
    obtain _ | m := m
    · rcases hnext with ⟨_, hw⟩ | ⟨_, hw⟩ | ⟨_, hw⟩ <;> rw [hw] at hm <;> exact hm.elim
    · refine ⟨n - 1, by omega, ?_⟩
      simp only [Within, hs]
      refine ⟨m, ?_, by omega⟩
      rcases hnext with ⟨_, hw⟩ | ⟨_, hw⟩ | ⟨_, hw⟩ <;> rw [hw] at hm <;> exact hm
  | @asks c next r s' hs hw hc =>
    simp only [hs, hw] at h
    obtain ⟨m, hm, hle⟩ := h
    obtain _ | m := m
    · exact hm.elim
    · refine ⟨n - 1, by omega, ?_⟩
      simp only [Within, hs]
      exact ⟨m, hm r, by omega⟩
  | @waits c next s' hs hw hc =>
    have hpending := call_pending_any (congrArg Prod.fst hc) .epoch
    simp only [isBlocked, hs, hw, hpending] at hb
    cases hb
  | agrees hs hw =>
    simp only [hs] at h
    obtain ⟨m, -, hle⟩ := h
    exact ⟨n - 1, by omega, show 1 ≤ n - 1 by omega⟩
  | fails hs hw =>
    simp only [hs] at h
    obtain ⟨m, -, hle⟩ := h
    exact ⟨n - 1, by omega, show 1 ≤ n - 1 by omega⟩
  | commits hs hc =>
    simp only [hs] at h
    exact ⟨n - 1, by omega, trivial⟩
  | refused hs hc =>
    simp only [hs] at h
    exact ⟨n - 1, by omega, trivial⟩
  | rollsBack hs =>
    simp only [hs] at h
    exact ⟨n - 1, by omega, trivial⟩
  | rests hs => simp [isFinished, hs] at hf

/-- Any other step leaves it as it is. -/
theorem Turn.stays {o : Nat} {now : Instant} {s : Store} {p : Payment} {ops : List Operation} {r : Payment × Store}
    (ht : Turn o now s p ops r) (hstep : p.canStep o s = false) : r.1 = p := by
  have h : p.isFinished = true ∨ p.isBlocked o s = true := by
    rw [canStep, Bool.and_eq_false_iff] at hstep
    simpa using hstep
  cases ht with
  | waits _ _ _ => rfl
  | rests _ => rfl
  | @asks c next r s' hs hw hc =>
    exfalso
    rcases h with hf | hb
    · simp [isFinished, hs] at hf
    · simp only [isBlocked, hs, hw] at hb
      split at hb
      · rename_i hp
        have := call_pending_any hp now
        rw [hc] at this
        cases this
      · cases hb
  | begins hs => simp [isFinished, isBlocked, hs] at h
  | goesOn hs hnext => rcases hnext with ⟨_, hw⟩ | ⟨_, hw⟩ | ⟨_, hw⟩ <;> simp [isFinished, isBlocked, hs, hw] at h
  | agrees hs hw => simp [isFinished, isBlocked, hs, hw] at h
  | fails hs hw => simp [isFinished, isBlocked, hs, hw] at h
  | commits hs _ => simp [isFinished, isBlocked, hs] at h
  | refused hs _ => simp [isFinished, isBlocked, hs] at h
  | rollsBack hs => simp [isFinished, isBlocked, hs] at h

/-- A step that counts uses up one of the steps to go. -/
theorem step_within {p : Payment} {n : Nat} (h : p.Within n) (o : Nat) (now : Instant) (s : Store) :
    ∃ k, (if p.canStep o s then 1 else 0) + k = n ∧ (p.step o now s).1.Within k := by
  obtain ⟨ops, ht⟩ := p.turn o now s
  cases hstep : p.canStep o s with
  | true =>
    obtain ⟨k, rfl, hk⟩ := ht.within hstep h
    exact ⟨k, by simp [Nat.add_comm], hk⟩
  | false =>
    rw [ht.stays hstep]
    exact ⟨n, by simp, h⟩

theorem stop_within {o : Nat} {s : Store} {p : Payment} {n : Nat} (h : p.Within n) : (p.stop o s).1.Within n := by
  unfold stop
  split
  · trivial
  · rename_i hs
    simp only [Within, hs] at h
    obtain ⟨m, -, hle⟩ := h
    exact show 1 ≤ n by omega
  · exact h

end Payment

namespace Traffic

variable {t : Traffic}

/-- The owner who steps on with a move, if one does: a step of a transfer that is finished or
    waits for a row does not count. -/
def turn (t : Traffic) : Move → List Nat
  | .step o _ => if t.canStep o then [o] else []
  | _ => []

/-- The owners who step on in the course of a run. -/
def turns : Traffic → List Move → List Nat
  | _, [] => []
  | t, m :: moves => t.turn m ++ (t.move m).turns moves

/-- A bound on the steps that an owner's transfer has to go, also if it is yet to enter. -/
structure Bound (t : Traffic) (o n : Nat) : Prop where
  within {p : Payment} : t.payments o = some p → p.Within n
  entering : t.entered ≤ o → 15 ≤ n

theorem Bound.update {o o' n : Nat} (h : t.Bound o n) {q : Option Payment} {s : Store}
    (hq : o = o' → ∀ p, q = some p → p.Within n) :
    Bound { t with store := s, payments := Function.update t.payments o' q } o n where
  within {p} hp := by
    dsimp only at hp
    by_cases ho : o = o'
    · subst ho
      rw [Function.update_self] at hp
      exact hq rfl p hp
    · rw [Function.update_of_ne ho] at hp
      exact h.within hp
  entering := h.entering

/-- A move by which the owner steps on uses up a step, and no move adds one. -/
theorem Bound.move {o n : Nat} (h : t.Bound o n) (ht : t.Orderly) (m : Move) :
    ∃ k, (t.turn m).count o + k = n ∧ (t.move m).Bound o k := by
  cases m with
  | draw => exact ⟨n, Nat.zero_add n, h.within, h.entering⟩
  | openAccount a now =>
    refine ⟨n, Nat.zero_add n, ?_⟩
    unfold Traffic.move
    dsimp only
    split <;> exact ⟨h.within, h.entering⟩
  | clear => exact ⟨n, Nat.zero_add n, h.within, h.entering⟩
  | enter order =>
    have hbound : Bound { t with payments := Function.update t.payments t.entered (some (.enter order)) } o n := by
      refine h.update ?_
      rintro ho p ⟨⟩
      exact (Payment.enter_within order).mono (h.entering (Nat.le_of_eq ho.symm))
    exact ⟨n, Nat.zero_add n, hbound.within, fun hle => h.entering (Nat.le_of_succ_le hle)⟩
  | step o' now =>
    dsimp only [turn, Traffic.move]
    cases hp : t.payments o' with
    | none => exact ⟨n, by simp [canStep, hp], h.within, h.entering⟩
    | some p =>
      have hcan : t.canStep o' = p.canStep o' t.store := by simp only [canStep, hp]
      rw [hcan]
      by_cases ho : o = o'
      · subst ho
        obtain ⟨k, hk, hnext⟩ := Payment.step_within (h.within hp) o now t.store
        refine ⟨k, ?_, ?_, fun hle => absurd hle (ht.entered hp)⟩
        · rw [← hk]
          split <;> simp
        · intro q hq
          obtain rfl : (p.step o now t.store).1 = q := by simpa [put] using hq
          exact hnext
      · refine ⟨n, ?_, h.update fun e => absurd e ho⟩
        split <;> simp [Ne.symm ho]
  | stop o' =>
    dsimp only [turn, Traffic.move]
    cases hp : t.payments o' with
    | none => exact ⟨n, Nat.zero_add n, h.within, h.entering⟩
    | some p =>
      refine ⟨n, Nat.zero_add n, h.update ?_⟩
      rintro rfl q ⟨⟩
      exact Payment.stop_within (h.within hp)
  | drop o' =>
    refine ⟨n, Nat.zero_add n, h.update ?_⟩
    rintro - q ⟨⟩

/-- Nobody steps on more often than the bound says. -/
theorem Bound.count_turns {o n : Nat} (h : t.Bound o n) (ht : t.Orderly) (moves : List Move) :
    (t.turns moves).count o ≤ n := by
  induction moves generalizing t n with
  | nil => exact Nat.zero_le _
  | cons m moves ih =>
    obtain ⟨k, hk, hbound⟩ := h.move ht m
    have := ih hbound (ht.move m)
    rw [turns, List.count_append]
    omega

/-- An owner whose transfer has yet to enter steps on fifteen times at most. -/
theorem bound_idle (s : Store) (o : Nat) : Bound { store := s } o 15 := ⟨by simp, fun _ => Nat.le_refl _⟩

theorem entered_le_move (t : Traffic) (m : Move) : t.entered ≤ (t.move m).entered := by
  cases m with
  | enter order => exact Nat.le_succ _
  | openAccount a now => unfold move; dsimp only; split <;> exact Nat.le_refl _
  | step o now => unfold move; dsimp only; split <;> exact Nat.le_refl _
  | stop o => unfold move; dsimp only; split <;> exact Nat.le_refl _
  | _ => exact Nat.le_refl _

theorem entered_le_run (t : Traffic) (moves : List Move) : t.entered ≤ (t.run moves).entered :=
  run_induction (I := fun t' => t.entered ≤ t'.entered) (fun t' m h => Nat.le_trans h (t'.entered_le_move m))
    (Nat.le_refl _) moves

/-- Only who has entered steps on. -/
theorem Orderly.lt_of_mem_turns (h : t.Orderly) {o : Nat} {moves : List Move} (ho : o ∈ t.turns moves) :
    o < (t.run moves).entered := by
  induction moves generalizing t with
  | nil => cases ho
  | cons m moves ih =>
    rcases List.mem_append.1 ho with ho | ho
    · have hlt : o < t.entered := by
        cases m with
        | step o' now =>
          dsimp only [turn] at ho
          split at ho
          · rename_i hstep
            obtain rfl := List.mem_singleton.1 ho
            unfold canStep at hstep
            split at hstep
            · rename_i p hp
              exact Nat.lt_of_not_le (h.entered hp)
            · cases hstep
          · cases ho
        | _ => cases ho
      exact Nat.lt_of_lt_of_le hlt (t.entered_le_run (m :: moves))
    · exact ih (h.move m) ho

/-- All steps of a run together: fifteen for each transfer at most. -/
theorem Orderly.length_turns_le (h : t.Orderly) (hbound : ∀ o, t.Bound o 15) (moves : List Move) :
    (t.turns moves).length ≤ 15 * (t.run moves).entered := by
  have hsub : (t.turns moves).toFinset ⊆ Finset.range (t.run moves).entered := fun o ho =>
    Finset.mem_range.2 (h.lt_of_mem_turns (List.mem_toFinset.1 ho))
  calc (t.turns moves).length = ∑ o ∈ (t.turns moves).toFinset, (t.turns moves).count o :=
        (List.sum_toFinset_count_eq_length _).symm
    _ ≤ (t.turns moves).toFinset.card * 15 :=
        Finset.sum_le_card_nsmul _ _ _ fun o _ => (hbound o).count_turns h moves
    _ ≤ (Finset.range (t.run moves).entered).card * 15 := Nat.mul_le_mul_right _ (Finset.card_le_card hsub)
    _ = 15 * (t.run moves).entered := by rw [Finset.card_range, Nat.mul_comm]

/-! ## No deadlock -/

/-- From a store with no open transaction, let transfers enter, step, be stopped or dropped,
    and accounts come and go, in any order. Then
    1. while a transfer is unfinished, one of them can step;
    2. there is no circle of transfers that wait for each other, and none waits for itself;
    3. nobody steps on more than fifteen times, whatever the others do,
    4. so a schedule has no more than fifteen steps for each transfer;
    5. and when no transfer can step, all of them are finished. -/
theorem deadlock_free {s : Store} (h : s.Idle) (moves : List Move) :
    let t := ({ store := s } : Traffic).run moves
    let turns := ({ store := s } : Traffic).turns moves
    (∀ o, t.isUnfinished o = true → ∃ p, t.canStep p = true) ∧
    (∀ o, ¬ Relation.TransGen t.WaitsFor o o) ∧
    (∀ o, turns.count o ≤ 15) ∧
    turns.length ≤ 15 * t.entered ∧
    ((∀ o, t.canStep o = false) → ∀ o p, t.payments o = some p → p.isFinished = true) := by
  intro t turns
  have ht : t.Orderly := (orderly_idle h).run moves
  have hprogress : ∀ o, t.isUnfinished o = true → ∃ p, t.canStep p = true := fun _ ho => ht.exists_canStep ho
  refine ⟨hprogress, ht.no_cycle, fun o => (bound_idle s o).count_turns (orderly_idle h) moves,
    (orderly_idle h).length_turns_le (bound_idle s) moves, fun hstuck o p hp => ?_⟩
  by_contra hun
  obtain ⟨q, hq⟩ := hprogress o (by simpa [isUnfinished, hp] using hun)
  rw [hstuck q] at hq
  cases hq

/-- Two transfers between the same accounts, the other way round: the second one comes to
    the row that the first one has locked. -/
def crossing : List Move :=
  [.draw, .draw, .openAccount ⟨1, "ann", "EUR", 100, .epoch⟩ .epoch,
      .openAccount ⟨2, "bob", "EUR", 100, .epoch⟩ .epoch, .enter ⟨1, 2, 30⟩, .enter ⟨2, 1, 50⟩] ++
    List.replicate 8 (.step 0 .epoch) ++ List.replicate 8 (.step 1 .epoch)

theorem deadlock_free_crossing :
    Store.Idle {} ∧ (({} : Traffic).run crossing).isUnfinished 1 = true ∧
      (({} : Traffic).run crossing).canStep 1 = false ∧ ∃ p, (({} : Traffic).run crossing).canStep p = true :=
  ⟨Store.idle_empty, by decide +kernel, by decide +kernel,
    (deadlock_free Store.idle_empty crossing).1 1 (by decide +kernel)⟩

end Traffic

end Giro
