import Giro.Proofs.Books
import Giro.Proofs.Traffic

/-
  Giro.Proofs.Integrity — the books are in order in every state that traffic reaches.

  Each transfer on its way follows its transcript (`Payment.Follows`). Before its commit it
  leaves the tables alone, and its commit posts it whole (`Turn.settles`); so from an empty
  store the audit finds nothing wrong and all the money that was put in, whatever is
  opened, emptied, cancelled or dropped in between.
-/

namespace Giro

/-- The transfer has come as far as its transcript says. -/
def Payment.Follows (p : Payment) (l : Transcript) : Prop :=
  match p.stage with
  | .opening => p.work = .transfer p.order
  | .working => (Work.transfer p.order).Leads l p.work
  | .committing receipt => (Work.transfer p.order).Leads l (.done (.ok receipt))
  | _ => True

/-- One step of a transfer follows on, and it leaves the tables or posts the transfer. -/
theorem Payment.Turn.settles {s : Store} {p : Payment} {o : Nat} {now : Instant} {ops : List Operation}
    {r : Payment × Store} (ht : Turn o now s p ops r) {w : Watch} (hw : w.store = s) (h : w.Kept)
    (hp : p.Follows (w.logs o)) :
    r.1.Follows ((w.run ops).logs o) ∧
      (r.2.tables = s.tables ∨
        ∃ receipt, p.stage = .committing receipt ∧ r.2.tables = s.tables.post receipt ∧ receipt.Settles p.order ∧
          s.tables.accounts.has p.order.source = true ∧ s.tables.accounts.has p.order.destination = true) := by
  subst hw
  unfold Follows at hp
  cases ht with
  | begins hs =>
    simp only [hs] at hp
    refine ⟨?_, .inl rfl⟩
    show (Work.transfer p.order).Leads ((w.apply (.begin o)).logs o) p.work
    rw [hp, show (w.apply (.begin o)).logs o = [] from Function.update_self ..]
    exact .nil
  | @goesOn next hs hnext =>
    simp only [hs] at hp
    refine ⟨?_, .inl rfl⟩
    simp only [Follows, hs, Watch.run_nil]
    have hskip : p.work.Leads [] next := by
      rcases hnext with ⟨e, hw⟩ | ⟨a, hw⟩ | ⟨ms, hw⟩ <;> rw [hw]
      · exact .report .nil
      · exact .trace .nil
      · exact .sleep .nil
    exact hp.skip hskip
  | @asks c next r s' hs hw hc =>
    simp only [hs, hw] at hp
    refine ⟨?_, .inl ?_⟩
    · simp only [Follows, hs, Watch.run_cons, Watch.run_nil]
      rw [w.apply_call hc, Watch.noted_ready]
      exact hp.snoc r
    · have := Store.apply_tables h.sound (.call o c now) rfl (by simp)
      rwa [Store.apply, hc] at this
  | @waits c next s' hs hw hc =>
    simp only [hs] at hp
    refine ⟨?_, .inl ?_⟩
    · simp only [Follows, hs, Watch.run_cons, Watch.run_nil]
      rw [w.apply_call hc]
      exact hp
    · have := Store.apply_tables h.sound (.call o c now) rfl (by simp)
      rwa [Store.apply, hc] at this
  | agrees hs hw =>
    simp only [hs, hw] at hp
    exact ⟨hp, .inl rfl⟩
  | fails hs hw => exact ⟨trivial, .inl rfl⟩
  | @commits receipt s' hs hc =>
    simp only [hs] at hp
    refine ⟨trivial, .inr ⟨receipt, hs, ?_⟩⟩
    obtain ⟨x, hx, hknown, rfl⟩ := Store.commit_ok hc
    exact h.settle hx hknown hp
  | refused hs hc =>
    refine ⟨trivial, .inl ?_⟩
    rcases Store.commit_error hc with rfl | rfl <;> rfl
  | rollsBack hs => exact ⟨trivial, .inl rfl⟩
  | rests hs =>
    refine ⟨?_, .inl rfl⟩
    simp only [Follows, hs]

namespace Traffic

/-- The accounts there are now, as they were opened. -/
def present (t : Traffic) : List Account := t.opened.filter fun a => t.store.tables.accounts.has a.id

/-- What every move keeps: each transfer follows its transcript in a watched store, ids are
    put once, and the books are in order. -/
structure InOrder (t : Traffic) : Prop where
  watched : ∃ w : Watch, w.store = t.store ∧ w.KeptWith t.drawn ∧
    ∀ o p, t.payments o = some p → p.Follows (w.logs o)
  ids : ∀ a ∈ t.opened, a.id < t.store.next.account ∧ a.id ∉ t.drawn
  books : t.store.tables.Books t.present

theorem inOrder_empty : InOrder {} where
  watched := ⟨{ store := {} }, rfl, .empty, fun o p h => by cases h⟩
  ids a h := by cases h
  books := .empty

variable {t : Traffic}

theorem InOrder.draw (h : t.InOrder) : (t.move .draw).InOrder := by
  obtain ⟨w, hw, hkept, hfollows⟩ := h.watched
  refine ⟨⟨w.drawAccount, ?_, ?_, hfollows⟩, ?_, h.books⟩
  · rw [Watch.drawAccount, hw]; rfl
  · have hdraw := hkept.drawAccount
    rwa [hw] at hdraw
  · intro a ha
    obtain ⟨hlt, hput⟩ := h.ids a ha
    refine ⟨Int.lt_trans hlt (Int.lt_succ _), ?_⟩
    simpa [move, hput] using Int.ne_of_lt hlt

theorem InOrder.openAccount (h : t.InOrder) {a : Account} (ha : a.id ∈ t.drawn) (now : Instant) :
    (t.move (.openAccount a now)).InOrder := by
  obtain ⟨w, hw, hkept, hfollows⟩ := h.watched
  have hnew : t.store.tables.accounts.has a.id = false := hw ▸ hkept.has_eq_false ha
  rw [t.move_openAccount ha]
  constructor
  · exact ⟨w.putAccount a now, by rw [Watch.putAccount, hw], hkept.putAccount ha now, hfollows⟩
  · intro b hb
    dsimp only
    rw [Store.putAccount_nextAccount]
    rcases List.mem_append.1 hb with hb | hb
    · exact ⟨(h.ids b hb).1, fun hmem => (h.ids b hb).2 (List.mem_of_mem_erase hmem)⟩
    · obtain rfl := List.mem_singleton.1 hb
      have hissued := hkept.issued b.id (hkept.awaits.symm ▸ ha)
      have honce := hkept.drawn.not_mem_erase (a := b.id)
      rw [hw] at hissued
      rw [hkept.awaits] at honce
      exact ⟨hissued, honce⟩
  · have hpresent : (t.opened ++ [a]).filter (fun b => (Rows.put a t.store.tables.accounts).has b.id) =
        t.present ++ [a] := by
      rw [List.filter_append]
      congr 1
      · refine List.filter_congr ?_
        intro b hb
        have hne : b.id ≠ a.id := fun e => (h.ids b hb).2 (e ▸ ha)
        rw [Rows.has_put h.books.sorted, decide_eq_false hne, Bool.false_or]
      · simp [Rows.has_put h.books.sorted]
    simp only [present, Store.putAccount_tables]
    rw [hpresent]
    refine h.books.opened hnew ?_
    split <;> rfl

theorem InOrder.clear (h : t.InOrder) : (t.move .clear).InOrder := by
  obtain ⟨w, hw, hkept, hfollows⟩ := h.watched
  constructor
  · exact ⟨w.apply .clear, by rw [Watch.apply_store, hw]; rfl, hkept.apply _, hfollows⟩
  · exact h.ids
  · have hpresent : (t.move .clear).present = [] := List.filter_eq_nil_iff.2 fun a _ => by
      show ¬ Rows.has [] a.id = true
      simp
    rw [hpresent]
    exact .empty

/-- Operations of one owner that leave the tables or post a transfer, and make of the owner's
    transfer one that follows its transcript, or none. -/
theorem InOrder.moved (h : t.InOrder) {o : Nat} (ops : List Operation) {q : Option Payment}
    (hops : ∀ op ∈ ops, op.owner? = some o)
    (hmove : ∀ w : Watch, w.store = t.store → w.Kept → (∀ p, t.payments o = some p → p.Follows (w.logs o)) →
      (∀ p, q = some p → p.Follows ((w.run ops).logs o)) ∧
      ((t.store.run ops).tables = t.store.tables ∨
        ∃ receipt order, (t.store.run ops).tables = t.store.tables.post receipt ∧ receipt.Settles order ∧
          t.store.tables.accounts.has order.source = true ∧ t.store.tables.accounts.has order.destination = true)) :
    InOrder { t with store := t.store.run ops, payments := Function.update t.payments o q } := by
  obtain ⟨w, hw, hkept, hfollows⟩ := h.watched
  obtain ⟨hq, htables⟩ := hmove w hw hkept.toKept (hfollows o)
  have hnext : (t.store.run ops).next.account = t.store.next.account :=
    Store.run_nextAccount (hw ▸ hkept.sound) fun op hop => by rw [Operation.OfTx, hops op hop]; rfl
  refine ⟨⟨w.run ops, by rw [Watch.run_store, hw], hkept.run ops, ?_⟩, ?_, ?_⟩
  · refine (Function.forall_update_iff t.payments fun p q =>
      ∀ p', q = some p' → p'.Follows ((w.run ops).logs p)).2 ⟨hq, ?_⟩
    intro p hp p' hp'
    rw [w.run_logs (Operation.not_of_other hops hp)]
    exact hfollows p p' hp'
  · intro a ha
    rw [hnext]
    exact h.ids a ha
  · rcases htables with htables | ⟨receipt, order, htables, hsettles, hsource, hdestination⟩
    · simp only [present, htables]
      exact h.books
    · simp only [present, htables, Tables.has_post]
      exact h.books.post hsettles hsource hdestination

theorem InOrder.step (h : t.InOrder) (o : Nat) (now : Instant) : (t.move (.step o now)).InOrder := by
  unfold Traffic.move
  dsimp only
  split
  · exact h
  · rename_i p hp
    obtain ⟨ops, hturn⟩ := p.turn o now t.store
    rw [put, hturn.store]
    refine h.moved ops hturn.owner? ?_
    intro w hw hkept hfollows
    obtain ⟨hnext, htables⟩ := hturn.settles hw hkept (hfollows p hp)
    refine ⟨fun p' hp' => Option.some.inj hp' ▸ hnext, ?_⟩
    rw [hturn.store] at htables
    rcases htables with htables | ⟨receipt, -, htables, hrest⟩
    · exact .inl htables
    · exact .inr ⟨receipt, p.order, htables, hrest⟩

/-- The stop signal takes a transfer out of its work, and of the line. -/
theorem InOrder.stop (h : t.InOrder) (o : Nat) : (t.move (.stop o)).InOrder := by
  unfold Traffic.move
  dsimp only
  split
  · exact h
  · rename_i p hp
    unfold put Payment.stop
    split
    · exact h.moved [] (by simp) fun w _ _ _ => ⟨by rintro _ ⟨⟩; trivial, .inl rfl⟩
    · exact h.moved [.leave o] (by simp [Operation.owner?]) fun w _ _ _ => ⟨by rintro _ ⟨⟩; trivial, .inl rfl⟩
    · exact h.moved [] (by simp) fun w _ _ hfollows =>
        ⟨fun p' hp' => Option.some.inj hp' ▸ hfollows p hp, .inl rfl⟩

theorem InOrder.move (h : t.InOrder) (m : Move) : (t.move m).InOrder := by
  cases m with
  | draw => exact h.draw
  | openAccount a now =>
    by_cases ha : a.id ∈ t.drawn
    · exact h.openAccount ha now
    · rw [t.move_openAccount_of_not_drawn ha]
      exact h
  | clear => exact h.clear
  | enter order =>
    obtain ⟨w, hw, hkept, hfollows⟩ := h.watched
    refine ⟨⟨w, hw, hkept, ?_⟩, h.ids, h.books⟩
    refine (Function.forall_update_iff t.payments fun o q =>
      ∀ p, q = some p → p.Follows (w.logs o)).2 ⟨?_, fun o _ => hfollows o⟩
    rintro p ⟨⟩
    rfl
  | step o now => exact h.step o now
  | stop o => exact h.stop o
  | drop o => exact h.moved [.drop o] (by simp [Operation.owner?]) fun w _ _ _ => ⟨by simp, .inl rfl⟩

/-! ## The audit of every reachable state -/

theorem InOrder.audit (h : t.InOrder) :
    let report := (Audit.ofRows t.store.tables.accounts t.store.tables.entries t.store.tables.transfers).report
    report.isValid = true ∧ report.issues = [] ∧
      report.totalBalance = Audit.total (t.opened.filter fun a => t.store.tables.accounts.has a.id) := by
  intro report
  have hissues := Audit.issues_eq_nil h.books.doubleEntry
  refine ⟨?_, ?_, h.books.total⟩
  · show List.isEmpty _ = true
    rw [hissues]
    rfl
  · show List.map _ _ = []
    rw [hissues]
    rfl

theorem inOrder_run (moves : List Move) : (({} : Traffic).run moves).InOrder :=
  run_induction (fun _ m h => h.move m) inOrder_empty moves

/-- Whatever moves there were since the store was empty, the audit of the tables finds
    nothing, and the money is what the accounts there are now were opened with. -/
theorem audit_run (moves : List Move) :
    let t := ({} : Traffic).run moves
    let report := (Audit.ofRows t.store.tables.accounts t.store.tables.entries t.store.tables.transfers).report
    report.isValid = true ∧ report.issues = [] ∧
      report.totalBalance = Audit.total (t.opened.filter fun a => t.store.tables.accounts.has a.id) :=
  (inOrder_run moves).audit

end Traffic

end Giro
