import Giro.Proofs.RowLock

/-
  Giro.Proofs.Step — all that one step does to a store.

  Steps are the operations of all owners and the parts of their calls (`Store.Step`), in any
  order. `stepped` says once what a step can do: leave everything but locks and places in
  line as it was, open an account, empty the tables, open a transaction, answer a call, end
  a transaction without a trace, or publish one. What holds along every run is read off
  these cases. Next to it: what an answer draws from the counters (`call_next`), and which
  rows a call locks while nobody waits (`Answered.held_there`).
-/

namespace Giro

/-! ## Calls and commits -/

namespace Call

/-- The counters after an answer. -/
def draw (n : Counters) : (c : Call) → Outcome c.Reply → Counters
  | insertTransfer _, .ok _ => { n with transfer := n.transfer + 1 }
  | insertEntry .., .ok _ => { n with entry := n.entry + 1 }
  | _, _ => n

end Call

namespace Store

variable {s s' : Store} {x : Transaction} {o p : Nat}

theorem stage_next (s : Store) (x : Transaction) (row : Int) : (s.stage x row).2.next = s.next := by
  unfold stage
  split <;> rfl

theorem get_next {row : Int} {r : Poll (Outcome Account)} (h : s.get x row = (r, s')) : s'.next = s.next := by
  cases h ▸ got s x row with
  | staged _ => rfl
  | held _ _ => exact stage_next ..
  | granted g _ _ _ hg => subst hg; exact stage_next ..
  | waits _ _ _ => exact enqueue_next ..
  | missing _ _ _ _ => rfl

theorem update_next {row balance : Int} {r : Poll (Outcome Account)} (h : s.update x row balance = (r, s')) :
    s'.next = s.next := by
  unfold update at h
  split at h
  · rename_i a s₁ hget
    have hnext := get_next hget
    split at h
    · cases h; exact hnext
    · cases h; exact hnext
  · exact get_next h

theorem insertTransfer_next {order : TransferOrder} {now : Instant} {r : Outcome Transfer}
    (h : s.insertTransfer x order now = (r, s')) : s'.next = (Call.insertTransfer order).draw s.next r := by
  unfold insertTransfer at h
  split at h
  · cases h; rfl
  split at h
  · cases h; rfl
  split at h
  · cases h; rfl
  · cases h; rfl

theorem insertEntry_next {account amount : Int} {now : Instant} {r : Outcome Entry}
    (h : s.insertEntry x account amount now = (r, s')) : s'.next = (Call.insertEntry account amount).draw s.next r := by
  unfold insertEntry at h
  split at h
  · cases h; rfl
  · cases h; rfl

/-- An answered call moves the counters by the record that it gives. -/
theorem call_next (hx : s.tx? o = some x) {c : Call} {now : Instant} {r : Outcome c.Reply}
    (h : s.call o c now = (.ready r, s')) : s'.next = c.draw s.next r := by
  simp only [call, hx] at h
  cases c with
  | get row => exact get_next h
  | update row balance => exact update_next h
  | insertTransfer order =>
    simp only [Prod.mk.injEq, Poll.ready.injEq] at h
    exact insertTransfer_next (Prod.ext h.1 h.2)
  | insertEntry account amount =>
    simp only [Prod.mk.injEq, Poll.ready.injEq] at h
    exact insertEntry_next (Prod.ext h.1 h.2)

/-- A transaction whose accounts are all there commits. -/
theorem commit_of_known (hx : s.tx? o = some x) (hthere : ∀ a ∈ x.accounts, s.tables.accounts.has a.id = true) :
    s.commit o = (.ok (), { s.forget o with tables := s.tables.publish x }) := by
  have hnone : List.find? (fun a => !s.tables.accounts.has a.id) x.accounts = none := by simpa using hthere
  simp only [commit, hx, hnone]

/-- A row that is not there, and that the owner neither has nor waits for, is refused at once. -/
theorem call_missing {row : Int} (hx : s.tx? o = some x) {c : Call} (hc : c.row? = some row)
    (hstaged : x.accounts.find? row = none) (hheld : row ∉ x.held) (hline : ⟨o, row⟩ ∉ s.waiting)
    (hrow : s.tables.accounts.has row = false) (now : Instant) : ∃ r, s.call o c now = (.ready r, s) := by
  have hget : s.get x row = (.ready (.error (.accountNotFound row)), s) := by
    rw [← owner_of_tx? hx] at hline
    simp [get, hstaged, hheld, hline, hrow]
  cases c with
  | get r =>
    cases hc
    refine ⟨.error (.accountNotFound row), ?_⟩
    simp only [call, hx, hget]
  | update r balance =>
    cases hc
    refine ⟨.error (.accountNotFound row), ?_⟩
    simp only [call, hx, update, hget]
  | insertTransfer order => cases hc
  | insertEntry account amount => cases hc

/-- With nobody in line, a call locks only a row that is there. -/
theorem Answered.held_there (h : s.Sound) (hx : s.tx? o = some x) (hline : s.waiting = []) {c : Call} {id : Int}
    {now : Instant} {r : Outcome c.Reply} {x' : Transaction} (hc : s.call o c now = (.ready r, s'))
    (ha : Answered s x c id now r s' x') {row : Int} (hrow : row ∈ x'.held) :
    row ∈ x.held ∨ c.row? = some row ∧ s.tables.accounts.has row = true := by
  rcases ha.held with hsame | ⟨locked, hlocked, -, hnot, hnew⟩
  · left
    rwa [hsame] at hrow
  · rw [hnew] at hrow
    rcases List.mem_append.1 hrow with hrow | hrow
    · exact .inl hrow
    · obtain rfl := List.mem_singleton.1 hrow
      refine .inr ⟨hlocked, ?_⟩
      by_contra hmissing
      have hstaged : x.accounts.find? row = none := by
        by_contra hstaged
        exact hnot (h.guarded hx row (Option.isSome_iff_ne_none.2 hstaged))
      obtain ⟨_, hrefused⟩ := call_missing hx hlocked hstaged hnot (by simp [hline])
        (Bool.eq_false_of_not_eq_true hmissing) now
      have hsame : s' = s := (Prod.mk.inj (hc.symm.trans hrefused)).2
      have htx := ha.tx? hx o
      rw [hsame, hx, if_pos rfl] at htx
      obtain rfl := Option.some.inj htx
      exact hnot (by rw [hnew]; simp)

end Store

/-! ## Steps -/

/-- After this move the owner does not have the transaction that it had. -/
def Operation.ends (o : Nat) : Operation → Bool
  | .begin p => p == o
  | .commit p => p == o
  | .drop p => p == o
  | _ => false

namespace Store

def step (s : Store) : Step → Store
  | .operation op => s.apply op
  | .seek o row => s.seek o row
  | .lock o row => s.lock o row

/-- The call that a step gets answered, with the answer. -/
def exchange? (s : Store) : Step → Option Exchange
  | .operation (.call o c now) =>
    match (s.call o c now).1 with
    | .ready r => some ⟨c, r⟩
    | .pending => none
  | _ => none

end Store

/-- The same transaction, with more rows locked at most. -/
structure Transaction.Keeps (x y : Transaction) : Prop where
  owner : y.owner = x.owner
  draft : y.draft = x.draft
  held : ∀ row ∈ x.held, row ∈ y.held

theorem Transaction.Keeps.refl (x : Transaction) : x.Keeps x := ⟨rfl, rfl, fun _ h => h⟩

namespace Store

variable {s s' : Store} {x : Transaction} {o p : Nat}

theorem keeps_of_txs (h : s'.txs = s.txs) : List.Forall₂ Transaction.Keeps s.txs s'.txs := by
  rw [h]
  exact List.forall₂_same.2 fun x _ => .refl x

/-- All that a step can do, with the call that it got answered. -/
inductive Stepped (s : Store) : Step → Option Exchange → Store → Prop
  /-- Locks and places in line at most. -/
  | still {st : Step} {e : Option Exchange} {s' : Store} : (∀ a ∈ e, a.answer.isOk = false) →
      s'.tables = s.tables → s'.next = s.next → List.Forall₂ Transaction.Keeps s.txs s'.txs → Stepped s st e s'
  | opened (owner currency : String) (balance : Int) (now : Instant) :
      Stepped s (.operation (.createAccount owner currency balance now)) none
        (s.createAccount owner currency balance now).2
  | emptied : Stepped s (.operation .clear) none s.clear
  | begun (o : Nat) : Stepped s (.operation (.begin o)) none (s.begin o)
  | answered {o : Nat} {c : Call} {now : Instant} {x x' : Transaction} {r : Outcome c.Reply} {s' : Store} :
      s.tx? o = some x → Answered s x c (c.number s.next) now r s' x' → s'.next = c.draw s.next r →
      Stepped s (.operation (.call o c now)) (some ⟨c, r⟩) s'
  /-- Nothing is left of the transaction. -/
  | ended {st : Step} (o : Nat) : st = .operation (.commit o) ∨ st = .operation (.drop o) →
      Stepped s st none (s.forget o)
  | published {o : Nat} {x : Transaction} : s.tx? o = some x → (∀ a ∈ x.accounts, s.tables.accounts.has a.id = true) →
      Stepped s (.operation (.commit o)) none { s.forget o with tables := s.tables.publish x }

/-- Lining up, or leaving the line, changes nothing else. -/
theorem Stepped.lines {st : Step} {e : Option Exchange} (he : ∀ a ∈ e, a.answer.isOk = false)
    (htables : s'.tables = s.tables) (hnext : s'.next = s.next) (htxs : s'.txs = s.txs) : Stepped s st e s' :=
  .still he htables hnext (keeps_of_txs htxs)

theorem keeps_lock (h : s.Sound) (o : Nat) (row : Int) : List.Forall₂ Transaction.Keeps s.txs (s.lock o row).txs := by
  have hlocked := s.locked o row
  generalize s.lock o row = s' at hlocked ⊢
  cases hlocked with
  | same => exact keeps_of_txs rfl
  | @taken x hx hfree =>
    show List.Forall₂ Transaction.Keeps s.txs (s.txs.map fun y => if y.owner = x.owner then _ else y)
    rw [List.forall₂_map_right_iff, List.forall₂_same]
    intro y hy
    split
    · rename_i howner
      obtain rfl : y = x := List.inj_on_of_nodup_map h.owners hy (mem_of_tx? hx) howner
      exact ⟨rfl, rfl, fun r hr => List.mem_append_left _ hr⟩
    · exact .refl y

theorem stepped (h : s.Sound) (st : Step) : Stepped s st (s.exchange? st) (s.step st) := by
  have hnone {e : Exchange} (he : e ∈ (none : Option Exchange)) : e.answer.isOk = false := by cases he
  cases st with
  | seek o row =>
    refine .lines (fun a ha => hnone ha) ?_ ?_ ?_ <;> rcases s.seek_eq o row with he | ⟨-, he⟩ <;> rw [step, he]
    · exact enqueue_tables ..
    · exact enqueue_next ..
    · exact enqueue_txs ..
  | lock o row =>
    have htables : (s.lock o row).tables = s.tables ∧ (s.lock o row).next = s.next := by
      have hlocked := s.locked o row
      generalize s.lock o row = s' at hlocked ⊢
      cases hlocked with
      | same => exact ⟨rfl, rfl⟩
      | taken _ _ => exact ⟨rfl, rfl⟩
    exact .still (fun a ha => hnone ha) htables.1 htables.2 (keeps_lock h o row)
  | operation op =>
    cases op with
    | createAccount owner currency balance now => exact .opened ..
    | clear => exact .emptied
    | begin o => exact .begun o
    | leave o => exact .lines (fun a ha => hnone ha) rfl rfl rfl
    | drop o => exact .ended o (.inr rfl)
    | call o c now =>
      rcases hc : s.call o c now with ⟨r, s'⟩
      rw [exchange?, step, apply, hc]
      cases hc ▸ asked h o c now with
      | ended hn =>
        refine .lines ?_ rfl rfl rfl
        rintro a ⟨⟩
        rfl
      | answered hx ha =>
        obtain ⟨x', hdrawn⟩ := call_ready h hx hc
        exact .answered hx hdrawn (call_next hx hc)
      | waits hx _ _ _ _ => exact .lines (fun a ha => hnone ha) (enqueue_tables ..) (enqueue_next ..) (enqueue_txs ..)
    | commit o =>
      rcases hc : s.commit o with ⟨r, s'⟩
      show Stepped s _ none (s.commit o).2
      rw [hc]
      cases hc ▸ committed s o with
      | noTx _ => exact .lines (fun a ha => hnone ha) rfl rfl rfl
      | gone _ _ => exact .ended o (.inl rfl)
      | done hx hknown => exact .published hx hknown

/-- The parts of a call change locks and places in line at most. -/
theorem Stepped.parts {st : Step} {e : Option Exchange} (h : Stepped s st e s') (hst : ∀ op, st ≠ .operation op) :
    s'.tables = s.tables ∧ s'.next = s.next ∧ List.Forall₂ Transaction.Keeps s.txs s'.txs := by
  cases h with
  | still _ htables hnext htxs => exact ⟨htables, hnext, htxs⟩
  | ended _ hend => rcases hend with rfl | rfl <;> exact absurd rfl (hst _)
  | _ => exact absurd rfl (hst _)

theorem rel_of_keeps (h : List.Forall₂ Transaction.Keeps s.txs s'.txs) (o : Nat) :
    Option.Rel Transaction.Keeps (s.tx? o) (s'.tx? o) := by
  unfold tx?
  generalize s.txs = txs, s'.txs = txs' at h
  induction h with
  | nil => exact .none
  | @cons x y txs txs' hxy _ ih =>
    rw [find?_owner_cons, find?_owner_cons, hxy.owner]
    split
    · exact .some hxy
    · exact ih

theorem tx?_of_keeps (h : List.Forall₂ Transaction.Keeps s.txs s'.txs) {y : Transaction} (hy : s'.tx? o = some y) :
    ∃ x, s.tx? o = some x ∧ x.Keeps y := by
  have hrel := rel_of_keeps h o
  rw [hy] at hrel
  generalize s.tx? o = x at hrel
  cases hrel with
  | some hkeeps => exact ⟨_, rfl, hkeeps⟩

theorem keeps_of_tx? (h : List.Forall₂ Transaction.Keeps s.txs s'.txs) (hx : s.tx? o = some x) :
    ∃ y, s'.tx? o = some y ∧ x.Keeps y := by
  have hrel := rel_of_keeps h o
  rw [hx] at hrel
  generalize s'.tx? o = y at hrel
  cases hrel with
  | some hkeeps => exact ⟨_, rfl, hkeeps⟩

/-- Who has no transaction open has one only after opening one. -/
theorem Stepped.tx?_none {st : Step} {e : Option Exchange} (h : Stepped s st e s') (hp : s.tx? p = none)
    (hst : st ≠ .operation (.begin p)) : s'.tx? p = none := by
  cases h with
  | still _ _ _ htxs =>
    cases hy : s'.tx? p with
    | none => rfl
    | some y =>
      obtain ⟨x, hx, -⟩ := tx?_of_keeps htxs hy
      rw [hp] at hx
      cases hx
  | opened => rwa [tx?_of_txs (createAccount_txs ..)]
  | emptied => exact hp
  | begun o =>
    have hne : p ≠ o := by
      intro heq
      subst heq
      exact hst rfl
    rwa [tx?_begin, if_neg hne]
  | @answered o c now x x' r _ hx ha _ =>
    have hne : p ≠ o := by
      intro heq
      subst heq
      rw [hx] at hp
      cases hp
    rwa [ha.tx? hx, if_neg hne]
  | ended o _ =>
    rw [tx?_forget]
    split
    · rfl
    · exact hp
  | @published o x _ _ =>
    show (s.forget o).tx? p = none
    rw [tx?_forget]
    split
    · rfl
    · exact hp

/-- Who does not end its transaction, and gets no answer, keeps it. -/
theorem Stepped.keeps {st : Step} {e : Option Exchange} (h : Stepped s st e s') (hx : s.tx? p = some x)
    (hends : ∀ op, st = .operation op → op.ends p = false)
    (hcall : ∀ c now, st = .operation (.call p c now) → e = none) : ∃ y, s'.tx? p = some y ∧ x.Keeps y := by
  have hsame (htx : s'.tx? p = s.tx? p) : ∃ y, s'.tx? p = some y ∧ x.Keeps y := ⟨x, htx.trans hx, .refl x⟩
  cases h with
  | still _ _ _ htxs => exact keeps_of_tx? htxs hx
  | opened => exact hsame (tx?_of_txs (createAccount_txs ..) p)
  | emptied => exact hsame rfl
  | begun o =>
    have hne : p ≠ o := by
      intro heq
      subst heq
      simpa [Operation.ends] using hends _ rfl
    exact hsame (by rw [tx?_begin, if_neg hne])
  | @answered o c now y x' r _ hy ha _ =>
    have hne : p ≠ o := by
      intro heq
      subst heq
      cases hcall c now rfl
    exact hsame (by rw [ha.tx? hy, if_neg hne])
  | ended o hend =>
    have hne : p ≠ o := by
      intro heq
      subst heq
      rcases hend with rfl | rfl <;> simpa [Operation.ends] using hends _ rfl
    exact hsame (by rw [tx?_forget, if_neg hne])
  | @published o y _ _ =>
    have hne : p ≠ o := by
      intro heq
      subst heq
      simpa [Operation.ends] using hends _ rfl
    exact hsame ((tx?_forget s o p).trans (if_neg hne))

/-! ## The other open transactions -/

/-- The open transactions are an owner's own and those that are left without it. -/
theorem txs_perm (hu : (s.txs.map (·.owner)).Nodup) (hx : s.tx? o = some x) :
    s.txs.Perm (x :: (s.forget o).txs) := by
  have hothers : (s.forget o).txs = s.txs.erase x := by
    rw [hu.of_map.erase_eq_filter]
    refine List.filter_congr ?_
    intro y hy
    by_cases hyx : y = x
    · simp [hyx, owner_of_tx? hx]
    · have howner : y.owner ≠ o := by
        intro e
        exact hyx (List.inj_on_of_nodup_map hu hy (mem_of_tx? hx) (e.trans (owner_of_tx? hx).symm))
      exact (bne_iff_ne.2 howner).trans (bne_iff_ne.2 hyx).symm
  rw [hothers]
  exact List.perm_cons_erase (mem_of_tx? hx)

theorem forget_setTx (s : Store) (x : Transaction) : ((s.setTx x).forget x.owner).txs = (s.forget x.owner).txs := by
  show (s.txs.map fun y => if y.owner = x.owner then x else y).filter (·.owner != x.owner) =
    s.txs.filter (·.owner != x.owner)
  induction s.txs with
  | nil => rfl
  | cons y txs ih =>
    by_cases hy : y.owner = x.owner
    · simp [hy, ih]
    · simp [hy, ih]

/-- An answer changes its owner's transaction alone. -/
theorem Answered.txs_perm {c : Call} {id : Int} {now : Instant} {r : Outcome c.Reply} {x' : Transaction}
    (ha : Answered s x c id now r s' x') (hu : (s.txs.map (·.owner)).Nodup) (hx : s.tx? o = some x) :
    s'.txs.Perm (x' :: (s.forget o).txs) := by
  have howner : x'.owner = o := ha.owner.trans (owner_of_tx? hx)
  have htx : s'.tx? o = some x' := (ha.tx? hx o).trans (if_pos rfl)
  have hothers : (s'.forget o).txs = (s.forget o).txs := by
    have := forget_setTx s x'
    rw [howner] at this
    rw [← this, forget, forget, ha.txs]
  rw [← hothers]
  exact Store.txs_perm (by rwa [ha.txs, owners_setTx]) htx

theorem Sound.step (h : s.Sound) (st : Step) : (s.step st).Sound := by
  cases st with
  | operation op => exact h.apply op
  | seek o row => exact h.seek o row
  | lock o row => exact h.lock o row

theorem step_line (h : s.Sound) (hline : ∀ r ∈ s.waiting, ∃ x, s.tx? r.owner = some x) (st : Step) :
    ∀ r ∈ (s.step st).waiting, ∃ x, (s.step st).tx? r.owner = some x := by
  cases st with
  | operation op => exact apply_line h hline op
  | seek o row => exact seek_line hline o row
  | lock o row => exact lock_line hline o row

/-- Without open transactions nobody waits. -/
theorem idle_of_line (h : s.Sound) (hline : ∀ r ∈ s.waiting, ∃ x, s.tx? r.owner = some x) (htxs : s.txs = []) :
    s.Idle := by
  refine ⟨htxs, List.eq_nil_iff_forall_not_mem.2 ?_, h.sorted⟩
  intro r hr
  obtain ⟨x, hx⟩ := hline r hr
  have hmem := mem_of_tx? hx
  rw [htxs] at hmem
  cases hmem

/-- The step opens an account. -/
def Step.Opens (st : Step) : Prop :=
  ∃ owner currency balance now, st = .operation (.createAccount owner currency balance now)

/-- Which accounts there are changes by opening one and by emptying alone. -/
theorem Sound.has_step (h : s.Sound) {st : Step} (hopens : ¬ st.Opens) (hclear : st ≠ .operation .clear) (row : Int) :
    (s.step st).tables.accounts.has row = s.tables.accounts.has row := by
  have hstepped := stepped h st
  generalize s.exchange? st = e, s.step st = s' at hstepped ⊢
  cases hstepped with
  | still _ htables _ _ => rw [htables]
  | opened => exact absurd ⟨_, _, _, _, rfl⟩ hopens
  | emptied => exact absurd rfl hclear
  | begun o => rfl
  | answered _ ha _ => rw [ha.tables]
  | ended o _ => rfl
  | published hx hknown => exact h.has_publish hx hknown row

/-- The next id of an account is drawn by opening one alone. -/
theorem nextAccount_step (h : s.Sound) {st : Step} (hopens : ¬ st.Opens) :
    (s.step st).next.account = s.next.account := by
  have hstepped := stepped h st
  generalize s.exchange? st = e, s.step st = s' at hstepped ⊢
  cases hstepped with
  | still _ _ hnext _ => rw [hnext]
  | opened => exact absurd ⟨_, _, _, _, rfl⟩ hopens
  | answered _ ha _ => exact ha.nextAccount
  | _ => rfl

end Store

end Giro
