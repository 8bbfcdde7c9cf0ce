import Giro.Proofs.Transcript
import Giro.Transfer

/-
  Giro.Proofs.Leads — what is left of a program once its calls were answered.

  `p.Leads l q`: asked from the start of `p`, the calls of the transcript `l` with its
  answers bring the program to `q`. A transcript of a sequence of two programs falls apart
  into one of each (`bind_inv`), so the transcript of a finished transfer is known call
  for call (`transfer_ok`). Programs that look at no id and no time of a record
  (`Blind`) make the same calls on answers of the same gist (`Alike.leads`); a transfer is
  one of them (`transfer_alike`).
-/

namespace Giro

namespace Work

variable {α β : Type}

/-- The calls of the transcript, answered as in it, lead from a program to what is left of it. -/
inductive Leads : Work α → Transcript → Work α → Prop
  | nil {p : Work α} : Leads p [] p
  | call {c : Call} {next : Outcome c.Reply → Work α} (r : Outcome c.Reply) {l : Transcript} {q : Work α} :
      Leads (next r) l q → Leads (call c next) (⟨c, r⟩ :: l) q
  | report {event : Event} {next q : Work α} {l : Transcript} : Leads next l q → Leads (report event next) l q
  | trace {action : Action} {next q : Work α} {l : Transcript} : Leads next l q → Leads (trace action next) l q
  | sleep {ms : Nat} {next q : Work α} {l : Transcript} : Leads next l q → Leads (sleep ms next) l q

theorem Leads.trans {p q r : Work α} {l l' : Transcript} (h : p.Leads l q) (h' : q.Leads l' r) :
    p.Leads (l ++ l') r := by
  induction h with
  | nil => exact h'
  | call a _ ih => exact .call a (ih h')
  | report _ ih => exact .report (ih h')
  | trace _ ih => exact .trace (ih h')
  | sleep _ ih => exact .sleep (ih h')

/-- Steps at which nothing is asked. -/
theorem Leads.skip {p q r : Work α} {l : Transcript} (h : p.Leads l q) (h' : q.Leads [] r) : p.Leads l r := by
  have := h.trans h'
  rwa [List.append_nil] at this

/-- One more answer. -/
theorem Leads.snoc {p : Work α} {l : Transcript} {c : Call} {next : Outcome c.Reply → Work α}
    (h : p.Leads l (.call c next)) (r : Outcome c.Reply) : p.Leads (l ++ [⟨c, r⟩]) (next r) :=
  h.trans (.call r .nil)

/-- The program is over or asks something. -/
def Halts : Work α → Prop
  | done _ => True
  | call .. => True
  | _ => False

/-- A transcript leads to one call or one result at most. -/
theorem Leads.unique {p q q' : Work α} {l : Transcript} (h : p.Leads l q) (hq : q.Halts) (h' : p.Leads l q')
    (hq' : q'.Halts) : q = q' := by
  induction h with
  | nil =>
    cases h' with
    | nil => rfl
    | _ => exact hq.elim
  | call r _ ih =>
    cases h' with
    | call _ h' => exact ih hq h'
  | report _ ih =>
    cases h' with
    | nil => exact hq'.elim
    | report h' => exact ih hq h'
  | trace _ ih =>
    cases h' with
    | nil => exact hq'.elim
    | trace h' => exact ih hq h'
  | sleep _ ih =>
    cases h' with
    | nil => exact hq'.elim
    | sleep h' => exact ih hq h'

theorem leads_done {r : Outcome α} {l : Transcript} {q : Work α} (h : (done r).Leads l q) : l = [] ∧ q = done r := by
  cases h; exact ⟨rfl, rfl⟩

/-! ## Programs in sequence -/

@[simp] theorem bind_eq (p : Work α) (f : α → Work β) : p >>= f = p.bind f := rfl

@[simp] theorem pure_eq (a : α) : (pure a : Work α) = done (.ok a) := rfl

/-- A sequence that is over has its first part over; an error of the first part is the end. -/
theorem bind_inv {p : Work α} {f : α → Work β} {l : Transcript} {r : Outcome β}
    (h : (p.bind f).Leads l (done r)) :
    (∃ e, p.Leads l (done (.error e)) ∧ r = .error e) ∨
      ∃ l₁ l₂ a, l = l₁ ++ l₂ ∧ p.Leads l₁ (done (.ok a)) ∧ (f a).Leads l₂ (done r) := by
  induction p generalizing l with
  | done r' =>
    cases r' with
    | error e =>
      obtain ⟨rfl, hr⟩ := leads_done h
      exact .inl ⟨e, .nil, done.inj hr⟩
    | ok a => exact .inr ⟨[], l, a, rfl, .nil, h⟩
  | call c next ih =>
    cases h with
    | call a h =>
      rcases ih a h with ⟨e, hp, rfl⟩ | ⟨l₁, l₂, b, rfl, hp, hf⟩
      · exact .inl ⟨e, .call a hp, rfl⟩
      · exact .inr ⟨⟨c, a⟩ :: l₁, l₂, b, rfl, .call a hp, hf⟩
  | report event next ih =>
    cases h with
    | report h =>
      rcases ih h with ⟨e, hp, rfl⟩ | ⟨l₁, l₂, b, rfl, hp, hf⟩
      · exact .inl ⟨e, .report hp, rfl⟩
      · exact .inr ⟨l₁, l₂, b, rfl, .report hp, hf⟩
  | trace action next ih =>
    cases h with
    | trace h =>
      rcases ih h with ⟨e, hp, rfl⟩ | ⟨l₁, l₂, b, rfl, hp, hf⟩
      · exact .inl ⟨e, .trace hp, rfl⟩
      · exact .inr ⟨l₁, l₂, b, rfl, .trace hp, hf⟩
  | sleep ms next ih =>
    cases h with
    | sleep h =>
      rcases ih h with ⟨e, hp, rfl⟩ | ⟨l₁, l₂, b, rfl, hp, hf⟩
      · exact .inl ⟨e, .sleep hp, rfl⟩
      · exact .inr ⟨l₁, l₂, b, rfl, .sleep hp, hf⟩

theorem bind_ok {p : Work α} {f : α → Work β} {l : Transcript} {b : β}
    (h : (p.bind f).Leads l (done (.ok b))) :
    ∃ l₁ l₂ a, l = l₁ ++ l₂ ∧ p.Leads l₁ (done (.ok a)) ∧ (f a).Leads l₂ (done (.ok b)) := by
  rcases bind_inv h with ⟨e, -, he⟩ | h
  · cases he
  · exact h

theorem ask_inv {c : Call} {l : Transcript} {r : Outcome c.Reply} (h : (ask c).Leads l (done r)) :
    l = [⟨c, r⟩] := by
  cases h with
  | call a h =>
    obtain ⟨rfl, hr⟩ := leads_done h
    rw [done.inj hr]

theorem tell_bind {event : Event} {f : Unit → Work β} {l : Transcript} {q : Outcome β}
    (h : ((tell event).bind f).Leads l (done q)) : (f ()).Leads l (done q) := by
  cases h with
  | report h => exact h

/-! ## The steps of a transfer -/

theorem createTransfer_ok {order : TransferOrder} {l : Transcript} {t : Transfer}
    (h : (createTransfer order).Leads l (done (.ok t))) : l = [⟨.insertTransfer order, .ok t⟩] := by
  obtain ⟨l₁, l₂, t', rfl, h₁, h₂⟩ := bind_ok h
  obtain ⟨rfl, ht⟩ := leads_done (tell_bind h₂)
  obtain rfl := ask_inv h₁
  cases ht
  rfl

theorem createEntry_ok {account amount : Int} {l : Transcript} {e : Entry}
    (h : (createEntry account amount).Leads l (done (.ok e))) : l = [⟨.insertEntry account amount, .ok e⟩] := by
  obtain ⟨l₁, l₂, e', rfl, h₁, h₂⟩ := bind_ok h
  obtain ⟨rfl, he⟩ := leads_done (tell_bind h₂)
  obtain rfl := ask_inv h₁
  cases he
  rfl

/-- The account is read first, and the sum is written unless it overflows. -/
theorem addBalance_eq (account delta : Int) : addBalance account delta =
    (ask (.get account)).bind fun a =>
      match Amount.add? a.balance delta with
      | none => fail (.balanceOverflow account a.balance delta)
      | some balance => (tell (.applyingDelta account delta balance)).bind fun _ => ask (.update account balance) :=
  rfl

theorem addBalance_ok {account delta : Int} {l : Transcript} {a : Account}
    (h : (addBalance account delta).Leads l (done (.ok a))) :
    ∃ (old : Account) (balance : Int), Amount.add? old.balance delta = some balance ∧
      l = [⟨.get account, .ok old⟩, ⟨.update account balance, .ok a⟩] := by
  rw [addBalance_eq] at h
  obtain ⟨l₁, l₂, old, rfl, h₁, h₂⟩ := bind_ok h
  obtain rfl := ask_inv h₁
  split at h₂
  · obtain ⟨-, he⟩ := leads_done h₂
    cases he
  · rename_i balance hb
    obtain rfl := ask_inv (tell_bind h₂)
    exact ⟨old, balance, hb, rfl⟩

/-- The steps of a transfer in the order in which they come. -/
theorem transfer_eq (order : TransferOrder) : transfer order =
    match Amount.neg? order.amount with
    | none => fail (.validation (.amountOutOfRange order.amount))
    | some debit =>
      (createTransfer order).bind fun t =>
      (createEntry order.source debit).bind fun out =>
      (createEntry order.destination order.amount).bind fun into =>
      if order.source ≤ order.destination then
        (addBalance order.source debit).bind fun source =>
        (addBalance order.destination order.amount).bind fun destination =>
        done (.ok ⟨t, source, destination, out, into⟩)
      else
        (addBalance order.destination order.amount).bind fun destination =>
        (addBalance order.source debit).bind fun source =>
        done (.ok ⟨t, source, destination, out, into⟩) := by
  unfold transfer lockOrder
  cases Amount.neg? order.amount with
  | none => rfl
  | some debit =>
    by_cases hle : order.source ≤ order.destination
    · simp only [hle, if_true, bind_eq, pure_eq]
    · have hne : order.destination ≠ order.source := by omega
      simp only [hle, hne, if_false, bind_eq, pure_eq]

/-- What a transfer that comes to its end was asked and answered: its record, both entries
    and then the two balances, the account with the smaller id first. -/
theorem transfer_ok {order : TransferOrder} {l : Transcript} {receipt : TransferReceipt}
    (h : (transfer order).Leads l (done (.ok receipt))) :
    ∃ (debit : Int) (old old' : Account) (b b' : Int), Amount.neg? order.amount = some debit ∧
      ((order.source ≤ order.destination ∧ Amount.add? old.balance debit = some b ∧
          Amount.add? old'.balance order.amount = some b' ∧
          l = [⟨.insertTransfer order, .ok receipt.transfer⟩, ⟨.insertEntry order.source debit, .ok receipt.debit⟩,
            ⟨.insertEntry order.destination order.amount, .ok receipt.credit⟩,
            ⟨.get order.source, .ok old⟩, ⟨.update order.source b, .ok receipt.source⟩,
            ⟨.get order.destination, .ok old'⟩, ⟨.update order.destination b', .ok receipt.destination⟩]) ∨
        (order.destination < order.source ∧ Amount.add? old.balance order.amount = some b ∧
          Amount.add? old'.balance debit = some b' ∧
          l = [⟨.insertTransfer order, .ok receipt.transfer⟩, ⟨.insertEntry order.source debit, .ok receipt.debit⟩,
            ⟨.insertEntry order.destination order.amount, .ok receipt.credit⟩,
            ⟨.get order.destination, .ok old⟩, ⟨.update order.destination b, .ok receipt.destination⟩,
            ⟨.get order.source, .ok old'⟩, ⟨.update order.source b', .ok receipt.source⟩])) := by
  rw [transfer_eq] at h
  split at h
  · obtain ⟨-, he⟩ := leads_done h
    cases he
  · rename_i debit hdebit
    obtain ⟨l₁, m₁, t, rfl, ht, h₁⟩ := bind_ok h
    obtain ⟨l₂, m₂, out, rfl, hout, h₂⟩ := bind_ok h₁
    obtain ⟨l₃, m₃, into, rfl, hinto, h₃⟩ := bind_ok h₂
    obtain rfl := createTransfer_ok ht
    obtain rfl := createEntry_ok hout
    obtain rfl := createEntry_ok hinto
    clear h h₁ h₂
    split at h₃
    · rename_i hle
      obtain ⟨l₄, m₄, a, rfl, ha, h₄⟩ := bind_ok h₃
      obtain ⟨l₅, m₅, a', rfl, ha', h₅⟩ := bind_ok h₄
      obtain ⟨rfl, hr⟩ := leads_done h₅
      obtain ⟨old, b, hb, rfl⟩ := addBalance_ok ha
      obtain ⟨old', b', hb', rfl⟩ := addBalance_ok ha'
      cases hr
      exact ⟨debit, old, old', b, b', hdebit, .inl ⟨hle, hb, hb', rfl⟩⟩
    · rename_i hle
      obtain ⟨l₄, m₄, a, rfl, ha, h₄⟩ := bind_ok h₃
      obtain ⟨l₅, m₅, a', rfl, ha', h₅⟩ := bind_ok h₄
      obtain ⟨rfl, hr⟩ := leads_done h₅
      obtain ⟨old, b, hb, rfl⟩ := addBalance_ok ha
      obtain ⟨old', b', hb', rfl⟩ := addBalance_ok ha'
      cases hr
      exact ⟨debit, old, old', b, b', hdebit, .inr ⟨by omega, hb, hb', rfl⟩⟩

/-! ## Programs that look at no id and no time -/

/-- Programs that make the same calls and end alike, with values related by `R`, as long as
    their answers have the same gist. -/
inductive Alike (R : α → α → Prop) : Work α → Work α → Prop
  | ok {a b : α} : R a b → Alike R (done (.ok a)) (done (.ok b))
  | error (e : LedgerError) : Alike R (done (.error e)) (done (.error e))
  | call (c : Call) {next next' : Outcome c.Reply → Work α} :
      (∀ r r' : Outcome c.Reply, r.map c.gist = r'.map c.gist → Alike R (next r) (next' r')) →
      Alike R (call c next) (call c next')
  | report (event event' : Event) {p q : Work α} : Alike R p q → Alike R (report event p) (report event' q)
  | trace (action : Action) {p q : Work α} : Alike R p q → Alike R (trace action p) (trace action q)
  | sleep (ms : Nat) {p q : Work α} : Alike R p q → Alike R (sleep ms p) (sleep ms q)

/-- The program never chooses a call by the id or the time of a record. -/
def Blind (p : Work α) : Prop := Alike (fun _ _ => True) p p

theorem Alike.bind {R : α → α → Prop} {S : β → β → Prop} {p q : Work α} {f g : α → Work β} (h : Alike R p q)
    (hfg : ∀ a b, R a b → Alike S (f a) (g b)) : Alike S (p.bind f) (q.bind g) := by
  induction h with
  | ok hab => exact hfg _ _ hab
  | error e => exact .error e
  | call c _ ih => exact .call c ih
  | report event event' _ ih => exact .report event event' ih
  | trace action _ ih => exact .trace action ih
  | sleep ms _ ih => exact .sleep ms ih

theorem Alike.mono {R S : α → α → Prop} {p q : Work α} (h : Alike R p q) (hRS : ∀ a b, R a b → S a b) :
    Alike S p q := by
  induction h with
  | ok hab => exact .ok (hRS _ _ hab)
  | error e => exact .error e
  | call c _ ih => exact .call c ih
  | report event event' _ ih => exact .report event event' ih
  | trace action _ ih => exact .trace action ih
  | sleep ms _ ih => exact .sleep ms ih

theorem alike_ask (c : Call) : Alike (fun a b => c.gist a = c.gist b) (ask c) (ask c) := by
  refine .call c ?_
  intro r r' h
  cases r with
  | error e =>
    cases r' with
    | error e' => cases h; exact .error _
    | ok b => cases h
  | ok a =>
    cases r' with
    | error e' => cases h
    | ok b => exact .ok (Except.ok.inj h)

/-- On answers of the same gist two programs that are alike come equally far. -/
theorem Alike.leads {R : α → α → Prop} {p q p' : Work α} {l l' : Transcript} (h : Alike R p q)
    (hl : l.map Exchange.gist = l'.map Exchange.gist) (hp : p.Leads l p') :
    ∃ q', q.Leads l' q' ∧ Alike R p' q' := by
  induction hp generalizing q l' with
  | nil =>
    obtain rfl := List.map_eq_nil_iff.1 hl.symm
    exact ⟨q, .nil, h⟩
  | call r _ ih =>
    cases h with
    | call c hnext =>
      obtain ⟨⟨c', r'⟩, l'', rfl, he, hl'⟩ := List.map_eq_cons_iff.1 hl.symm
      simp only [Exchange.gist, Prod.mk.injEq] at he
      obtain ⟨rfl, hr⟩ := he
      obtain ⟨q', hq, ha⟩ := ih (hnext r r' hr.symm) hl'.symm
      exact ⟨q', .call r' hq, ha⟩
  | report _ ih =>
    cases h with
    | report _ _ h =>
      obtain ⟨q', hq, ha⟩ := ih h hl
      exact ⟨q', .report hq, ha⟩
  | trace _ ih =>
    cases h with
    | trace _ h =>
      obtain ⟨q', hq, ha⟩ := ih h hl
      exact ⟨q', .trace hq, ha⟩
  | sleep _ ih =>
    cases h with
    | sleep _ h =>
      obtain ⟨q', hq, ha⟩ := ih h hl
      exact ⟨q', .sleep hq, ha⟩

theorem createTransfer_blind (order : TransferOrder) : (createTransfer order).Blind :=
  (alike_ask _).bind fun _ _ _ => .report _ _ (.ok trivial)

theorem createEntry_blind (account amount : Int) : (createEntry account amount).Blind :=
  (alike_ask _).bind fun _ _ _ => .report _ _ (.ok trivial)

/-- On accounts there is nothing but their gist. -/
theorem addBalance_alike (account delta : Int) : Alike Eq (addBalance account delta) (addBalance account delta) := by
  refine (alike_ask (.get account)).bind ?_
  intro a b hab
  obtain rfl : a = b := Gist.account.inj hab
  split
  · exact .error _
  · rename_i balance _
    exact .report _ _ ((alike_ask (.update account balance)).mono fun _ _ h => Gist.account.inj h)

/-- Receipts that show the same accounts. The records in them may have other ids and times. -/
def SameAccounts (r r' : TransferReceipt) : Prop := r.source = r'.source ∧ r.destination = r'.destination

/-- A transfer chooses nothing by the ids it is given. -/
theorem transfer_alike (order : TransferOrder) : Alike SameAccounts (transfer order) (transfer order) := by
  rw [transfer_eq]
  split
  · exact .error _
  · refine (createTransfer_blind order).bind fun _ _ _ => (createEntry_blind ..).bind fun _ _ _ =>
      (createEntry_blind ..).bind fun _ _ _ => ?_
    split
    · refine (addBalance_alike ..).bind ?_
      rintro source _ rfl
      exact (addBalance_alike ..).bind fun _ _ h => .ok ⟨rfl, h⟩
    · refine (addBalance_alike ..).bind ?_
      rintro destination _ rfl
      exact (addBalance_alike ..).bind fun _ _ h => .ok ⟨h, rfl⟩

end Work

end Giro
