import Giro.Proofs.Solo

/-
  Giro.Proofs.Settlement — all that a transfer does in a store at rest, whatever state it is
  in and whatever the order says.

  `Store.settle` says it without a program, a transaction or a lock: which of the five ways
  to fail comes first, which change of which balance is the one that does not fit a row, and
  what is written when nothing fails. The program asks for accounts in the order of their ids
  and reads back what it has staged itself; `overflow` makes its two changes one after the
  other on a function (`eval_changes`), so that an order from an account to itself needs no
  case of its own.

  Main statement: `transfer_at_rest`.
-/

namespace Giro

/-! ## What a transfer comes to -/

/-- The changes that a transfer makes to balances, in the order in which it makes them: the
    smaller id goes first, and of one account the debit. -/
def TransferOrder.changes (order : TransferOrder) : List Audit.Leg :=
  if order.source ≤ order.destination then
    [⟨order.source, -order.amount⟩, ⟨order.destination, order.amount⟩]
  else [⟨order.destination, order.amount⟩, ⟨order.source, -order.amount⟩]

/-- Changes balances one after the other; the first that no row can store is the error. -/
def overflow (balance : Int → Int) : List Audit.Leg → Option LedgerError
  | [] => none
  | leg :: changes =>
    let sum := balance leg.account + leg.amount
    if Amount.Fits sum then overflow (Function.update balance leg.account sum) changes
    else some (.balanceOverflow leg.account (balance leg.account) leg.amount)

/-- An account once the money has moved. -/
def TransferOrder.move (order : TransferOrder) (a : Account) : Account :=
  { a with balance := a.balance - (if order.source = a.id then order.amount else 0) +
      if order.destination = a.id then order.amount else 0 }

/-- What a transfer writes, with the next ids. The source is shown without the credit, also
    when it is the destination. -/
def TransferOrder.receipt (order : TransferOrder) (n : Counters) (now : Instant) (a b : Account) :
    TransferReceipt where
  transfer := ⟨n.transfer, order.source, order.destination, order.amount, now⟩
  source := { a with balance := a.balance - order.amount }
  destination := order.move b
  debit := ⟨n.entry, order.source, -order.amount, now⟩
  credit := ⟨n.entry + 1, order.destination, order.amount, now⟩

namespace Store

/-- The balance of an account; of one that is not there it is zero. -/
def balance (s : Store) (id : Int) : Int := (s.account? id).elim 0 (·.balance)

/-- What comes of an order in a store at rest. An overflow leaves the tables as they are, but
    the ids of the transfer and of its two entries are gone. -/
def settle (s : Store) (now : Instant) (order : TransferOrder) : Outcome TransferReceipt × Store :=
  let drawn : Counters := { s.next with transfer := s.next.transfer + 1, entry := s.next.entry + 2 }
  if order.amount = Amount.least then (.error (.validation (.amountOutOfRange order.amount)), s)
  else
    match s.account? order.source with
    | none => (.error (.accountNotFound order.source), s)
    | some a =>
      match s.account? order.destination with
      | none => (.error (.accountNotFound order.destination), s)
      | some b =>
        if order.amount ≤ 0 then (.error (.storage (.amountNotPositive order.amount)), s)
        else
          match overflow s.balance order.changes with
          | some e => (.error e, { s with next := drawn })
          | none =>
            let r := order.receipt s.next now a b
            (.ok r, { s with
              next := drawn
              tables := {
                accounts := s.tables.accounts.map order.move
                transfers := s.tables.transfers ++ [r.transfer]
                entries := s.tables.entries ++ [r.debit, r.credit] } })

end Store

/-! ## The steps of the program -/

theorem Amount.neg?_eq {n : Int} (h : Fits n) : neg? n = if n = least then none else some (-n) := by
  have hfits : Fits (-n) ↔ ¬ n = least := by
    simp only [Fits, least, greatest] at h ⊢
    omega
  unfold neg? fit?
  by_cases hn : n = least
  · rw [if_pos hn, if_neg (by rw [hfits]; exact not_not_intro hn)]
  · rw [if_neg hn, if_pos (hfits.2 hn)]

theorem Tables.look_stage {d : Tables} (hd : d.accounts.Sorted) (rows : Rows) (a : Account) (row : Int) :
    (d.stage a).look rows row = if row = a.id then some a else d.look rows row := by
  unfold look stage
  rw [Rows.find?_put hd]
  split <;> rfl

namespace Work

variable {rows : Rows} {now : Instant} {z : Solo}

theorem eval_ask (c : Call) : (ask c).eval rows now z = z.answer rows now c := rfl

/-- Reporting what was written changes nothing. -/
theorem eval_told (c : Call) (event : c.Reply → Event) :
    ((ask c).bind fun a => (tell (event a)).bind fun _ => done (.ok a)).eval rows now z = z.answer rows now c := by
  rw [eval_bind, eval_ask]
  rcases z.answer rows now c with ⟨_ | _, _⟩ <;> rfl

/-- A record of a transfer, with the next id, or what speaks against it. -/
theorem eval_createTransfer (order : TransferOrder) :
    (createTransfer order).eval rows now z =
      if !rows.has order.source then (.error (.accountNotFound order.source), z)
      else if !rows.has order.destination then (.error (.accountNotFound order.destination), z)
      else if order.amount ≤ 0 then (.error (.storage (.amountNotPositive order.amount)), z)
      else
        let t := ⟨z.next.transfer, order.source, order.destination, order.amount, now⟩
        (.ok t, ⟨{ z.draft with transfers := z.draft.transfers ++ [t] },
          { z.next with transfer := z.next.transfer + 1 }⟩) := by
  refine (eval_told (.insertTransfer order) fun t => .transferWritten t.id order).trans ?_
  simp only [Solo.answer, Tables.answer]
  split_ifs <;> rfl

/-- An entry, with the next id. -/
theorem eval_createEntry (account amount : Int) :
    (createEntry account amount).eval rows now z =
      if !rows.has account then (.error (.accountNotFound account), z)
      else
        let e := ⟨z.next.entry, account, amount, now⟩
        (.ok e, ⟨{ z.draft with entries := z.draft.entries ++ [e] },
          { z.next with entry := z.next.entry + 1 }⟩) := by
  refine (eval_told (.insertEntry account amount) fun e => .entryWritten e.id account amount).trans ?_
  simp only [Solo.answer, Tables.answer]
  split_ifs <;> rfl

/-- A change of a balance, asked for in a draft in which the account stands as `a`. -/
theorem eval_addBalance (now : Instant) (hz : z.draft.accounts.Sorted) {row : Int} {a : Account}
    (ha : z.draft.look rows row = some a) (delta : Int) :
    (¬ Amount.Fits (a.balance + delta) ∧ ∃ d, (addBalance row delta).eval rows now z =
      (.error (.balanceOverflow row a.balance delta), ⟨d, z.next⟩)) ∨
    (Amount.Fits (a.balance + delta) ∧ ∃ d : Tables, (addBalance row delta).eval rows now z =
        (.ok { a with balance := a.balance + delta }, ⟨d, z.next⟩) ∧
      d.accounts.Sorted ∧
      ∀ r, d.look rows r =
        if r = row then some { a with balance := a.balance + delta } else z.draft.look rows r) := by
  have hid : a.id = row := Tables.id_of_look ha
  have hget : (ask (.get row)).eval rows now z = (.ok a, ⟨z.draft.stage a, z.next⟩) := by
    show Solo.answer rows now z (.get row) = _
    simp only [Solo.answer, Tables.answer, ha]
    rfl
  rw [addBalance_eq, eval_bind_ok hget, Amount.add?, Amount.fit?]
  have hstaged : (z.draft.stage a).accounts.Sorted := hz.put a
  have hlook : (z.draft.stage a).look rows row = some a := by
    rw [Tables.look_stage hz, if_pos hid.symm]
  by_cases hfits : Amount.Fits (a.balance + delta)
  · right
    rw [if_pos hfits]
    refine ⟨hfits, (z.draft.stage a).stage { a with balance := a.balance + delta }, ?_, hstaged.put _, ?_⟩
    · show Solo.answer rows now ⟨z.draft.stage a, z.next⟩ (.update row (a.balance + delta)) = _
      simp only [Solo.answer, Tables.answer, hlook]
      rfl
    · intro r
      rw [Tables.look_stage hstaged, Tables.look_stage hz]
      show (if r = a.id then _ else if r = a.id then _ else _) = _
      rw [hid]
      split <;> rfl
  · left
    rw [if_neg hfits]
    exact ⟨hfits, _, rfl⟩

/-- Two changes one after the other. The second account may be the first, as that was left. -/
theorem eval_changes (now : Instant) (hz : z.draft.accounts.Sorted) {balance : Int → Int} {row row' : Int}
    {a b : Account} (ha : z.draft.look rows row = some a) (hb : z.draft.look rows row' = some b)
    (hbalance : balance row = a.balance) (hbalance' : balance row' = b.balance) (delta delta' : Int)
    (k : Account → Account → TransferReceipt) :
    ∃ d, ((addBalance row delta).bind fun a => (addBalance row' delta').bind fun b =>
        done (.ok (k a b))).eval rows now z =
      (match overflow balance [⟨row, delta⟩, ⟨row', delta'⟩] with
        | some e => .error e
        | none => .ok (k { a with balance := a.balance + delta }
            { b with balance := b.balance + (if row' = row then delta else 0) + delta' }), ⟨d, z.next⟩) := by
  rcases eval_addBalance now hz ha delta with ⟨hfits, d, hover⟩ | ⟨hfits, d, hfirst, hd, hlook⟩
  · have hoverflow : overflow balance [⟨row, delta⟩, ⟨row', delta'⟩] =
        some (.balanceOverflow row a.balance delta) := by
      simp only [overflow, hbalance, hfits, if_false]
    rw [eval_bind_error hover, hoverflow]
    exact ⟨d, rfl⟩
  · rw [eval_bind_ok hfirst]
    have hb' : d.look rows row' = some { b with balance := b.balance + if row' = row then delta else 0 } := by
      rw [hlook]
      by_cases hsame : row' = row
      · subst hsame
        obtain rfl : a = b := Option.some.inj (ha.symm.trans hb)
        simp
      · rw [if_neg hsame, if_neg hsame, Int.add_zero, hb]
    have hoverflow : overflow balance [⟨row, delta⟩, ⟨row', delta'⟩] =
        if Amount.Fits (b.balance + (if row' = row then delta else 0) + delta') then none
        else some (.balanceOverflow row' (b.balance + if row' = row then delta else 0) delta') := by
      have hnow : Function.update balance row (a.balance + delta) row' =
          b.balance + if row' = row then delta else 0 := by
        by_cases hsame : row' = row
        · subst hsame
          rw [Function.update_self, if_pos rfl, ← hbalance, hbalance']
        · rw [Function.update_of_ne hsame, if_neg hsame, hbalance', Int.add_zero]
      simp only [overflow, hbalance, hfits, if_true, hnow]
    rcases eval_addBalance (z := ⟨d, z.next⟩) now hd hb' delta' with
      ⟨hfits', d', hover⟩ | ⟨hfits', d', hsecond, -, -⟩
    · rw [eval_bind_error hover, hoverflow, if_neg hfits']
      exact ⟨d', rfl⟩
    · rw [eval_bind_ok hsecond, hoverflow, if_pos hfits']
      exact ⟨d', rfl⟩

/-- The two changes of a transfer, whichever comes first. -/
theorem eval_both (s : Store) {order : TransferOrder} {a b : Account} (hz : z.draft.accounts = [])
    (hsource : s.account? order.source = some a) (hdestination : s.account? order.destination = some b)
    (t : Transfer) (out into : Entry) :
    ∃ d, (if order.source ≤ order.destination then
        (addBalance order.source (-order.amount)).bind fun source =>
        (addBalance order.destination order.amount).bind fun destination =>
        done (.ok (TransferReceipt.mk t source destination out into))
      else
        (addBalance order.destination order.amount).bind fun destination =>
        (addBalance order.source (-order.amount)).bind fun source =>
        done (.ok (TransferReceipt.mk t source destination out into))).eval s.tables.accounts now z =
      (match overflow s.balance order.changes with
        | some e => .error e
        | none =>
          .ok (TransferReceipt.mk t { a with balance := a.balance - order.amount } (order.move b) out into),
        ⟨d, z.next⟩) := by
  have hsorted : z.draft.accounts.Sorted := hz ▸ List.Pairwise.nil
  have hlook : ∀ row, z.draft.look s.tables.accounts row = s.account? row := fun row => by
    rw [Tables.look, hz]
    rfl
  have hbalance {row : Int} {c : Account} (hc : s.account? row = some c) : s.balance row = c.balance := by
    rw [Store.balance, hc]
    rfl
  have hida : a.id = order.source := Rows.id_of_find? hsource
  have hidb : b.id = order.destination := Rows.id_of_find? hdestination
  unfold TransferOrder.changes
  split
  · obtain ⟨d, heval⟩ := eval_changes now hsorted ((hlook _).trans hsource) ((hlook _).trans hdestination)
      (hbalance hsource) (hbalance hdestination) (-order.amount) order.amount
      fun a b => ⟨t, a, b, out, into⟩
    refine ⟨d, heval.trans ?_⟩
    have hmove : { b with balance := b.balance + (if order.destination = order.source then -order.amount else 0) +
        order.amount } = order.move b := by
      rw [TransferOrder.move, hidb, if_pos rfl]
      by_cases hsame : order.source = order.destination
      · rw [if_pos hsame.symm, if_pos hsame, Int.sub_eq_add_neg]
      · rw [if_neg (Ne.symm hsame), if_neg hsame, Int.add_zero, Int.sub_zero]
    rw [hmove]
    rfl
  · rename_i hgt
    obtain ⟨d, heval⟩ := eval_changes now hsorted ((hlook _).trans hdestination) ((hlook _).trans hsource)
      (hbalance hdestination) (hbalance hsource) order.amount (-order.amount)
      fun b a => ⟨t, a, b, out, into⟩
    refine ⟨d, heval.trans ?_⟩
    have hne : order.source ≠ order.destination := by omega
    have hmove : { b with balance := b.balance + order.amount } = order.move b := by
      rw [TransferOrder.move, hidb, if_neg hne, if_pos rfl, Int.sub_zero]
    rw [hmove, if_neg hne, Int.add_zero]
    rfl

/-- The three records are written with the next ids, when nothing speaks against it. -/
theorem eval_records {order : TransferOrder} (hsource : rows.has order.source = true)
    (hdestination : rows.has order.destination = true) (hpos : 0 < order.amount)
    (f : Transfer → Entry → Entry → Work TransferReceipt) :
    ((createTransfer order).bind fun t => (createEntry order.source (-order.amount)).bind fun out =>
      (createEntry order.destination order.amount).bind fun into => f t out into).eval rows now z =
      let t := ⟨z.next.transfer, order.source, order.destination, order.amount, now⟩
      let out := ⟨z.next.entry, order.source, -order.amount, now⟩
      let into := ⟨z.next.entry + 1, order.destination, order.amount, now⟩
      (f t out into).eval rows now
        ⟨{ z.draft with transfers := z.draft.transfers ++ [t], entries := z.draft.entries ++ [out] ++ [into] },
          { z.next with transfer := z.next.transfer + 1, entry := z.next.entry + 2 }⟩ := by
  rw [eval_bind, eval_createTransfer]
  simp only [hsource, hdestination, Int.not_le.2 hpos, Bool.not_true, Bool.false_eq_true, if_false]
  rw [eval_bind, eval_createEntry]
  simp only [hsource, Bool.not_true, Bool.false_eq_true, if_false]
  rw [eval_bind, eval_createEntry]
  simp only [hdestination, Bool.not_true, Bool.false_eq_true, if_false, Int.add_assoc]
  rfl

/-- The program comes to just that, and draws as many ids. -/
theorem eval_transfer (s : Store) (now : Instant) {order : TransferOrder} (hamount : Amount.Fits order.amount) :
    ∃ d, (transfer order).eval s.tables.accounts now ⟨{}, s.next⟩ =
      ((s.settle now order).1, ⟨d, (s.settle now order).2.next⟩) := by
  rw [transfer_eq, Amount.neg?_eq hamount]
  by_cases hleast : order.amount = Amount.least
  · rw [if_pos hleast, Store.settle, if_pos hleast]
    exact ⟨{}, rfl⟩
  rw [if_neg hleast, Store.settle, if_neg hleast]
  have hcreate : (createTransfer order).eval s.tables.accounts now ⟨{}, s.next⟩ = _ := eval_createTransfer order
  cases hsource : s.account? order.source with
  | none =>
    have hno : s.tables.accounts.has order.source = false := Rows.has_eq_false_iff.2 hsource
    simp only [hno, Bool.not_false, if_true] at hcreate
    exact ⟨{}, eval_bind_error hcreate _⟩
  | some a =>
    have hhas : s.tables.accounts.has order.source = true := Rows.has_of_find? hsource
    cases hdestination : s.account? order.destination with
    | none =>
      have hno : s.tables.accounts.has order.destination = false := Rows.has_eq_false_iff.2 hdestination
      simp only [hhas, hno, Bool.not_true, Bool.false_eq_true, if_false, Bool.not_false, if_true] at hcreate
      exact ⟨{}, eval_bind_error hcreate _⟩
    | some b =>
      have hhas' : s.tables.accounts.has order.destination = true := Rows.has_of_find? hdestination
      by_cases hpos : order.amount ≤ 0
      · simp only [hhas, hhas', hpos, Bool.not_true, Bool.false_eq_true, if_false, if_true] at hcreate
        simp only [if_pos hpos]
        exact ⟨{}, eval_bind_error hcreate _⟩
      · simp only [if_neg hpos]
        rw [eval_records hhas hhas' (Int.not_le.1 hpos)]
        refine Exists.imp (fun d hboth => Eq.trans hboth ?_) (eval_both s rfl hsource hdestination _ _ _)
        cases overflow s.balance order.changes <;> rfl

end Work

/-! ## The store afterwards -/

/-- The entries of a receipt move the money of its order. -/
theorem TransferOrder.post_receipt (order : TransferOrder) (n : Counters) (now : Instant) (a b : Account)
    (t : Tables) :
    t.post (order.receipt n now a b) =
      { accounts := t.accounts.map order.move
        transfers := t.transfers ++ [(order.receipt n now a b).transfer]
        entries := t.entries ++ [(order.receipt n now a b).debit, (order.receipt n now a b).credit] } := by
  have hmove : ∀ c : Account, (order.receipt n now a b).credit.apply ((order.receipt n now a b).debit.apply c) =
      order.move c := by
    intro c
    simp only [receipt, Entry.apply, Account.add, move]
    by_cases hs : order.source = c.id <;> by_cases hd : order.destination = c.id <;>
      simp [hs, hd, Int.sub_eq_add_neg]
  rw [Tables.post, funext hmove]

/-- The tables are those of a transfer posted whole, or as they were. -/
theorem Store.settle_tables (s : Store) (now : Instant) (order : TransferOrder) :
    (s.settle now order).2 = { s with
      tables := match (s.settle now order).1 with
        | .ok r => s.tables.post r
        | .error _ => s.tables
      next := (s.settle now order).2.next } := by
  unfold settle
  dsimp only
  split
  · rfl
  split
  · rfl
  split
  · rfl
  split
  · rfl
  split
  · rfl
  · simp only [TransferOrder.post_receipt]

/-- A job that finds the store at rest and ends well posts its transfer. -/
theorem Job.poll_posts {b : Bank} (hrest : b.store.Idle) {o : Nat} {timer : Timer} {alarms : List Alarm}
    {order : TransferOrder} {verdict : Outcome TransferReceipt → Option Event} {receipt : TransferReceipt}
    (hok : ((Job.start o timer [] alarms (Work.transfer order) verdict).poll b).1.stage = .finished (.ok receipt)) :
    ((Job.start o timer [] alarms (Work.transfer order) verdict).poll b).2.store.tables =
        b.store.tables.post receipt ∧ receipt.Settles order ∧ b.store.tables.accounts.has order.source = true ∧
      b.store.tables.accounts.has order.destination = true := by
  obtain ⟨hstage, x, hdraft, hstore⟩ := Job.poll_solo (Work.transfer_awake order) hrest o timer alarms verdict
  obtain ⟨l, hl, hw⟩ := (Work.transfer order).eval_leads b.store.tables.accounts b.stamp b.store.next
  rw [hok] at hstage
  have hresult := (Stage.finished.inj hstage).symm
  rw [hresult] at hl hstore
  rw [← hdraft] at hw
  rw [hstore]
  exact ⟨Work.transfer_publish hl hw hrest.sorted, Work.transfer_settles hl hw⟩

/-- A job that finds the store at rest is finished at the first look, with what `settle` says. -/
theorem Job.poll_settles {b : Bank} (hrest : b.store.Idle) (order : TransferOrder) (hamount : Amount.Fits order.amount)
    (o : Nat) (timer : Timer) (alarms : List Alarm) (verdict : Outcome TransferReceipt → Option Event) :
    let look := (Job.start o timer [] alarms (Work.transfer order) verdict).poll b
    look.1.stage = .finished (b.store.settle b.stamp order).1 ∧ look.2.store = (b.store.settle b.stamp order).2 := by
  intro look
  obtain ⟨hstage, x, -, hout⟩ := Job.poll_solo (Work.transfer_awake order) hrest o timer alarms verdict
  obtain ⟨d, heval⟩ := Work.eval_transfer b.store b.stamp hamount
  rw [heval] at hstage hout
  refine ⟨hstage, ?_⟩
  rw [Store.settle_tables, hrest.txs, hrest.waiting]
  cases hresult : (b.store.settle b.stamp order).1 with
  | error e =>
    rw [hresult] at hout
    exact hout
  | ok receipt =>
    rw [hresult] at hout hstage
    have hposted : look.2.store.tables = b.store.tables.post receipt := (Job.poll_posts hrest hstage).1
    have hpublished : look.2.store.tables = b.store.tables.publish x := congrArg Store.tables hout
    rw [← hposted.symm.trans hpublished] at hout
    exact hout

/-- Whatever was done before, as long as no transaction is open, a transfer of any amount of
    64 bits between any two ids is finished at the first look, whatever may stop it: with
    the result that the state and the order have (`Store.settle`), and with the store that
    goes with it. -/
theorem transfer_at_rest (acts : List Registry.Act) {b : Bank} (hstore : b.store = (({} : Registry).run acts).store)
    (hrest : b.store.txs = []) (order : TransferOrder) (hamount : Amount.Fits order.amount) (o : Nat) (timer : Timer)
    (alarms : List Alarm) (verdict : Outcome TransferReceipt → Option Event) :
    let look := (Job.start o timer [] alarms (Work.transfer order) verdict).poll b
    look.1.stage = .finished (b.store.settle b.stamp order).1 ∧ look.2.store = (b.store.settle b.stamp order).2 :=
  Job.poll_settles (Registry.idle_run acts hstore hrest) order hamount o timer alarms verdict

/-- Accounts 1 and 2; to the second hardly anything can be added. -/
def fullAccount : List Registry.Act :=
  [.step (.operation (.createAccount "anna" "USD" 100 .epoch)),
    .step (.operation (.createAccount "ben" "USD" (Amount.greatest - 5) .epoch))]

theorem transfer_at_rest_fullAccount :
    let b : Bank := { store := (({} : Registry).run fullAccount).store }
    let look := (Job.start 7 ⟨60000, 0⟩ [] [] (Work.transfer ⟨1, 2, 10⟩) fun _ => none).poll b
    b.store.txs = [] ∧ Amount.Fits 10 ∧
      look.1.stage = .finished (.error (.balanceOverflow 2 (Amount.greatest - 5) 10)) ∧
      look.2.store = { b.store with next := { account := 3, transfer := 2, entry := 5 } } := by
  intro b look
  subst look
  have hrest : b.store.txs = [] := rfl
  have hfits : Amount.Fits 10 := by decide
  obtain ⟨hstage, hstore⟩ :=
    transfer_at_rest fullAccount (b := b) rfl hrest ⟨1, 2, 10⟩ hfits 7 ⟨60000, 0⟩ [] fun _ => none
  exact ⟨hrest, hfits, hstage, hstore⟩

end Giro
