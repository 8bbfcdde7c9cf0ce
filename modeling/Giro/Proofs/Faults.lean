import Giro.Proofs.Ascent
import Giro.Proofs.Polling

/-
  Giro.Proofs.Faults — a transfer with hooks in front of its calls, and the error it ends
  with.

  The hooked program makes the calls of the transfer one by one. A call that no hook fails
  goes to the store; at the first error, of a hook or of the store, nothing more is asked
  (`Work.hooked_faced`). `FirstError` says which error that is, with begin and commit
  counted in, or that the stop signal was faster. There is one at most (`FirstError.unique`).
-/

namespace Giro

/-- How many calls of a kind there are. -/
def Transcript.count (l : Transcript) (kind : ActionKind) : Nat := l.countP (·.call.kind = kind)

theorem Transcript.count_snoc (l : Transcript) (c : Call) (r : Outcome c.Reply) :
    Transcript.count (l ++ [⟨c, r⟩]) = fun kind => if kind = c.kind then l.count kind + 1 else l.count kind := by
  funext kind
  by_cases hk : kind = c.kind
  · simp [count, List.countP_append, hk]
  · simp [count, List.countP_append, hk, Ne.symm hk]

/-- No hook fails any of the calls, and no answer is an error. -/
inductive Transcript.Spared (hooks : List Hook) : Transcript → Prop
  | nil : Spared hooks []
  | snoc {l : Transcript} {c : Call} (a : c.Reply) : Spared hooks l →
      Hook.fault hooks c.kind (l.count c.kind + 1) = none → Spared hooks (l ++ [⟨c, .ok a⟩])

namespace Work

variable {α : Type} {hooks : List Hook}

/-! ## Hooks in front of the calls -/

/-- Hooks are still being gone through, or they let pass, or the first error among them
    answers. -/
theorem past_leads {go : Work α} {stop : LedgerError → Work α} {hs : List Hook} {l : Transcript} {q : Work α}
    (h : (past go stop hs).Leads l q) :
    (l = [] ∧ ∀ r, q ≠ done r) ∨ (hs.findSome? Hook.error = none ∧ go.Leads l q) ∨
      ∃ e, hs.findSome? Hook.error = some e ∧ (stop e).Leads l q := by
  induction hs generalizing l with
  | nil => exact .inr (.inl ⟨rfl, h⟩)
  | cons hk hs ih =>
    have hrest : (hk.error.elim (past go stop hs) stop).Leads l q →
          (l = [] ∧ ∀ r, q ≠ done r) ∨ ((hk :: hs).findSome? Hook.error = none ∧ go.Leads l q) ∨
            ∃ e, (hk :: hs).findSome? Hook.error = some e ∧ (stop e).Leads l q := by
      intro h
      rw [List.findSome?_cons]
      cases he : hk.error with
      | some e => rw [he] at h; exact .inr (.inr ⟨e, rfl, h⟩)
      | none => rw [he] at h; exact ih h
    rw [past_cons] at h
    cases hd : hk.delay with
    | none => rw [hd] at h; exact hrest h
    | some ms =>
      rw [hd] at h
      cases h with
      | nil => exact .inl ⟨rfl, by simp⟩
      | sleep h => exact hrest h

/-- What a program with hooks has come to, when its calls were answered as in `l`. -/
inductive Faced (hooks : List Hook) (p : Work α) : Transcript → Work α → Prop
  /-- No error so far; it is over just when the program without hooks is. -/
  | going {l : Transcript} {p' q : Work α} : p.Leads l p' → l.Spared hooks → (∀ r, q = done r ↔ p' = done r) →
      Faced hooks p l q
  | refused {l : Transcript} {c : Call} {next : Outcome c.Reply → Work α} (e : LedgerError) :
      p.Leads l (call c next) → l.Spared hooks → Hook.fault hooks c.kind (l.count c.kind + 1) = none →
      Faced hooks p (l ++ [⟨c, .error e⟩]) (done (.error e))
  | injected {l : Transcript} {c : Call} {next : Outcome c.Reply → Work α} {e : LedgerError} :
      p.Leads l (call c next) → l.Spared hooks → Hook.fault hooks c.kind (l.count c.kind + 1) = some e →
      Faced hooks p l (done (.error e))

/-- A program that ends at an error faces no more than the first one. -/
theorem hooked_faced_from {p p₀ : Work α} {post : Set Int → Prop} {held : Set Int} (hp : p.Climbs post held)
    {l₀ l : Transcript} {q : Work α} (h₀ : p₀.Leads l₀ p) (hspared : l₀.Spared hooks)
    (h : (p.hooked hooks l₀.count).Leads l q) : Faced hooks p₀ (l₀ ++ l) q := by
  induction p generalizing held l₀ l with
  | done r =>
    obtain ⟨rfl, rfl⟩ := leads_done h
    rw [List.append_nil]
    exact .going h₀ hspared fun _ => .rfl
  | report event next ih =>
    unfold hooked at h
    cases h with
    | nil => rw [List.append_nil]; exact .going h₀ hspared fun r => by simp
    | report h => exact ih hp (h₀.skip (.report .nil)) hspared h
  | trace action next ih =>
    unfold hooked at h
    cases h with
    | nil => rw [List.append_nil]; exact .going h₀ hspared fun r => by simp
    | trace h => exact ih hp (h₀.skip (.trace .nil)) hspared h
  | sleep ms next ih =>
    unfold hooked at h
    cases h with
    | nil => rw [List.append_nil]; exact .going h₀ hspared fun r => by simp
    | sleep h => exact ih hp (h₀.skip (.sleep .nil)) hspared h
  | call c next ih =>
    obtain ⟨-, herror, hok⟩ := hp
    unfold hooked at h
    cases h with
    | nil => rw [List.append_nil]; exact .going h₀ hspared fun r => by simp
    | trace h =>
      simp only [if_true] at h
      rcases past_leads h with ⟨rfl, hq⟩ | ⟨hf, h⟩ | ⟨e, hf, h⟩
      · rw [List.append_nil]
        exact .going h₀ hspared fun r => ⟨fun e => absurd e (hq r), by simp⟩
      · cases h with
        | nil => rw [List.append_nil]; exact .going h₀ hspared fun r => by simp
        | call r h =>
          cases r with
          | error e =>
            simp only [herror] at h
            obtain ⟨rfl, rfl⟩ := leads_done h
            exact .refused e h₀ hspared hf
          | ok a =>
            rw [← l₀.count_snoc c (.ok a)] at h
            have := ih (.ok a) (hok a) (h₀.snoc (.ok a)) (hspared.snoc a hf) h
            rwa [List.append_assoc] at this
      · rw [herror] at h
        obtain ⟨rfl, rfl⟩ := leads_done h
        rw [List.append_nil]
        exact .injected h₀ hspared hf

/-- What a hooked program has come to, from its start. -/
theorem hooked_faced {p : Work α} {post : Set Int → Prop} (hp : p.Climbs post ∅) {l : Transcript} {q : Work α}
    (h : (p.hooked hooks fun _ => 0).Leads l q) : Faced hooks p l q :=
  hooked_faced_from hp .nil .nil h

end Work

/-! ## The first error -/

/-- Begun without an error, a transfer has come to `p` through the calls of `l`, and no hook
    and no answer was an error. -/
structure Reached (hooks : List Hook) (order : TransferOrder) (l : Transcript) (p : Work TransferReceipt) : Prop where
  begun : Hook.fault hooks .begin 1 = none
  leads : (Work.transfer order).Leads l p
  spared : l.Spared hooks

/-- The store answered just the calls of the transcript, and the error is the first one that
    the transfer met on its way from begin to commit: of a hook, of the store or its own. Or
    the stop signal has `stopped` it before it met any, while its begin or its work waited.
    The commit finds the tables `last`. -/
inductive FirstError (hooks : List Hook) (order : TransferOrder) (stopped : Prop) (last : Option Tables) :
    Transcript → LedgerError → Prop
  /-- A hook fails the begin. -/
  | begin {e : LedgerError} : ¬ stopped → Hook.fault hooks .begin 1 = some e → FirstError hooks order stopped last [] e
  /-- A hook fails the next call. -/
  | injected {l : Transcript} {c : Call} {next : Outcome c.Reply → Work TransferReceipt} {e : LedgerError} :
      ¬ stopped → Reached hooks order l (.call c next) → Hook.fault hooks c.kind (l.count c.kind + 1) = some e →
      FirstError hooks order stopped last l e
  /-- The store answers the next call with it. -/
  | refused {l : Transcript} {c : Call} {next : Outcome c.Reply → Work TransferReceipt} {e : LedgerError} :
      ¬ stopped → Reached hooks order l (.call c next) → Hook.fault hooks c.kind (l.count c.kind + 1) = none →
      FirstError hooks order stopped last (l ++ [⟨c, .error e⟩]) e
  /-- The work itself ends with it: an amount or a balance is out of range. -/
  | own {l : Transcript} {e : LedgerError} : ¬ stopped → Reached hooks order l (.done (.error e)) →
      FirstError hooks order stopped last l e
  /-- A hook fails the commit. -/
  | commit {l : Transcript} {receipt : TransferReceipt} {e : LedgerError} : ¬ stopped →
      Reached hooks order l (.done (.ok receipt)) → Hook.fault hooks .commit 1 = some e →
      FirstError hooks order stopped last l e
  /-- At the commit an account that was read or changed is no longer there; of several the
      smallest id counts. -/
  | gone {l : Transcript} {receipt : TransferReceipt} {t : Tables} {row : Int} : ¬ stopped →
      Reached hooks order l (.done (.ok receipt)) → Hook.fault hooks .commit 1 = none → last = some t →
      IsLeast { row | l.Touched row ∧ t.accounts.has row = false } row →
      FirstError hooks order stopped last l (.accountNotFound row)
  /-- The begin has no answer yet. -/
  | stoppedOpening {q : Work Unit} : stopped → (Work.gate hooks .begin .begin).Leads [] q → (∀ r, q ≠ .done r) →
      FirstError hooks order stopped last [] .cancelled
  /-- The work is not over. -/
  | stoppedWorking {l : Transcript} {p : Work TransferReceipt} : stopped → Reached hooks order l p →
      (∀ r, p ≠ .done r) → FirstError hooks order stopped last l .cancelled

variable {hooks : List Hook} {order : TransferOrder} {stopped : Prop} {last : Option Tables} {l : Transcript}
  {e e' : LedgerError}

/-- What ends a transfer that has come to a call or to a result. -/
def EndsWith (hooks : List Hook) (last : Option Tables) (l : Transcript) (e : LedgerError) :
    Work TransferReceipt → Prop
  | .call c _ => Hook.fault hooks c.kind (l.count c.kind + 1) = some e
  | .done (.error e') => e' = e
  | .done (.ok _) => Hook.fault hooks .commit 1 = some e ∨ Hook.fault hooks .commit 1 = none ∧
      ∃ t row, last = some t ∧ IsLeast { row | l.Touched row ∧ t.accounts.has row = false } row ∧
        e = .accountNotFound row
  | _ => False

theorem EndsWith.unique {q : Work TransferReceipt} (h : EndsWith hooks last l e q) (h' : EndsWith hooks last l e' q) :
    e = e' := by
  unfold EndsWith at h h'
  split at h
  · exact Option.some.inj (h.symm.trans h')
  · exact h.symm.trans h'
  · rcases h with h | ⟨hnone, t, row, ht, hrow, rfl⟩
    · rcases h' with h' | ⟨hnone, -⟩
      · exact Option.some.inj (h.symm.trans h')
      · rw [h] at hnone
        cases hnone
    · rcases h' with h' | ⟨-, t', row', ht', hrow', rfl⟩
      · rw [hnone] at h'
        cases h'
      · obtain rfl := Option.some.inj (ht.symm.trans ht')
        rw [hrow.unique hrow']
  · exact h.elim

/-- What happens to a transfer that is not stopped: a hook fails its begin, or its calls lead
    to what ends it. -/
theorem FirstError.endsWith (h : FirstError hooks order stopped last l e) (hstopped : ¬ stopped) :
    Hook.fault hooks .begin 1 = some e ∨ Hook.fault hooks .begin 1 = none ∧
      ∃ q, (Work.transfer order).Leads l q ∧ q.Halts ∧ EndsWith hooks last l e q := by
  cases h with
  | begin _ hf => exact .inl hf
  | injected _ hr hf => exact .inr ⟨hr.begun, _, hr.leads, trivial, hf⟩
  | refused _ hr _ => exact .inr ⟨hr.begun, _, (Work.transfer_climbs order).refused hr.leads e, trivial, rfl⟩
  | own _ hr => exact .inr ⟨hr.begun, _, hr.leads, trivial, rfl⟩
  | commit _ hr hf => exact .inr ⟨hr.begun, _, hr.leads, trivial, .inl hf⟩
  | gone _ hr hf ht hrow => exact .inr ⟨hr.begun, _, hr.leads, trivial, .inr ⟨hf, _, _, ht, hrow, rfl⟩⟩
  | stoppedOpening hs _ _ => exact absurd hs hstopped
  | stoppedWorking hs _ _ => exact absurd hs hstopped

theorem FirstError.eq_cancelled (h : FirstError hooks order stopped last l e) (hstopped : stopped) :
    e = .cancelled := by
  cases h with
  | stoppedOpening | stoppedWorking => rfl
  | begin hs | injected hs | refused hs | own hs | commit hs | gone hs => exact absurd hstopped hs

/-- There is one first error at most. -/
theorem FirstError.unique (h : FirstError hooks order stopped last l e)
    (h' : FirstError hooks order stopped last l e') : e = e' := by
  by_cases hs : stopped
  · rw [h.eq_cancelled hs, h'.eq_cancelled hs]
  · rcases h.endsWith hs with hf | ⟨hnone, q, hl, hq, hends⟩
    · rcases h'.endsWith hs with hf' | ⟨hnone, -⟩
      · exact Option.some.inj (hf.symm.trans hf')
      · rw [hf] at hnone
        cases hnone
    · rcases h'.endsWith hs with hf' | ⟨-, q', hl', hq', hends'⟩
      · rw [hnone] at hf'
        cases hf'
      · obtain rfl := hl.unique hq hl' hq'
        exact hends.unique hends'

/-- A transfer that was not stopped and comes through its work and its commit meets no error. -/
theorem Reached.no_error {receipt : TransferReceipt} {t : Tables} (h : Reached hooks order l (.done (.ok receipt)))
    (hstopped : ¬ stopped) (hf : Hook.fault hooks .commit 1 = none)
    (hthere : ∀ row, l.Touched row → t.accounts.has row = true) : ¬ FirstError hooks order stopped (some t) l e := by
  intro he
  rcases he.endsWith hstopped with hbegin | ⟨-, q, hl, hq, hends⟩
  · rw [h.begun] at hbegin
    cases hbegin
  · obtain rfl := h.leads.unique trivial hl hq
    rcases hends with hcommit | ⟨-, t', row, ht, hrow, -⟩
    · rw [hf] at hcommit
      cases hcommit
    · cases ht
      obtain ⟨htouched, hgone⟩ := hrow.1
      rw [hthere row htouched] at hgone
      cases hgone

/-- What the work of a transfer with hooks has come to: it goes on, it is over, or it has
    met its first error. -/
theorem reached_or_error {q : Work TransferReceipt} (hstopped : ¬ stopped) (hbegun : Hook.fault hooks .begin 1 = none)
    (h : ((Work.transfer order).hooked hooks fun _ => 0).Leads l q) :
    (∃ p, Reached hooks order l p ∧ ∀ r, q = .done r ↔ p = .done r) ∨
      ∃ e, q = .done (.error e) ∧ ∀ last, FirstError hooks order stopped last l e := by
  cases Work.hooked_faced (Work.transfer_climbs order) h with
  | going hp hspared hq => exact .inl ⟨_, ⟨hbegun, hp, hspared⟩, hq⟩
  | injected hp hspared hf => exact .inr ⟨_, rfl, fun _ => .injected hstopped ⟨hbegun, hp, hspared⟩ hf⟩
  | refused e hp hspared hf => exact .inr ⟨e, rfl, fun _ => .refused hstopped ⟨hbegun, hp, hspared⟩ hf⟩

end Giro
