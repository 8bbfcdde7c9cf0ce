import Giro.Json.Read
import Giro.Proofs.Digits
import Mathlib

/-
  Giro.Proofs.JsonText — a value is read back from its compact text (`ofText?_toText`).

  `Reads` says it of a value in the middle of a text, with enough fuel and with nothing after
  it that could belong to a number. Texts and integers are read because each character and
  each digit is; arrays and objects are read if what they hold is (`reads_array`,
  `reads_ofMembers`), by induction along their items, and the length of the text is fuel
  enough since every item writes a character at least.
-/

namespace Giro.Json

open Text (NoDigit exists_digit isDigit_of_mem_toDigits takeWhile_digits dropWhile_digits)

/-! ## Texts -/

theorem inBase?_control :
    ∀ n < 0x20, Text.inBase? 16 ['0', '0', Nat.digitChar (n / 16), Nat.digitChar (n % 16)] = some n := by
  decide

/-- A character that needs no escape stands for itself. -/
theorem codes?_plain {c : Char} (hcontrol : ¬ c.toNat < 0x20) (hquote : c ≠ '"') (hbackslash : c ≠ '\\')
    (cs : List Char) : codes? (c :: cs) = (codes? cs).map fun r => (c.toNat :: r.1, r.2) := by
  rw [codes?.eq_def]
  split
  · rename_i heq
    cases heq
  · rename_i heq
    exact absurd (List.cons.inj heq).1 hquote
  · rename_i heq
    exact absurd (List.cons.inj heq).1 hbackslash
  · rename_i heq
    exact absurd (List.cons.inj heq).1 hbackslash
  · rename_i heq
    obtain ⟨rfl, rfl⟩ := List.cons.inj heq
    rw [if_neg (by simp [hcontrol, hbackslash])]
    cases codes? cs <;> rfl

/-- A written character is read as its code. -/
theorem codes?_escape (c : Char) (cs : List Char) :
    codes? (escape c ++ cs) = (codes? cs).map fun r => (c.toNat :: r.1, r.2) := by
  unfold escape
  split
  · rename_i letter hletter
    obtain ⟨before, after, hsplit, -⟩ := List.lookup_eq_some_iff.1 hletter
    have hmem : (c, letter) ∈ shortEscapes := hsplit ▸ List.mem_append_right before List.mem_cons_self
    simp only [shortEscapes, List.mem_cons, List.not_mem_nil, or_false, Prod.mk.injEq] at hmem
    rcases hmem with ⟨rfl, rfl⟩ | ⟨rfl, rfl⟩ | ⟨rfl, rfl⟩ | ⟨rfl, rfl⟩ | ⟨rfl, rfl⟩ | ⟨rfl, rfl⟩ |
      ⟨rfl, rfl⟩ <;>
      cases h : codes? cs <;> simp [codes?, unescape, h]
  · rename_i hnone
    split
    · rename_i hcontrol
      show codes? ('\\' :: 'u' :: '0' :: '0' :: _ :: _ :: cs) = _
      rw [codes?, inBase?_control _ hcontrol]
      cases codes? cs <;> rfl
    · rename_i hcontrol
      refine codes?_plain hcontrol ?_ ?_ cs
      · rintro rfl
        cases hnone
      · rintro rfl
        cases hnone

theorem codes?_flatMap (cs rest : List Char) :
    codes? (cs.flatMap escape ++ '"' :: rest) = some (cs.map Char.toNat, rest) := by
  induction cs with
  | nil => rfl
  | cons c cs ih =>
    rw [List.flatMap_cons, List.append_assoc, codes?_escape, ih]
    rfl

/-- No character is half of a surrogate pair. -/
theorem not_surrogate (c : Char) : isLow c.toNat = false ∧ isHigh c.toNat = false := by
  have hvalid : c.toNat < 0xD800 ∨ 0xDFFF < c.toNat ∧ c.toNat < 0x110000 := c.valid
  simp only [isLow, isHigh, Bool.and_eq_false_iff, decide_eq_false_iff_not]
  omega

theorem join_toNat (cs : List Char) : join (cs.map Char.toNat) = some cs := by
  induction cs with
  | nil => rfl
  | cons c cs ih =>
    obtain ⟨hlow, hhigh⟩ := not_surrogate c
    rw [List.map_cons, join.eq_def]
    simp only [hlow, hhigh, ih, Bool.false_eq_true, if_false, Option.map_some, Char.ofNat_toNat]

/-- A text is read back from between its quotes. -/
theorem string?_quoted (s : String) (rest : List Char) :
    string? (s.toList.flatMap escape ++ '"' :: rest) = some (some s, rest) := by
  rw [string?, codes?_flatMap]
  show some ((join (s.toList.map Char.toNat)).map String.ofList, rest) = some (some s, rest)
  rw [join_toNat, Option.map_some, String.ofList_toList]

/-! ## Numbers -/

/-- What comes next in a compact text after a value. -/
def Stops (cs : List Char) : Prop := ∀ c ∈ cs.head?, c = ',' ∨ c = ']' ∨ c = '}'

theorem stops_cons {c : Char} (h : c = ',' ∨ c = ']' ∨ c = '}') (cs : List Char) : Stops (c :: cs) := by
  intro c' hc'
  obtain rfl := Option.some.inj hc'
  exact h

theorem Stops.noDigit {cs : List Char} (h : Stops cs) : NoDigit cs := by
  intro c hc
  rcases h c hc with rfl | rfl | rfl <;> rfl

theorem Stops.fraction? {cs : List Char} (h : Stops cs) : fraction? cs = some ([], cs) := by
  cases cs with
  | nil => rfl
  | cons c cs => rcases h c rfl with rfl | rfl | rfl <;> rfl

theorem Stops.exponent? {cs : List Char} (h : Stops cs) : exponent? cs = some ([], cs) := by
  cases cs with
  | nil => rfl
  | cons c cs => rcases h c rfl with rfl | rfl | rfl <;> rfl

/-- Only zero is written with a zero in front. -/
theorem head?_toDigits {n : Nat} (h : (Nat.toDigits 10 n).head? = some '0') : n = 0 := by
  induction n using Nat.strongRecOn with
  | ind n ih =>
    rw [Nat.toDigits_eq_if (by decide)] at h
    split at h
    · rename_i hlt
      have hchar := congrArg Char.toNat (Option.some.inj h)
      rw [Nat.toNat_digitChar_of_lt_ten hlt] at hchar
      change 48 + n = 48 at hchar
      omega
    · rename_i hge
      rw [List.head?_append_of_ne_nil _ Nat.toDigits_ne_nil] at h
      have hzero := ih (n / 10) (by omega) h
      omega

theorem whole?_toDigits (n : Nat) {rest : List Char} (hrest : NoDigit rest) :
    whole? (Nat.toDigits 10 n ++ rest) = some (Nat.toDigits 10 n, rest) := by
  have hdigits := isDigit_of_mem_toDigits n
  have hne : (Nat.toDigits 10 n).isEmpty = false := by simp [Nat.toDigits_ne_nil]
  have hzero : ((Nat.toDigits 10 n).head? == some '0' && (Nat.toDigits 10 n).length != 1) = false := by
    by_cases h : (Nat.toDigits 10 n).head? = some '0'
    · rw [head?_toDigits h]
      rfl
    · simp [h]
  rw [whole?, List.span_eq_takeWhile_dropWhile, takeWhile_digits hdigits hrest, dropWhile_digits hdigits hrest]
  simp only [hne, hzero, Bool.or_self, Bool.false_eq_true, if_false]

theorem number?_toDigits (n : Nat) {rest : List Char} (hrest : Stops rest) :
    number? (Nat.toDigits 10 n ++ rest) = some (.integer n, rest) := by
  have hwhole := whole?_toDigits n hrest.noDigit
  obtain ⟨d, ds, hds, hd⟩ := exists_digit (isDigit_of_mem_toDigits n) Nat.toDigits_ne_nil
  have hminus : ∀ cs, d :: (ds ++ rest) ≠ '-' :: cs := by
    intro cs heq
    obtain ⟨rfl, -⟩ := List.cons.inj heq
    exact absurd hd (by decide)
  rw [hds] at hwhole
  rw [hds, List.cons_append, number?]
  · refine (bind_of_some hwhole).trans ?_
    refine (bind_of_some hrest.fraction?).trans ?_
    refine (bind_of_some hrest.exponent?).trans ?_
    rw [← hds, Nat.ofDigitChars_ten_toDigits]
    rfl
  · exact hminus

theorem number?_minus {n : Nat} (hn : n ≠ 0) {rest : List Char} (hrest : Stops rest) :
    number? ('-' :: (Nat.toDigits 10 n ++ rest)) = some (.integer (-n), rest) := by
  refine (bind_of_some (whole?_toDigits n hrest.noDigit)).trans ?_
  refine (bind_of_some hrest.fraction?).trans ?_
  refine (bind_of_some hrest.exponent?).trans ?_
  rw [Nat.ofDigitChars_ten_toDigits]
  simp [hn]

/-- An integer is read back from its digits. -/
theorem number?_integerChars (n : Int) {rest : List Char} (hrest : Stops rest) :
    number? (Value.integerChars n ++ rest) = some (.integer n, rest) := by
  unfold Value.integerChars
  split
  · rename_i hneg
    rw [List.cons_append, number?_minus (by omega) hrest]
    congr 3
    omega
  · rename_i hpos
    rw [number?_toDigits _ hrest]
    congr 3
    omega

/-! ## Values -/

/-- A value is read back from the middle of a text, and its text begins neither with white
    space nor with a bracket that closes an array. -/
structure Reads (v : Value) : Prop where
  starts : ∃ c cs, v.chars = c :: cs ∧ isBlank c = false ∧ c ≠ ']'
  back : ∀ {fuel : Nat} {rest : List Char}, v.chars.length < fuel → Stops rest →
    read fuel (v.chars ++ rest) = some (v, rest)

theorem skip_cons {c : Char} (h : isBlank c = false) (cs : List Char) : skip (c :: cs) = c :: cs :=
  List.dropWhile_cons_of_neg (by simp [h])

theorem Reads.length_pos {v : Value} (h : Reads v) : 0 < v.chars.length := by
  obtain ⟨c, cs, hchars, -⟩ := h.starts
  simp [hchars]

/-- A value that holds no others takes no more fuel, however long its text is. -/
theorem Reads.leaf {v : Value} {c : Char} {cs : List Char} (hchars : v.chars = c :: cs) (hblank : isBlank c = false)
    (hbracket : c ≠ ']')
    (hread : ∀ fuel rest, Stops rest → read (fuel + 1) (v.chars ++ rest) = some (v, rest)) : Reads v := by
  refine ⟨⟨c, cs, hchars, hblank, hbracket⟩, ?_⟩
  intro fuel rest hfuel hrest
  cases fuel with
  | zero => cases hfuel
  | succ fuel => exact hread fuel rest hrest

theorem reads_null : Reads .null := .leaf rfl rfl (by decide) fun _ _ _ => rfl

theorem reads_bool (b : Bool) : Reads (.bool b) := by
  cases b with
  | true => exact .leaf rfl rfl (by decide) fun _ _ _ => rfl
  | false => exact .leaf rfl rfl (by decide) fun _ _ _ => rfl

theorem reads_text (s : String) : Reads (.text s) := by
  refine .leaf rfl rfl (by decide) fun fuel rest _ => ?_
  show (string? ((s.toList.flatMap escape ++ ['"']) ++ rest)).map (fun p => (Value.string p.1, p.2)) = _
  rw [List.append_assoc, List.singleton_append, string?_quoted]
  rfl

theorem not_isBlank_of_number {c : Char} (hc : c.isDigit ∨ c = '-') : isBlank c = false := by
  cases hblank : isBlank c with
  | false => rfl
  | true =>
    simp only [isBlank, Bool.or_eq_true, beq_iff_eq] at hblank
    rcases hblank with ((rfl | rfl) | rfl) | rfl <;> exact absurd hc (by decide)

/-- A digit or a sign begins a number and nothing else. -/
theorem read_number {c : Char} (hc : c.isDigit ∨ c = '-') (fuel : Nat) (cs : List Char) :
    read (fuel + 1) (c :: cs) = number? (c :: cs) := by
  rw [read, skip_cons (not_isBlank_of_number hc)]
  split
  case h_7 => rfl
  all_goals
    rename_i heq
    obtain ⟨rfl, -⟩ := List.cons.inj heq
    exact absurd hc (by decide)

theorem integerChars_cons (n : Int) : ∃ c cs, Value.integerChars n = c :: cs ∧ (c.isDigit ∨ c = '-') := by
  unfold Value.integerChars
  split
  · exact ⟨'-', _, rfl, .inr rfl⟩
  · obtain ⟨d, ds, hds, hd⟩ := exists_digit (isDigit_of_mem_toDigits n.natAbs) Nat.toDigits_ne_nil
    exact ⟨d, ds, hds, .inl hd⟩

theorem reads_integer (n : Int) : Reads (.integer n) := by
  obtain ⟨c, cs, hchars, hc⟩ := integerChars_cons n
  refine .leaf hchars (not_isBlank_of_number hc) ?_ fun fuel rest hrest => ?_
  · rintro rfl
    exact absurd hc (by decide)
  · have hread := number?_integerChars n hrest
    rw [hchars, List.cons_append] at hread
    rw [show (Value.integer n).chars = Value.integerChars n from rfl, hchars, List.cons_append, read_number hc, hread]

/-- The items of an array are read back, and the bracket after them. -/
theorem readItems_chars {item : Value} {items : List Value} (h : ∀ v ∈ item :: items, Reads v) {fuel : Nat}
    (hfuel : (item.chars ++ Value.itemChars items).length < fuel) (rest : List Char) :
    readItems fuel (item.chars ++ Value.itemChars items ++ rest) = some (item :: items, rest) := by
  induction items generalizing item fuel with
  | nil =>
    cases fuel with
    | zero => cases hfuel
    | succ fuel =>
      obtain ⟨hitem, -⟩ := List.forall_mem_cons.1 h
      simp only [Value.itemChars, List.length_append, List.length_singleton] at hfuel
      rw [Value.itemChars, List.append_assoc, readItems]
      exact bind_of_some (hitem.back (by omega) (stops_cons (.inr (.inl rfl)) rest))
  | cons next items ih =>
    cases fuel with
    | zero => cases hfuel
    | succ fuel =>
      obtain ⟨hitem, hitems⟩ := List.forall_mem_cons.1 h
      have hpos := hitem.length_pos
      simp only [Value.itemChars, List.cons_append, List.length_append, List.length_cons] at hfuel
      have hlength : (next.chars ++ Value.itemChars items).length < fuel := by
        rw [List.length_append]
        omega
      have hread := ih hitems hlength
      rw [Value.itemChars, List.append_assoc, readItems]
      refine (bind_of_some (hitem.back (by omega) (stops_cons (.inl rfl) _))).trans ?_
      exact bind_of_some hread

/-- A bracket begins an array, and what follows it are items unless it is closed at once. -/
theorem read_bracket {c : Char} (hblank : isBlank c = false) (hc : c ≠ ']') (fuel : Nat) (cs : List Char) :
    read (fuel + 1) ('[' :: c :: cs) =
      (readItems fuel (c :: cs)).map fun p => (Value.array p.1, p.2) := by
  rw [read, skip_cons (by decide)]
  split
  case h_5 rest heq =>
    obtain rfl := (List.cons.inj heq).2
    rw [skip_cons hblank]
    split
    · rename_i heq
      exact absurd (List.cons.inj heq).1 hc
    · rfl
  case h_7 hno _ => exact absurd rfl (hno _)
  all_goals
    rename_i heq
    exact absurd (List.cons.inj heq).1 (by decide)

/-- An array is read back if its items are. -/
theorem reads_array {items : List Value} (h : ∀ v ∈ items, Reads v) : Reads (.array items) := by
  cases items with
  | nil => exact .leaf rfl rfl (by decide) fun _ _ _ => rfl
  | cons item items =>
    refine ⟨⟨'[', _, rfl, rfl, by decide⟩, ?_⟩
    intro fuel rest hfuel _
    cases fuel with
    | zero => cases hfuel
    | succ fuel =>
      have hread := readItems_chars h (Nat.lt_of_succ_lt_succ hfuel) rest
      -- the item must not be taken for the end of an empty array
      obtain ⟨c, cs, hchars, hblank, hbracket⟩ := (h item List.mem_cons_self).starts
      show read (fuel + 1) ('[' :: (item.chars ++ Value.itemChars items ++ rest)) = _
      rw [hchars, List.cons_append, List.cons_append] at hread ⊢
      rw [read_bracket hblank hbracket, hread]
      rfl

/-- A name with its value, as it is in an object. -/
def member (m : String × Value) : Option String × Value := (some m.1, m.2)

/-- After a name and a colon a value is read, and then what separates or ends the members. -/
theorem readMembers_quote (name : String) (fuel : Nat) (cs : List Char) :
    readMembers (fuel + 1) (quote name ++ ':' :: cs) = (do
      let (value, cs) ← read fuel cs
      match skip cs with
      | ',' :: cs =>
        let (members, cs) ← readMembers fuel cs
        return ((some name, value) :: members, cs)
      | '}' :: cs => return ([(some name, value)], cs)
      | _ => none) := by
  have hquote : quote name ++ ':' :: cs = '"' :: (name.toList.flatMap escape ++ '"' :: ':' :: cs) := by
    simp only [quote, List.cons_append, List.append_assoc, List.nil_append]
  rw [hquote, readMembers]
  exact bind_of_some (string?_quoted name (':' :: cs))

/-- The members of an object are read back, and the brace after them. -/
theorem readMembers_chars {m : String × Value} {members : List (String × Value)}
    (h : ∀ m' ∈ m :: members, Reads m'.2) {fuel : Nat}
    (hfuel : (quote m.1 ++ ':' :: m.2.chars ++ Value.memberChars (members.map member)).length < fuel)
    (rest : List Char) :
    readMembers fuel (quote m.1 ++ ':' :: m.2.chars ++ Value.memberChars (members.map member) ++ rest) =
      some (member m :: members.map member, rest) := by
  induction members generalizing m fuel with
  | nil =>
    cases fuel with
    | zero => cases hfuel
    | succ fuel =>
      have hvalue := h m List.mem_cons_self
      simp only [List.map_nil, Value.memberChars, List.length_append, List.length_cons, List.length_nil] at hfuel
      rw [List.append_assoc, List.append_assoc, List.cons_append, readMembers_quote]
      exact bind_of_some (hvalue.back (by omega) (stops_cons (.inr (.inr rfl)) rest))
  | cons next members ih =>
    cases fuel with
    | zero => cases hfuel
    | succ fuel =>
      obtain ⟨hvalue, hmembers⟩ := List.forall_mem_cons.1 h
      simp only [List.map_cons, member, Value.memberChars, Value.stringChars, List.length_append, List.length_cons]
        at hfuel
      have hlength : (quote next.1 ++ ':' :: next.2.chars ++ Value.memberChars (members.map member)).length < fuel := by
        simp only [List.length_append, List.length_cons]
        omega
      have hread := ih hmembers hlength
      rw [List.append_assoc, List.append_assoc, List.cons_append, readMembers_quote]
      refine (bind_of_some (hvalue.back (by omega) (stops_cons (.inl rfl) _))).trans ?_
      exact bind_of_some hread

/-- An object is read back if the values of its members are. -/
theorem reads_ofMembers {members : List (String × Value)} (h : ∀ m ∈ members, Reads m.2) :
    Reads (.ofMembers members) := by
  cases members with
  | nil => exact .leaf rfl rfl (by decide) fun _ _ _ => rfl
  | cons m members =>
    refine ⟨⟨'{', _, rfl, rfl, by decide⟩, ?_⟩
    intro fuel rest hfuel _
    cases fuel with
    | zero => cases hfuel
    | succ fuel =>
      have hread := readMembers_chars h (Nat.lt_of_succ_lt_succ hfuel) rest
      show (readMembers fuel (quote m.1 ++ ':' :: m.2.chars ++ Value.memberChars (members.map member) ++ rest)).map
        (fun (members, cs) => (Value.object members, cs)) = _
      rw [hread]
      rfl

/-- A value is read back from its compact text. -/
theorem Value.ofText?_toText {v : Value} (h : Reads v) : ofText? v.toText = some v := by
  have hread : read (v.chars.length + 1) v.chars = some (v, []) := by
    have hback := h.back (Nat.lt_succ_self v.chars.length) (fun _ hc => nomatch hc : Stops [])
    rw [List.append_nil] at hback
    exact hback
  rw [ofText?, toText, String.toList_ofList]
  exact bind_of_some hread

end Giro.Json
