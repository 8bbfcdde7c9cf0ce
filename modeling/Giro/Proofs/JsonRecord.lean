import Giro.Json.Record
import Giro.Proofs.InstantText
import Giro.Proofs.JsonText
import Giro.Proofs.Settings
import Mathlib

/-
  Giro.Proofs.JsonRecord — the ledger's records, reports and configurations survive being
  written as JSON and read again.

  A kind of record round-trips for three reasons (`RoundTrips.of`): its values write texts
  that are read back as data, the data are read back as the record, and a record that was
  read has numbers that fit its fields. So what is written can be read, and a text that was
  read once is written in a form that stays as it is.

  Instants are read back as a clock shows them (`Instant.shown`), and so are the records that
  hold them. A leap second that does not follow the 59th second of a minute is lost that way
  (`early_leap_is_not_read_back`).

  Main statement: `records_round_trip`.
-/

namespace Giro

open Json

/-! ## Values -/

namespace Json

theorem lookup_of_mem {pairs : List (String × Value)} (hnodup : (pairs.map Prod.fst).Nodup) {p : String × Value}
    (h : p ∈ pairs) : pairs.lookup p.1 = some p.2 := by
  obtain ⟨before, after, rfl⟩ := List.append_of_mem h
  refine List.lookup_eq_some_iff.2 ⟨before, after, rfl, fun q hq => ?_⟩
  rw [List.map_append, List.nodup_append] at hnodup
  have hne := hnodup.2.2 q.1 (List.mem_map_of_mem hq) p.1 List.mem_cons_self
  exact bne_iff_ne.2 hne.symm

/-- An object with different names holds just these fields. -/
theorem fields?_ofMembers {names : List String} {members : List (String × Value)}
    (hnames : ∀ m ∈ members, m.1 ∈ names) (hnodup : (members.map Prod.fst).Nodup) :
    fields? names (.ofMembers members) = some members := by
  have hmembers : (members.map member).mapM (fun m => m.1.map (·, m.2)) = some members := by
    rw [List.mapM_map]
    exact mapM_eq_self fun _ _ => rfl
  have hknown : members.filter (fun m => names.contains m.1) = members :=
    List.filter_eq_self.2 fun m hm => List.contains_iff_mem.2 (hnames m hm)
  refine (bind_of_some hmembers).trans ?_
  dsimp only
  rw [hknown, if_pos hnodup]

/-- All fields of a record are found in an object with just these fields. -/
theorem record?_ofMembers {members : List (String × Value)} (hnodup : (members.map Prod.fst).Nodup) :
    record? (members.map Prod.fst) (.ofMembers members) = some (members.map Prod.snd) := by
  refine (bind_of_some (fields?_ofMembers (fun m hm => List.mem_map_of_mem hm) hnodup)).trans ?_
  rw [List.mapM_map]
  exact mapM_eq_map fun m hm => lookup_of_mem hnodup hm

namespace Value

theorem stored?_integer {n : Int} (h : Amount.Fits n) : stored? (.integer n) = some n := if_pos h

theorem fits_of_stored? {v : Value} {n : Int} (h : v.stored? = some n) : Amount.Fits n := by
  unfold stored? at h
  split at h
  · obtain ⟨rfl, hfits⟩ := Amount.fit?_eq_some_iff.1 h
    exact hfits
  · cases h

theorem wide?_integer {n : Int} (h : wideLeast ≤ n ∧ n ≤ wideGreatest) : wide? (.integer n) = some n := if_pos h

theorem fits_of_wide? {v : Value} {n : Int} (h : v.wide? = some n) : wideLeast ≤ n ∧ n ≤ wideGreatest := by
  unfold wide? at h
  split at h
  · simp only [Option.ite_none_right_eq_some, Option.some.injEq] at h
    obtain ⟨hfits, rfl⟩ := h
    exact hfits
  · obtain rfl := Option.some.inj h
    decide
  · cases h

theorem below?_integer {limit n : Nat} (h : n < limit) : below? limit (.integer n) = some n := by
  rw [below?, if_pos (by omega), Int.toNat_natCast]

theorem lt_of_below? {limit n : Nat} {v : Value} (h : v.below? limit = some n) : n < limit := by
  unfold below? at h
  split at h
  · simp only [Option.ite_none_right_eq_some, Option.some.injEq] at h
    omega
  · cases h

theorem text?_text (s : String) : (text s).text? = some s := rfl

theorem instant?_toText (t : Instant) : (text t.toText).instant? = some t.shown := by
  rw [instant?, text?_text, Option.bind_some, Instant.ofText?_toText]

theorem shown_of_instant? {v : Value} {t : Instant} (h : v.instant? = some t) : t.shown = t := by
  obtain ⟨text, -, h⟩ := Option.bind_eq_some_iff.1 h
  exact Instant.shown_of_ofText? h

theorem texts?_map (texts : List String) : (array (texts.map text)).texts? = some texts := by
  show (texts.map text).mapM text? = some texts
  rw [List.mapM_map]
  exact mapM_eq_self fun s _ => text?_text s

end Value

end Json

/-! ## Records -/

/-- A kind of record can be written and read: a record whose numbers fit is read back from its
    compact text, with what is shown of it, and the compact text of whatever was read is its
    own compact text. -/
structure RoundTrips {α : Type} (ofJson? : Value → Option α) (toJson : α → Value) (shown : α → α)
    (Fits : α → Prop) : Prop where
  back : ∀ a, Fits a → (Value.ofText? (toJson a).toText).bind ofJson? = some (shown a)
  settled : ∀ text written, compact? ofJson? toJson text = some written →
    compact? ofJson? toJson written = some written

theorem RoundTrips.of {α : Type} {ofJson? : Value → Option α} {toJson : α → Value} {shown : α → α}
    {Fits : α → Prop} (hreads : ∀ a, Reads (toJson a)) (hback : ∀ a, Fits a → ofJson? (toJson a) = some (shown a))
    (hfits : ∀ v a, ofJson? v = some a → Fits a ∧ shown a = a) : RoundTrips ofJson? toJson shown Fits := by
  have hread : ∀ a, Fits a → (Value.ofText? (toJson a).toText).bind ofJson? = some (shown a) := by
    intro a ha
    rw [Value.ofText?_toText (hreads a), Option.bind_some, hback a ha]
  refine ⟨hread, ?_⟩
  intro text written h
  unfold compact? at h ⊢
  obtain ⟨v, hv, h⟩ := Option.bind_eq_some_iff.1 h
  obtain ⟨a, ha, h⟩ := Option.bind_eq_some_iff.1 h
  obtain rfl := Option.some.inj h
  obtain ⟨hfit, hshown⟩ := hfits v a ha
  refine (bind_of_some (Value.ofText?_toText (hreads a))).trans ?_
  refine (bind_of_some (hback a hfit)).trans ?_
  exact congrArg (fun a => some (toJson a).toText) hshown

namespace Account

/-- The numbers of an account fit its fields. -/
def Fits (a : Account) : Prop := Amount.Fits a.id ∧ Amount.Fits a.balance

def shown (a : Account) : Account := { a with createdAt := a.createdAt.shown }

theorem reads_toJson (a : Account) : Reads a.toJson := by
  apply reads_ofMembers
  simp [reads_integer, reads_text]

theorem ofJson?_toJson {a : Account} (h : a.Fits) : ofJson? a.toJson = some a.shown := by
  obtain ⟨hid, hbalance⟩ := h
  have hrecord : record? fieldNames a.toJson = some [.integer a.id, .text a.owner, .text a.currency,
    .integer a.balance, .text a.createdAt.toText] := record?_ofMembers (show fieldNames.Nodup by decide)
  refine (bind_of_some hrecord).trans ?_
  simp [shown, Value.stored?_integer hid, Value.stored?_integer hbalance, Value.text?_text, Value.instant?_toText]

theorem fits_of_ofJson? {v : Value} {a : Account} (h : ofJson? v = some a) : a.Fits ∧ a.shown = a := by
  obtain ⟨values, -, h⟩ := Option.bind_eq_some_iff.1 h
  split at h
  · simp only [Option.bind_eq_bind, Option.bind_eq_some_iff] at h
    obtain ⟨id, hid, owner, -, currency, -, balance, hbalance, createdAt, hcreated, h⟩ := h
    obtain rfl := Option.some.inj h
    exact ⟨⟨Value.fits_of_stored? hid, Value.fits_of_stored? hbalance⟩, by
      rw [shown, Value.shown_of_instant? hcreated]⟩
  · cases h

end Account

namespace Entry

/-- The numbers of an entry fit its fields. -/
def Fits (e : Entry) : Prop := Amount.Fits e.id ∧ Amount.Fits e.account ∧ Amount.Fits e.amount

def shown (e : Entry) : Entry := { e with createdAt := e.createdAt.shown }

theorem reads_toJson (e : Entry) : Reads e.toJson := by
  apply reads_ofMembers
  simp [reads_integer, reads_text]

theorem ofJson?_toJson {e : Entry} (h : e.Fits) : ofJson? e.toJson = some e.shown := by
  obtain ⟨hid, haccount, hamount⟩ := h
  have hrecord : record? fieldNames e.toJson = some [.integer e.id, .integer e.account, .integer e.amount,
    .text e.createdAt.toText] := record?_ofMembers (show fieldNames.Nodup by decide)
  refine (bind_of_some hrecord).trans ?_
  simp [shown, Value.stored?_integer hid, Value.stored?_integer haccount, Value.stored?_integer hamount,
    Value.instant?_toText]

theorem fits_of_ofJson? {v : Value} {e : Entry} (h : ofJson? v = some e) : e.Fits ∧ e.shown = e := by
  obtain ⟨values, -, h⟩ := Option.bind_eq_some_iff.1 h
  split at h
  · simp only [Option.bind_eq_bind, Option.bind_eq_some_iff] at h
    obtain ⟨id, hid, account, haccount, amount, hamount, createdAt, hcreated, h⟩ := h
    obtain rfl := Option.some.inj h
    exact ⟨⟨Value.fits_of_stored? hid, Value.fits_of_stored? haccount, Value.fits_of_stored? hamount⟩, by
      rw [shown, Value.shown_of_instant? hcreated]⟩
  · cases h

end Entry

namespace Transfer

/-- The numbers of a transfer fit its fields. -/
def Fits (t : Transfer) : Prop :=
  Amount.Fits t.id ∧ Amount.Fits t.source ∧ Amount.Fits t.destination ∧ Amount.Fits t.amount

def shown (t : Transfer) : Transfer := { t with createdAt := t.createdAt.shown }

theorem reads_toJson (t : Transfer) : Reads t.toJson := by
  apply reads_ofMembers
  simp [reads_integer, reads_text]

theorem ofJson?_toJson {t : Transfer} (h : t.Fits) : ofJson? t.toJson = some t.shown := by
  obtain ⟨hid, hsource, hdestination, hamount⟩ := h
  have hrecord : record? fieldNames t.toJson = some [.integer t.id, .integer t.source, .integer t.destination,
    .integer t.amount, .text t.createdAt.toText] := record?_ofMembers (show fieldNames.Nodup by decide)
  refine (bind_of_some hrecord).trans ?_
  simp [shown, Value.stored?_integer hid, Value.stored?_integer hsource, Value.stored?_integer hdestination,
    Value.stored?_integer hamount, Value.instant?_toText]

theorem fits_of_ofJson? {v : Value} {t : Transfer} (h : ofJson? v = some t) : t.Fits ∧ t.shown = t := by
  obtain ⟨values, -, h⟩ := Option.bind_eq_some_iff.1 h
  split at h
  · simp only [Option.bind_eq_bind, Option.bind_eq_some_iff] at h
    obtain ⟨id, hid, source, hsource, destination, hdestination, amount, hamount, createdAt, hcreated, h⟩ := h
    obtain rfl := Option.some.inj h
    exact ⟨⟨Value.fits_of_stored? hid, Value.fits_of_stored? hsource, Value.fits_of_stored? hdestination,
      Value.fits_of_stored? hamount⟩, by rw [shown, Value.shown_of_instant? hcreated]⟩
  · cases h

end Transfer

namespace TransferOrder

/-- The numbers of an order fit its fields. -/
def Fits (o : TransferOrder) : Prop := Amount.Fits o.source ∧ Amount.Fits o.destination ∧ Amount.Fits o.amount

theorem reads_toJson (o : TransferOrder) : Reads o.toJson := by
  apply reads_ofMembers
  simp [reads_integer]

theorem ofJson?_toJson {o : TransferOrder} (h : o.Fits) : ofJson? o.toJson = some o := by
  obtain ⟨hsource, hdestination, hamount⟩ := h
  have hrecord : record? fieldNames o.toJson = some [.integer o.source, .integer o.destination, .integer o.amount] :=
    record?_ofMembers (show fieldNames.Nodup by decide)
  refine (bind_of_some hrecord).trans ?_
  simp [Value.stored?_integer hsource, Value.stored?_integer hdestination, Value.stored?_integer hamount]

theorem fits_of_ofJson? {v : Value} {o : TransferOrder} (h : ofJson? v = some o) : o.Fits := by
  obtain ⟨values, -, h⟩ := Option.bind_eq_some_iff.1 h
  split at h
  · simp only [Option.bind_eq_bind, Option.bind_eq_some_iff] at h
    obtain ⟨source, hsource, destination, hdestination, amount, hamount, h⟩ := h
    obtain rfl := Option.some.inj h
    exact ⟨Value.fits_of_stored? hsource, Value.fits_of_stored? hdestination, Value.fits_of_stored? hamount⟩
  · cases h

end TransferOrder

namespace TransferReceipt

/-- The numbers of a receipt's records fit their fields. -/
def Fits (r : TransferReceipt) : Prop :=
  r.transfer.Fits ∧ r.source.Fits ∧ r.destination.Fits ∧ r.debit.Fits ∧ r.credit.Fits

def shown (r : TransferReceipt) : TransferReceipt :=
  ⟨r.transfer.shown, r.source.shown, r.destination.shown, r.debit.shown, r.credit.shown⟩

theorem reads_toJson (r : TransferReceipt) : Reads r.toJson := by
  apply reads_ofMembers
  simp [Transfer.reads_toJson, Account.reads_toJson, Entry.reads_toJson]

theorem ofJson?_toJson {r : TransferReceipt} (h : r.Fits) : ofJson? r.toJson = some r.shown := by
  obtain ⟨htransfer, hsource, hdestination, hdebit, hcredit⟩ := h
  have hrecord : record? fieldNames r.toJson = some [r.transfer.toJson, r.source.toJson, r.destination.toJson,
    r.debit.toJson, r.credit.toJson] := record?_ofMembers (show fieldNames.Nodup by decide)
  refine (bind_of_some hrecord).trans ?_
  simp [shown, Transfer.ofJson?_toJson htransfer, Account.ofJson?_toJson hsource, Account.ofJson?_toJson hdestination,
    Entry.ofJson?_toJson hdebit, Entry.ofJson?_toJson hcredit]

theorem fits_of_ofJson? {v : Value} {r : TransferReceipt} (h : ofJson? v = some r) : r.Fits ∧ r.shown = r := by
  obtain ⟨values, -, h⟩ := Option.bind_eq_some_iff.1 h
  split at h
  · simp only [Option.bind_eq_bind, Option.bind_eq_some_iff] at h
    obtain ⟨transfer, htransfer, source, hsource, destination, hdestination, debit, hdebit, credit, hcredit, h⟩ := h
    obtain rfl := Option.some.inj h
    obtain ⟨htransfer, hshown⟩ := Transfer.fits_of_ofJson? htransfer
    obtain ⟨hsource, hshown'⟩ := Account.fits_of_ofJson? hsource
    obtain ⟨hdestination, hshown''⟩ := Account.fits_of_ofJson? hdestination
    obtain ⟨hdebit, hdebit'⟩ := Entry.fits_of_ofJson? hdebit
    obtain ⟨hcredit, hcredit'⟩ := Entry.fits_of_ofJson? hcredit
    exact ⟨⟨htransfer, hsource, hdestination, hdebit, hcredit⟩, by
      rw [shown, hshown, hshown', hshown'', hdebit', hcredit']⟩
  · cases h

end TransferReceipt

namespace AuditReport

/-- The numbers of a report fit its fields. -/
def Fits (r : AuditReport) : Prop :=
  r.accountsChecked < countLimit ∧ r.transfersChecked < countLimit ∧
    Value.wideLeast ≤ r.totalBalance ∧ r.totalBalance ≤ Value.wideGreatest

theorem reads_toJson (r : AuditReport) : Reads r.toJson := by
  have hissues : Reads (.array (r.issues.map .text)) := by
    apply reads_array
    intro v hv
    obtain ⟨issue, -, rfl⟩ := List.mem_map.1 hv
    exact reads_text issue
  apply reads_ofMembers
  simp [reads_bool, reads_integer, hissues]

theorem ofJson?_toJson {r : AuditReport} (h : r.Fits) : ofJson? r.toJson = some r := by
  obtain ⟨haccounts, htransfers, htotal⟩ := h
  have hrecord : record? fieldNames r.toJson = some [.bool r.isValid, .array (r.issues.map .text),
    .integer r.accountsChecked, .integer r.transfersChecked, .integer r.totalBalance] :=
    record?_ofMembers (show fieldNames.Nodup by decide)
  refine (bind_of_some hrecord).trans ?_
  simp [Value.bool?, Value.texts?_map, Value.below?_integer haccounts, Value.below?_integer htransfers,
    Value.wide?_integer htotal]

theorem fits_of_ofJson? {v : Value} {r : AuditReport} (h : ofJson? v = some r) : r.Fits := by
  obtain ⟨values, -, h⟩ := Option.bind_eq_some_iff.1 h
  split at h
  · simp only [Option.bind_eq_bind, Option.bind_eq_some_iff] at h
    obtain ⟨isValid, -, issues, -, accounts, haccounts, transfers, htransfers, total, htotal, h⟩ := h
    obtain rfl := Option.some.inj h
    exact ⟨Value.lt_of_below? haccounts, Value.lt_of_below? htransfers, Value.fits_of_wide? htotal⟩
  · cases h

end AuditReport

/-! ## Configurations -/

namespace Setting

/-- The number of a setting fits its field. -/
def Fits : Setting → Prop
  | maxConnections n => n < Config.connectionLimit
  | acquireTimeoutSecs n => n < Config.timeLimit
  | transferTimeoutMs n => ∀ ms, n = some ms → ms < Config.timeLimit
  | _ => True

/-- What a configuration writes under the key of a setting. -/
def toJson : Setting → Value
  | databaseUrl url => Config.optional .text url
  | maxConnections n => .integer n
  | acquireTimeoutSecs n => .integer n
  | transferTimeoutMs n => Config.optional (fun n => .integer n) n
  | logLevel text => .text text
  | logJson on => .bool on

theorem reads_toJson (setting : Setting) : Reads setting.toJson := by
  cases setting with
  | databaseUrl url =>
    cases url with
    | none => exact reads_null
    | some url => exact reads_text url
  | maxConnections n => exact reads_integer n
  | acquireTimeoutSecs n => exact reads_integer n
  | transferTimeoutMs n =>
    cases n with
    | none => exact reads_null
    | some n => exact reads_integer n
  | logLevel text => exact reads_text text
  | logJson on => exact reads_bool on

theorem settingOfJson?_toJson {setting : Setting} (h : setting.Fits) :
    Config.settingOfJson? setting.key setting.toJson = some setting := by
  cases setting with
  | databaseUrl url => cases url <;> rfl
  | maxConnections n => rw [key, toJson, Config.settingOfJson?, Value.below?_integer h, Option.map_some]
  | acquireTimeoutSecs n => rw [key, toJson, Config.settingOfJson?, Value.below?_integer h, Option.map_some]
  | transferTimeoutMs n =>
    cases n with
    | none => rfl
    | some n =>
      show (((Value.integer n).below? Config.timeLimit).map some).map transferTimeoutMs = _
      rw [Value.below?_integer (h n rfl), Option.map_some, Option.map_some]
  | logLevel text => rfl
  | logJson on => rfl

theorem fits_of_settingOfJson? {key : ConfigKey} {v : Value} {setting : Setting}
    (h : Config.settingOfJson? key v = some setting) : setting.Fits := by
  cases key with
  | databaseUrl =>
    obtain ⟨url, -, rfl⟩ := Option.map_eq_some_iff.1 h
    trivial
  | maxConnections =>
    obtain ⟨n, hn, rfl⟩ := Option.map_eq_some_iff.1 h
    exact Value.lt_of_below? hn
  | acquireTimeoutSecs =>
    obtain ⟨n, hn, rfl⟩ := Option.map_eq_some_iff.1 h
    exact Value.lt_of_below? hn
  | transferTimeoutMs =>
    obtain ⟨n, hn, rfl⟩ := Option.map_eq_some_iff.1 h
    rintro ms rfl
    unfold Value.orNull? at hn
    split at hn
    · cases hn
    · obtain ⟨ms', hms, heq⟩ := Option.map_eq_some_iff.1 hn
      obtain rfl := Option.some.inj heq
      exact Value.lt_of_below? hms
  | logLevel =>
    obtain ⟨text, -, rfl⟩ := Option.map_eq_some_iff.1 h
    trivial
  | logJson =>
    obtain ⟨on, -, rfl⟩ := Option.map_eq_some_iff.1 h
    trivial

end Setting

namespace Config

/-- The numbers of a configuration fit its fields. -/
def Fits (c : Config) : Prop :=
  c.maxConnections < connectionLimit ∧ c.acquireTimeoutSecs < timeLimit ∧
    ∀ ms, c.transferTimeoutMs = some ms → ms < timeLimit

theorem fits_iff (c : Config) : c.Fits ↔ ∀ key, (c.get key).Fits := by
  constructor
  · intro ⟨hconnections, hacquire, htransfer⟩ key
    cases key with
    | maxConnections => exact hconnections
    | acquireTimeoutSecs => exact hacquire
    | transferTimeoutMs => exact htransfer
    | databaseUrl => trivial
    | logLevel => trivial
    | logJson => trivial
  · intro h
    exact ⟨h .maxConnections, h .acquireTimeoutSecs, h .transferTimeoutMs⟩

theorem fits_default : Fits {} := by
  simp [Fits, connectionLimit, timeLimit]

theorem key_get (c : Config) (key : ConfigKey) : (c.get key).key = key := by
  cases key <;> rfl

theorem ofName?_name (key : ConfigKey) : ConfigKey.ofName? key.name = some key := by
  cases key <;> decide

/-- What a configuration says about its keys, in their order. -/
def members (c : Config) : List (String × Value) := ConfigKey.all.map fun key => (key.name, (c.get key).toJson)

theorem toJson_eq (c : Config) : c.toJson = .ofMembers c.members := rfl

theorem reads_toJson (c : Config) : Reads c.toJson := by
  rw [toJson_eq]
  apply reads_ofMembers
  intro m hm
  obtain ⟨key, -, rfl⟩ := List.mem_map.1 hm
  exact (c.get key).reads_toJson

/-- A configuration is set to what it says about its keys. -/
theorem ofSettings?_get (c : Config) : ofSettings? (ConfigKey.all.map c.get) = some c := by
  have hkeys : (ConfigKey.all.map c.get).map Setting.key = ConfigKey.all := rfl
  have hnodup : ((ConfigKey.all.map c.get).map Setting.key).Nodup := by
    rw [hkeys]
    decide
  rw [ofSettings?, if_pos hnodup]
  refine congrArg some (ext_get fun key => ?_)
  have hmem : c.get key ∈ ConfigKey.all.map c.get := List.mem_map_of_mem (by cases key <;> decide)
  have hget := get_foldl_of_mem hnodup hmem {}
  rw [key_get] at hget
  exact hget

theorem ofJson?_toJson {c : Config} (h : c.Fits) : ofJson? c.toJson = some c := by
  have hnames : ∀ m ∈ c.members, m.1 ∈ ConfigKey.all.map ConfigKey.name := by
    intro m hm
    obtain ⟨key, hkey, rfl⟩ := List.mem_map.1 hm
    exact List.mem_map_of_mem hkey
  have hnodup : (c.members.map Prod.fst).Nodup := show (ConfigKey.all.map ConfigKey.name).Nodup by decide
  have hsettings : c.members.mapM (fun m => do settingOfJson? (← ConfigKey.ofName? m.1) m.2) =
      some (ConfigKey.all.map c.get) := by
    rw [members, List.mapM_map]
    refine mapM_eq_map fun key _ => ?_
    refine (bind_of_some (ofName?_name key)).trans ?_
    have hsetting := Setting.settingOfJson?_toJson ((fits_iff c).1 h key)
    rw [key_get] at hsetting
    exact hsetting
  refine (bind_of_some (fields?_ofMembers hnames hnodup)).trans ?_
  exact (bind_of_some hsettings).trans (ofSettings?_get c)

theorem fits_of_ofJson? {v : Value} {c : Config} (h : ofJson? v = some c) : c.Fits := by
  obtain ⟨fields, -, h⟩ := Option.bind_eq_some_iff.1 h
  obtain ⟨settings, hsettings, h⟩ := Option.bind_eq_some_iff.1 h
  simp only [ofSettings?, Option.ite_none_right_eq_some, Option.some.injEq] at h
  obtain ⟨hnodup, rfl⟩ := h
  rw [fits_iff]
  intro key
  by_cases hset : ∃ setting ∈ settings, setting.key = key
  · obtain ⟨setting, hmem, rfl⟩ := hset
    rw [get_foldl_of_mem hnodup hmem]
    obtain ⟨field, -, hfield⟩ := mem_of_mapM hsettings hmem
    obtain ⟨key, -, hsetting⟩ := Option.bind_eq_some_iff.1 hfield
    exact Setting.fits_of_settingOfJson? hsetting
  · rw [get_foldl_of_ne fun setting hmem heq => hset ⟨setting, hmem, heq⟩]
    exact (fits_iff {}).1 fits_default key

end Config

/-- **Records survive JSON.** Accounts, entries, transfers, orders, receipts, reports and
    configurations are read back from their compact texts, and the compact text of whatever a
    text was read as is accepted again and written the same. What is read back is what was
    written, with its instants as a clock shows them; and these are the instants themselves,
    unless one has the nanoseconds of a leap second after a second that is not the 59th of a
    minute. -/
theorem records_round_trip :
    (RoundTrips Account.ofJson? Account.toJson Account.shown Account.Fits ∧
      RoundTrips Entry.ofJson? Entry.toJson Entry.shown Entry.Fits ∧
      RoundTrips Transfer.ofJson? Transfer.toJson Transfer.shown Transfer.Fits ∧
      RoundTrips TransferOrder.ofJson? TransferOrder.toJson id TransferOrder.Fits ∧
      RoundTrips TransferReceipt.ofJson? TransferReceipt.toJson TransferReceipt.shown TransferReceipt.Fits ∧
      RoundTrips AuditReport.ofJson? AuditReport.toJson id AuditReport.Fits ∧
      RoundTrips Config.ofJson? Config.toJson id Config.Fits) ∧
    ∀ t : Instant, t.shown = t ↔ (1000000000 ≤ t.nanos → t.seconds % 60 = 59) := by
  refine ⟨⟨?_, ?_, ?_, ?_, ?_, ?_, ?_⟩, Instant.shown_eq_self_iff⟩
  · exact .of Account.reads_toJson (fun _ => Account.ofJson?_toJson) fun _ _ => Account.fits_of_ofJson?
  · exact .of Entry.reads_toJson (fun _ => Entry.ofJson?_toJson) fun _ _ => Entry.fits_of_ofJson?
  · exact .of Transfer.reads_toJson (fun _ => Transfer.ofJson?_toJson) fun _ _ => Transfer.fits_of_ofJson?
  · exact .of TransferOrder.reads_toJson (fun _ => TransferOrder.ofJson?_toJson) fun _ _ h =>
      ⟨TransferOrder.fits_of_ofJson? h, rfl⟩
  · exact .of TransferReceipt.reads_toJson (fun _ => TransferReceipt.ofJson?_toJson) fun _ _ =>
      TransferReceipt.fits_of_ofJson?
  · exact .of AuditReport.reads_toJson (fun _ => AuditReport.ofJson?_toJson) fun _ _ h =>
      ⟨AuditReport.fits_of_ofJson? h, rfl⟩
  · exact .of Config.reads_toJson (fun _ => Config.ofJson?_toJson) fun _ _ h => ⟨Config.fits_of_ofJson? h, rfl⟩

/-- The least id, the greatest balance, control characters and the last leap second there is;
    and an order from an array, which is written as an object from then on. -/
theorem records_round_trip_extremes :
    (Value.ofText? (Account.toJson ⟨Amount.least, "\u0000\"", "", Amount.greatest,
        ⟨8210266876799, 1999999999, by decide, by decide, by decide⟩⟩).toText).bind Account.ofJson? =
      some ⟨Amount.least, "\u0000\"", "", Amount.greatest,
        ⟨8210266876799, 1999999999, by decide, by decide, by decide⟩⟩ ∧
    compact? TransferOrder.ofJson? TransferOrder.toJson " [1, 2, -3]" =
      some "\x7b\"from_account_id\":1,\"to_account_id\":2,\"amount\":-3\x7d" ∧
    compact? TransferOrder.ofJson? TransferOrder.toJson
        "\x7b\"from_account_id\":1,\"to_account_id\":2,\"amount\":-3\x7d" =
      some "\x7b\"from_account_id\":1,\"to_account_id\":2,\"amount\":-3\x7d" := by
  obtain ⟨⟨haccount, -, -, horder, -⟩, -⟩ := records_round_trip
  have hwritten : compact? TransferOrder.ofJson? TransferOrder.toJson " [1, 2, -3]" =
      some "\x7b\"from_account_id\":1,\"to_account_id\":2,\"amount\":-3\x7d" := by cbv
  exact ⟨haccount.back _ ⟨by decide, by decide⟩, hwritten, horder.settled _ _ hwritten⟩

/-- A leap second after the 58th second of a minute is written as the 59th, and read as that:
    not every account is read back as it was. -/
theorem early_leap_is_not_read_back :
    let a : Account := ⟨1, "ann", "EUR", 0, ⟨58, 1000000000, by decide, by decide, by decide⟩⟩
    a.Fits ∧ a.createdAt.toText = "1970-01-01T00:00:59Z" ∧
      (Value.ofText? a.toJson.toText).bind Account.ofJson? =
        some ⟨1, "ann", "EUR", 0, ⟨59, 0, by decide, by decide, by decide⟩⟩ ∧
      (Value.ofText? a.toJson.toText).bind Account.ofJson? ≠ some a := by
  intro a
  have hfits : a.Fits := ⟨by decide, by decide⟩
  have htrips : RoundTrips Account.ofJson? Account.toJson Account.shown Account.Fits :=
    .of Account.reads_toJson (fun _ => Account.ofJson?_toJson) fun _ _ => Account.fits_of_ofJson?
  have hshown : a.shown = ⟨1, "ann", "EUR", 0, ⟨59, 0, by decide, by decide, by decide⟩⟩ := by
    simp [a, Account.shown, Instant.shown]
  have hback := htrips.back a hfits
  rw [hshown] at hback
  rw [hback]
  exact ⟨hfits, by cbv, rfl, by decide⟩

end Giro
