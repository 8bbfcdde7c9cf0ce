import Giro.Config
import Mathlib

/-
  Giro.Proofs.Settings — what becomes of a configuration's text, under any environment.

  A configuration is known by what it says about each key (`Config.get`). Settings with
  different keys do not touch each other, so their order is forgotten (`ofSettings?_perm`),
  and pairs under unknown keys make no setting; what is left are the values in the mapping
  and, for the other keys, the defaults (`get_of_mapping`). The environment comes after that:
  it changes the address and nothing else, the address is never checked, and so all
  environments fail alike or succeed alike (`ofText_eq`). All of this holds whichever way
  YAML is read: a reader gives a document or its reasons not to, and both are passed on.

  Main statement: `ofText_settled`.
-/

namespace Giro

/-! ## Reading many things -/

/-- Reading many things succeeds when each can be read. -/
theorem mapM_eq {α β : Type} (f : α → Option β) (l : List α) :
    l.mapM f = if ∀ a ∈ l, (f a).isSome then some (l.filterMap f) else none := by
  induction l with
  | nil => rfl
  | cons a l ih =>
    rw [List.mapM_cons, ih]
    cases ha : f a with
    | none => simp [ha]
    | some b =>
      rw [List.filterMap_cons_some ha]
      by_cases hl : ∀ a ∈ l, (f a).isSome
      · rw [if_pos hl, if_pos (List.forall_mem_cons.2 ⟨by rw [ha]; rfl, hl⟩)]
        rfl
      · simp only [List.forall_mem_cons, hl, and_false, if_false]
        rfl

theorem mapM_eq_map {α β : Type} {f : α → Option β} {g : α → β} {l : List α}
    (h : ∀ a ∈ l, f a = some (g a)) : l.mapM f = some (l.map g) := by
  rw [mapM_eq, if_pos fun a ha => Option.isSome_of_mem (h a ha), List.filterMap_congr h, List.filterMap_eq_map']

theorem mapM_eq_self {α : Type} {f : α → Option α} {l : List α} (h : ∀ a ∈ l, f a = some a) :
    l.mapM f = some l :=
  (mapM_eq_map h).trans (congrArg some (List.map_id l))

theorem mem_of_mapM {α β : Type} {f : α → Option β} {l : List α} {bs : List β} (h : l.mapM f = some bs) {b : β}
    (hb : b ∈ bs) : ∃ a ∈ l, f a = some b := by
  rw [mapM_eq, Option.ite_none_right_eq_some, Option.some.injEq] at h
  obtain ⟨-, rfl⟩ := h
  exact List.mem_filterMap.1 hb

namespace Config

/-! ## Settings -/

/-- What a configuration says about a key. -/
def get (c : Config) : ConfigKey → Setting
  | .databaseUrl => .databaseUrl c.databaseUrl
  | .maxConnections => .maxConnections c.maxConnections
  | .acquireTimeoutSecs => .acquireTimeoutSecs c.acquireTimeoutSecs
  | .transferTimeoutMs => .transferTimeoutMs c.transferTimeoutMs
  | .logLevel => .logLevel c.logLevel
  | .logJson => .logJson c.logJson

/-- A configuration is what it says about its keys. -/
theorem ext_get {c c' : Config} (h : ∀ key, c.get key = c'.get key) : c = c' := by
  have hurl := h .databaseUrl
  have hconnections := h .maxConnections
  have hacquire := h .acquireTimeoutSecs
  have htransfer := h .transferTimeoutMs
  have hlevel := h .logLevel
  have hjson := h .logJson
  simp only [get, Setting.databaseUrl.injEq, Setting.maxConnections.injEq, Setting.acquireTimeoutSecs.injEq,
    Setting.transferTimeoutMs.injEq, Setting.logLevel.injEq, Setting.logJson.injEq] at *
  cases c
  cases c'
  simp_all

theorem get_set (c : Config) (setting : Setting) (key : ConfigKey) :
    (c.set setting).get key = if setting.key = key then setting else c.get key := by
  cases setting <;> cases key <;> rfl

/-- Settings of different keys do not touch each other. -/
theorem set_comm (c : Config) {a b : Setting} (h : a.key ≠ b.key) : (c.set a).set b = (c.set b).set a := by
  refine ext_get fun key => ?_
  rw [get_set, get_set, get_set, get_set]
  by_cases hb : b.key = key
  · have ha : a.key ≠ key := fun e => h (e.trans hb.symm)
    simp [hb, ha]
  · simp [hb]

theorem get_foldl_of_ne {settings : List Setting} {key : ConfigKey} (h : ∀ setting ∈ settings, setting.key ≠ key)
    (c : Config) : (settings.foldl set c).get key = c.get key := by
  induction settings generalizing c with
  | nil => rfl
  | cons setting settings ih =>
    obtain ⟨hne, hsettings⟩ := List.forall_mem_cons.1 h
    rw [List.foldl_cons, ih hsettings, get_set, if_neg hne]

theorem get_foldl_of_mem {settings : List Setting} (hnodup : (settings.map Setting.key).Nodup) {setting : Setting}
    (h : setting ∈ settings) (c : Config) : (settings.foldl set c).get setting.key = setting := by
  induction settings generalizing c with
  | nil => cases h
  | cons first settings ih =>
    obtain ⟨hfirst, hnodup⟩ := List.nodup_cons.1 hnodup
    rw [List.foldl_cons]
    rcases List.mem_cons.1 h with rfl | h
    · have hne : ∀ other ∈ settings, other.key ≠ setting.key := fun other hother e =>
        hfirst (List.mem_map.2 ⟨other, hother, e⟩)
      rw [get_foldl_of_ne hne, get_set, if_pos rfl]
    · exact ih hnodup h _

/-- The order of the settings does not matter. -/
theorem ofSettings?_perm {settings settings' : List Setting} (h : settings'.Perm settings) :
    ofSettings? settings' = ofSettings? settings := by
  have hnodup : (settings'.map Setting.key).Nodup ↔ (settings.map Setting.key).Nodup := (h.map _).nodup_iff
  unfold ofSettings?
  simp only [hnodup]
  split
  · rename_i hkeys
    refine congrArg some (h.foldl_eq' ?_ _)
    intro a ha b hb c
    by_cases hab : a.key = b.key
    · rw [List.inj_on_of_nodup_map (hnodup.2 hkeys) ha hb hab]
    · exact c.set_comm hab
  · rfl

/-! ## Mappings -/

/-- The key of a configuration that a pair is under, if it is one. -/
def keyOfPair? : Yaml.Node × Yaml.Node → Option ConfigKey
  | (.scalar name _, _) => ConfigKey.ofName? name
  | _ => none

/-- The pair is under a name that is no key of a configuration. -/
def isUnknown : Yaml.Node × Yaml.Node → Bool
  | (.scalar name _, _) => (ConfigKey.ofName? name).isNone
  | _ => false

theorem settingOfPair?_unknown {pair : Yaml.Node × Yaml.Node} (h : isUnknown pair = true) :
    settingOfPair? pair = some none := by
  obtain ⟨key, value⟩ := pair
  cases key with
  | scalar name plain => simp only [settingOfPair?, Option.isNone_iff_eq_none.1 h]
  | sequence items => cases h
  | mapping pairs => cases h

theorem key_of_setting? {key : ConfigKey} {text : String} {plain : Bool} {setting : Setting}
    (h : setting? key text plain = some setting) : setting.key = key := by
  cases key with
  | databaseUrl => cases h; rfl
  | logLevel => cases h; rfl
  | maxConnections =>
    simp only [setting?, Option.ite_none_right_eq_some, Option.map_eq_some_iff] at h
    obtain ⟨-, n, -, rfl⟩ := h
    rfl
  | acquireTimeoutSecs =>
    simp only [setting?, Option.ite_none_right_eq_some, Option.map_eq_some_iff] at h
    obtain ⟨-, n, -, rfl⟩ := h
    rfl
  | transferTimeoutMs =>
    simp only [setting?, Option.ite_none_left_eq_some] at h
    obtain ⟨-, h⟩ := h
    split at h
    · cases h; rfl
    · obtain ⟨n, -, rfl⟩ := Option.map_eq_some_iff.1 h
      rfl
  | logJson =>
    simp only [setting?, Option.ite_none_right_eq_some, Option.map_eq_some_iff] at h
    obtain ⟨-, b, -, rfl⟩ := h
    rfl

theorem keyOfPair?_of_setting {pair : Yaml.Node × Yaml.Node} {setting : Setting}
    (h : settingOfPair? pair = some (some setting)) : keyOfPair? pair = some setting.key := by
  obtain ⟨name, value⟩ := pair
  cases name with
  | scalar name plain =>
    simp only [settingOfPair?] at h
    split at h
    · cases h
    · rename_i key text plain' hkey
      obtain ⟨setting', hsetting, heq⟩ := Option.map_eq_some_iff.1 h
      obtain rfl := Option.some.inj heq
      rw [keyOfPair?, hkey, key_of_setting? hsetting]
    · cases h
  | sequence items => cases h
  | mapping pairs => cases h

/-- The settings that pairs make, those under unknown keys left out. -/
def settings? (pairs : List (Yaml.Node × Yaml.Node)) : Option (List Setting) :=
  (pairs.mapM settingOfPair?).map (·.filterMap id)

theorem ofNode?_mapping (pairs : List (Yaml.Node × Yaml.Node)) :
    ofNode? (.mapping pairs) = (settings? pairs).bind ofSettings? := by
  rw [settings?, Option.bind_map]
  rfl

theorem settings?_cons (pair : Yaml.Node × Yaml.Node) (pairs : List (Yaml.Node × Yaml.Node)) :
    settings? (pair :: pairs) =
      (settingOfPair? pair).bind fun setting => (settings? pairs).map (setting.toList ++ ·) := by
  rw [settings?, settings?, List.mapM_cons]
  cases settingOfPair? pair with
  | none => rfl
  | some setting =>
    cases pairs.mapM settingOfPair? with
    | none => rfl
    | some settings => cases setting <;> rfl

/-- Pairs under unknown keys make no difference. -/
theorem settings?_filter (pairs : List (Yaml.Node × Yaml.Node)) :
    settings? (pairs.filter (!isUnknown ·)) = settings? pairs := by
  induction pairs with
  | nil => rfl
  | cons pair pairs ih =>
    cases h : isUnknown pair with
    | true =>
      rw [List.filter_cons_of_neg (by simp [h]), ih, settings?_cons, settingOfPair?_unknown h]
      exact Option.map_id'.symm
    | false =>
      rw [List.filter_cons_of_pos (by simp [h]), settings?_cons, settings?_cons, ih]

theorem settings?_eq (pairs : List (Yaml.Node × Yaml.Node)) :
    settings? pairs =
      if ∀ pair ∈ pairs, (settingOfPair? pair).isSome then some ((pairs.filterMap settingOfPair?).filterMap id)
      else none := by
  rw [settings?, mapM_eq]
  split <;> rfl

/-- The order of the pairs makes no difference, nor what stands under unknown keys. -/
theorem ofNode?_perm {pairs pairs' : List (Yaml.Node × Yaml.Node)}
    (h : (pairs'.filter (!isUnknown ·)).Perm (pairs.filter (!isUnknown ·))) :
    ofNode? (.mapping pairs') = ofNode? (.mapping pairs) := by
  rw [ofNode?_mapping, ofNode?_mapping, ← settings?_filter pairs', ← settings?_filter pairs, settings?_eq,
    settings?_eq]
  simp only [h.mem_iff]
  split
  · exact ofSettings?_perm ((h.filterMap _).filterMap _)
  · rfl

theorem mem_settings? {pairs : List (Yaml.Node × Yaml.Node)} {settings : List Setting}
    (h : settings? pairs = some settings) (setting : Setting) :
    setting ∈ settings ↔ ∃ pair ∈ pairs, settingOfPair? pair = some (some setting) := by
  rw [settings?_eq, Option.ite_none_right_eq_some, Option.some.injEq] at h
  obtain ⟨-, rfl⟩ := h
  simp only [List.mem_filterMap, id, exists_eq_right]

/-- The pairs of a document; only a mapping has any. -/
def pairsOf : Yaml.Node → List (Yaml.Node × Yaml.Node)
  | .mapping pairs => pairs
  | _ => []

/-- No pair of a document is under a key. -/
def Lacks (node : Yaml.Node) (key : ConfigKey) : Prop := ∀ pair ∈ pairsOf node, keyOfPair? pair ≠ some key

/-- A configuration says what a document says, and where that says nothing, the default. -/
structure Says (node : Yaml.Node) (c : Config) : Prop where
  written : ∀ pair ∈ pairsOf node, ∀ setting, settingOfPair? pair = some (some setting) →
    c.get setting.key = setting
  absent : ∀ key, Lacks node key → c.get key = get {} key

theorem says_of_ofNode? {node : Yaml.Node} {c : Config} (h : ofNode? node = some c) : Says node c := by
  cases node with
  | scalar text plain =>
    simp only [ofNode?, Option.ite_none_right_eq_some, Option.some.injEq] at h
    obtain ⟨-, rfl⟩ := h
    exact ⟨fun pair hpair => absurd hpair List.not_mem_nil, fun _ _ => rfl⟩
  | sequence items => cases h
  | mapping pairs =>
    rw [ofNode?_mapping] at h
    obtain ⟨settings, hsettings, h⟩ := Option.bind_eq_some_iff.1 h
    simp only [ofSettings?, Option.ite_none_right_eq_some, Option.some.injEq] at h
    obtain ⟨hnodup, rfl⟩ := h
    constructor
    · intro pair hpair setting hsetting
      exact get_foldl_of_mem hnodup ((mem_settings? hsettings setting).2 ⟨pair, hpair, hsetting⟩) _
    · intro key habsent
      refine get_foldl_of_ne (fun setting hmem e => ?_) _
      obtain ⟨pair, hpair, hsetting⟩ := (mem_settings? hsettings setting).1 hmem
      exact habsent pair hpair (e ▸ keyOfPair?_of_setting hsetting)

/-! ## Environment and checks -/

/-- The address in use: the environment's as it is, if any of it is not white space, or else
    the one a configuration has of its own. -/
inductive AddressFrom (env own : Option String) : Option String → Prop where
  | environment {url : String} (set : env = some url) (visible : ∃ c ∈ url.toList, ¬ Text.isBlank c) :
    AddressFrom env own (some url)
  | file (blank : ∀ url, env = some url → ∀ c ∈ url.toList, Text.isBlank c) : AddressFrom env own own

theorem override_eq (c : Config) (env : Option String) :
    ∃ url, AddressFrom env c.databaseUrl url ∧ c.override env = { c with databaseUrl := url } := by
  cases env with
  | none => exact ⟨c.databaseUrl, .file (fun _ h => nomatch h), rfl⟩
  | some url =>
    by_cases hblank : ∀ ch ∈ url.toList, Text.isBlank ch
    · refine ⟨c.databaseUrl, .file (fun _ h => Option.some.inj h ▸ hblank), ?_⟩
      have hall : Text.allBlank url.toList = true := List.all_eq_true.2 hblank
      simp only [override, if_pos hall]
    · refine ⟨some url, .environment rfl (by simpa using hblank), ?_⟩
      have hvisible : ¬ Text.allBlank url.toList = true := fun h => hblank (List.all_eq_true.1 h)
      simp only [override, if_neg hvisible]

/-- The checks do not look at the address. -/
theorem check_databaseUrl (c : Config) (url : Option String) :
    { c with databaseUrl := url }.check = c.check.map ({ · with databaseUrl := url }) := by
  unfold check
  by_cases hconnections : c.maxConnections = 0
  · simp only [if_pos hconnections]; rfl
  · by_cases htimeout : c.transferTimeoutMs = some 0
    · simp only [if_neg hconnections, if_pos htimeout]; rfl
    · simp only [if_neg hconnections, if_neg htimeout]; rfl

theorem check_ok {c c' : Config} (h : c.check = .ok c') :
    c' = c ∧ 1 ≤ c.maxConnections ∧ ∀ ms, c.transferTimeoutMs = some ms → 0 < ms := by
  unfold check at h
  split at h
  · cases h
  · split at h
    · cases h
    · rename_i hconnections htimeout
      obtain rfl := Except.ok.inj h
      refine ⟨rfl, by omega, fun ms hms => ?_⟩
      by_contra hzero
      exact htimeout (by rw [hms, Nat.eq_zero_of_not_pos hzero])

theorem check_of_sound {c : Config} (hconnections : 1 ≤ c.maxConnections)
    (htimeout : ∀ ms, c.transferTimeoutMs = some ms → 0 < ms) : c.check = .ok c := by
  have hzero : c.transferTimeoutMs ≠ some 0 := fun h => (htimeout 0 h).ne' rfl
  rw [check, if_neg (by omega), if_neg hzero]

theorem check_error {c : Config} {fault : LedgerError} (h : c.check = .error fault) :
    fault = .config .noConnections ∨ fault = .config .zeroTimeout := by
  unfold check at h
  split at h
  · exact .inl (Except.error.inj h).symm
  · split at h
    · exact .inr (Except.error.inj h).symm
    · cases h

/-! ## Texts and files -/

variable (yaml : Yaml.Reader)

/-- A text holds a configuration just if a document is read from it and is one. -/
theorem parse_eq_ok_iff {text : String} {c : Config} :
    parse yaml text = .ok c ↔ ∃ node, yaml.read text = .ok node ∧ ofNode? node = some c := by
  unfold parse
  cases yaml.read text with
  | error why => simp
  | ok node => cases h : ofNode? node <;> simp [h]

/-- It holds none if the reader says so, or says what is wrong with the document that it has read. -/
theorem parse_eq_error_iff {text why : String} :
    parse yaml text = .error why ↔ yaml.read text = .error why ∨
      ∃ node, yaml.read text = .ok node ∧ ofNode? node = none ∧ yaml.mismatch text = why := by
  unfold parse
  cases yaml.read text with
  | error why' => simp
  | ok node => cases h : ofNode? node <;> simp [h]

/-- A text is refused with the reader's reason, or its own configuration is checked, whatever
    the environment. -/
theorem ofText_eq (text : String) (env : Option String) :
    (∃ why, parse yaml text = .error why ∧ ofText yaml text env = .error (.config (.invalid why))) ∨
      ∃ own url, parse yaml text = .ok own ∧ AddressFrom env own.databaseUrl url ∧
        ofText yaml text env = own.check.map ({ · with databaseUrl := url }) := by
  unfold ofText
  cases parse yaml text with
  | error why => exact .inl ⟨why, rfl, rfl⟩
  | ok own =>
    obtain ⟨url, haddress, heq⟩ := own.override_eq env
    exact .inr ⟨own, url, rfl, haddress, by rw [← check_databaseUrl, ← heq]⟩

/-- Two environments fail alike or give the same configuration, but for the address. -/
theorem ofText_alike (text : String) (env env' : Option String) :
    (∃ fault, ofText yaml text env = .error fault ∧ ofText yaml text env' = .error fault) ∨
      ∃ node own url url', yaml.read text = .ok node ∧ Says node own ∧
        AddressFrom env own.databaseUrl url ∧ ofText yaml text env = .ok { own with databaseUrl := url } ∧
        AddressFrom env' own.databaseUrl url' ∧ ofText yaml text env' = .ok { own with databaseUrl := url' } := by
  rcases ofText_eq yaml text env with ⟨why, hwhy, htext⟩ | ⟨own, url, hown, haddress, htext⟩
  · rcases ofText_eq yaml text env' with ⟨why', hwhy', htext'⟩ | ⟨own', url', hown', -, -⟩
    · obtain rfl := Except.error.inj (hwhy.symm.trans hwhy')
      exact .inl ⟨_, htext, htext'⟩
    · rw [hwhy] at hown'
      cases hown'
  · rcases ofText_eq yaml text env' with ⟨why, hwhy, -⟩ | ⟨own', url', hown', haddress', htext'⟩
    · rw [hwhy] at hown
      cases hown
    · obtain rfl := Except.ok.inj (hown.symm.trans hown')
      cases hcheck : own.check with
      | error fault =>
        rw [hcheck] at htext htext'
        exact .inl ⟨fault, htext, htext'⟩
      | ok c =>
        obtain ⟨rfl, -⟩ := check_ok hcheck
        rw [hcheck] at htext htext'
        obtain ⟨node, hnode, hown⟩ := (parse_eq_ok_iff yaml).1 hown
        exact .inr ⟨node, c, url, url', hnode, says_of_ofNode? hown, haddress, htext, haddress', htext'⟩

variable {yaml}

/-- What is accepted is what the text says, with the address of the environment, and it makes sense. -/
theorem ofText_inv {text : String} {env : Option String} {c : Config} (h : ofText yaml text env = .ok c) :
    ∃ node own, yaml.read text = .ok node ∧ ofNode? node = some own ∧ own.check = .ok own ∧
      AddressFrom env own.databaseUrl c.databaseUrl ∧ c = { own with databaseUrl := c.databaseUrl } := by
  rcases ofText_eq yaml text env with ⟨why, -, htext⟩ | ⟨own, url, hown, haddress, htext⟩
  · rw [h] at htext
    cases htext
  · obtain ⟨node, hnode, hown⟩ := (parse_eq_ok_iff yaml).1 hown
    cases hcheck : own.check with
    | error fault =>
      rw [h, hcheck] at htext
      cases htext
    | ok checked =>
      obtain ⟨rfl, -⟩ := check_ok hcheck
      rw [h, hcheck] at htext
      obtain rfl := Except.ok.inj htext
      exact ⟨node, checked, hnode, hown, hcheck, haddress, rfl⟩

/-- A text is accepted just if it is a configuration that makes sense, whatever the environment. -/
theorem ofText_ok_iff (text : String) (env : Option String) :
    (∃ c, ofText yaml text env = .ok c) ↔ ∃ node own, yaml.read text = .ok node ∧ ofNode? node = some own ∧
      1 ≤ own.maxConnections ∧ ∀ ms, own.transferTimeoutMs = some ms → 0 < ms := by
  constructor
  · intro ⟨c, hc⟩
    obtain ⟨node, own, hnode, hown, hcheck, -⟩ := ofText_inv hc
    exact ⟨node, own, hnode, hown, (check_ok hcheck).2⟩
  · intro ⟨node, own, hnode, hown, hconnections, htimeout⟩
    have hparse : parse yaml text = .ok own := (parse_eq_ok_iff yaml).2 ⟨node, hnode, hown⟩
    rcases ofText_eq yaml text env with ⟨why, hwhy, -⟩ | ⟨own', url, hown', -, htext⟩
    · rw [hparse] at hwhy
      cases hwhy
    · obtain rfl := Except.ok.inj (hparse.symm.trans hown')
      rw [check_of_sound hconnections htimeout] at htext
      exact ⟨_, htext⟩

/-- A text is refused for the reason that its reader has, or that a check has. -/
theorem ofText_error {text : String} {env : Option String} {fault : LedgerError}
    (h : ofText yaml text env = .error fault) :
    (∃ why, fault = .config (.invalid why) ∧ (yaml.read text = .error why ∨
        ∃ node, yaml.read text = .ok node ∧ ofNode? node = none ∧ yaml.mismatch text = why)) ∨
      ∃ node own, yaml.read text = .ok node ∧ ofNode? node = some own ∧ own.check = .error fault := by
  rcases ofText_eq yaml text env with ⟨why, hwhy, htext⟩ | ⟨own, url, hown, -, htext⟩
  · obtain rfl := Except.error.inj (h.symm.trans htext)
    exact .inl ⟨why, rfl, (parse_eq_error_iff yaml).1 hwhy⟩
  · obtain ⟨node, hnode, hown⟩ := (parse_eq_ok_iff yaml).1 hown
    refine .inr ⟨node, own, hnode, hown, ?_⟩
    cases hcheck : own.check with
    | error fault' =>
      rw [h, hcheck] at htext
      exact htext.symm
    | ok c =>
      rw [h, hcheck] at htext
      cases htext

/-- What is accepted makes sense, and what the text leaves out has its default, only the
    address may come from the environment. -/
theorem ofText_checked {text : String} {env : Option String} {c : Config} (h : ofText yaml text env = .ok c) :
    (1 ≤ c.maxConnections ∧ ∀ ms, c.transferTimeoutMs = some ms → 0 < ms) ∧
      ∃ node, yaml.read text = .ok node ∧
        (∀ key ≠ .databaseUrl, Lacks node key → c.get key = get {} key) ∧
        (Lacks node .databaseUrl → AddressFrom env none c.databaseUrl) := by
  obtain ⟨node, own, hnode, hown, hcheck, haddress, hc⟩ := ofText_inv h
  have hdefaults := says_of_ofNode? hown
  refine ⟨?_, node, hnode, fun key hkey hlacks => ?_, fun hlacks => ?_⟩
  · rw [hc]
    exact (check_ok hcheck).2
  · rw [← hdefaults.absent key hlacks, hc]
    exact (get_set own (.databaseUrl c.databaseUrl) key).trans (if_neg hkey.symm)
  · have hnone : own.databaseUrl = none := Setting.databaseUrl.inj (hdefaults.absent .databaseUrl hlacks)
    rw [hnone] at haddress
    exact haddress

/-- No text is taken for a file that cannot be read. -/
theorem ofText_ne_unreadable (text : String) (env : Option String) (path : String) (fault : FileFault) :
    ofText yaml text env ≠ .error (.config (.unreadable path fault)) := by
  intro h
  rcases ofText_error h with ⟨why, hinvalid, -⟩ | ⟨node, own, -, -, hcheck⟩
  · cases hinvalid
  · rcases check_error hcheck with h | h <;> cases h

theorem fromUTF8?_eq_some_iff {bytes : ByteArray} {text : String} :
    String.fromUTF8? bytes = some text ↔ text.toUTF8 = bytes := by
  unfold String.fromUTF8?
  constructor
  · intro h
    split at h
    · obtain rfl := Option.some.inj h
      rfl
    · cases h
  · rintro rfl
    exact dif_pos text.isValidUTF8

theorem ofFile_text (path : String) (text : String) (env : Option String) :
    ofFile yaml path (.ok text.toUTF8) env = ofText yaml text env := by
  simp only [ofFile, fromUTF8?_eq_some_iff.2 rfl]

theorem ofFile_unreadable_iff (path : String) (bytes : ByteArray) (env : Option String) :
    (∃ fault, ofFile yaml path (.ok bytes) env = .error (.config (.unreadable path fault))) ↔
      ¬ ∃ text : String, text.toUTF8 = bytes := by
  constructor
  · rintro ⟨fault, h⟩ ⟨text, rfl⟩
    exact ofText_ne_unreadable text env path fault (ofFile_text path text env ▸ h)
  · intro h
    cases hbytes : String.fromUTF8? bytes with
    | none => exact ⟨.notText, by simp only [ofFile, hbytes]⟩
    | some text => exact absurd ⟨text, fromUTF8?_eq_some_iff.1 hbytes⟩ h

/-- Texts whose known pairs are the same in some order give the same configuration, if any. -/
theorem ofText_perm {text text' : String} {pairs pairs' : List (Yaml.Node × Yaml.Node)}
    (h : yaml.read text = .ok (.mapping pairs)) (h' : yaml.read text' = .ok (.mapping pairs'))
    (hperm : (pairs'.filter (!isUnknown ·)).Perm (pairs.filter (!isUnknown ·))) (env : Option String) (c : Config) :
    ofText yaml text' env = .ok c ↔ ofText yaml text env = .ok c := by
  have hnode := ofNode?_perm hperm
  simp only [ofText, parse, h, h', hnode]
  cases ofNode? (.mapping pairs) with
  | none => simp
  | some own => rfl

/-- **A configuration's text decides everything but the address**, whichever way YAML is read.
    Under any two environments it is refused for the same reason, or accepted as what it says
    and, where it says nothing, the defaults, with the address of either environment. It is
    accepted just if what it says can be read, with a connection at least and no time limit of
    zero, and refused in the words of its reader or of the check that fails. The order of its
    pairs makes no difference, nor do pairs under unknown keys. A file is read as the text its
    bytes encode, and fails to be read just if they encode none. -/
theorem ofText_settled (yaml : Yaml.Reader) :
    (∀ text env env',
      (∃ fault, ofText yaml text env = .error fault ∧ ofText yaml text env' = .error fault) ∨
        ∃ node own url url', yaml.read text = .ok node ∧ Says node own ∧
          AddressFrom env own.databaseUrl url ∧ ofText yaml text env = .ok { own with databaseUrl := url } ∧
          AddressFrom env' own.databaseUrl url' ∧ ofText yaml text env' = .ok { own with databaseUrl := url' }) ∧
    (∀ text env, (∃ c, ofText yaml text env = .ok c) ↔
      ∃ node own, yaml.read text = .ok node ∧ ofNode? node = some own ∧
        1 ≤ own.maxConnections ∧ ∀ ms, own.transferTimeoutMs = some ms → 0 < ms) ∧
    (∀ text env fault, ofText yaml text env = .error fault →
      (∃ why, fault = .config (.invalid why) ∧ (yaml.read text = .error why ∨
          ∃ node, yaml.read text = .ok node ∧ ofNode? node = none ∧ yaml.mismatch text = why)) ∨
        ∃ node own, yaml.read text = .ok node ∧ ofNode? node = some own ∧ own.check = .error fault) ∧
    (∀ text env c, ofText yaml text env = .ok c →
      (1 ≤ c.maxConnections ∧ ∀ ms, c.transferTimeoutMs = some ms → 0 < ms) ∧
        ∃ node, yaml.read text = .ok node ∧
          (∀ key ≠ .databaseUrl, Lacks node key → c.get key = get {} key) ∧
          (Lacks node .databaseUrl → AddressFrom env none c.databaseUrl)) ∧
    (∀ text text' pairs pairs', yaml.read text = .ok (.mapping pairs) →
      yaml.read text' = .ok (.mapping pairs') →
      (pairs'.filter (!isUnknown ·)).Perm (pairs.filter (!isUnknown ·)) →
      ∀ env c, ofText yaml text' env = .ok c ↔ ofText yaml text env = .ok c) ∧
    (∀ path bytes env,
      (∀ text : String, text.toUTF8 = bytes → ofFile yaml path (.ok bytes) env = ofText yaml text env) ∧
      ((∃ fault, ofFile yaml path (.ok bytes) env = .error (.config (.unreadable path fault))) ↔
        ¬ ∃ text : String, text.toUTF8 = bytes)) := by
  refine ⟨ofText_alike yaml, ofText_ok_iff, fun _ _ _ => ofText_error, fun _ _ _ => ofText_checked,
    fun _ _ _ _ => ofText_perm, ?_⟩
  intro path bytes env
  refine ⟨?_, ofFile_unreadable_iff path bytes env⟩
  rintro text rfl
  exact ofFile_text path text env

/-- Three keys are left out and one is not known; the environment's address counts with the
    white space around it, and a blank one does not; a text that is none of the reader's is
    refused in the reader's words. -/
theorem ofText_settled_unknown_key :
    (ofText Yaml.reader "extra: 1\nmax_connections: 3\nlog_level: debug\n" (some " \t") =
        .ok { maxConnections := 3, logLevel := "debug" } ∧
      ofText Yaml.reader "extra: 1\nmax_connections: 3\nlog_level: debug\n" (some " x ") =
        .ok { databaseUrl := some " x ", maxConnections := 3, logLevel := "debug" } ∧
      ∃ node, Yaml.reader.read "extra: 1\nmax_connections: 3\nlog_level: debug\n" = .ok node ∧
        (∀ key ≠ .databaseUrl, Lacks node key →
          get { maxConnections := 3, logLevel := "debug" } key = get {} key) ∧
        (Lacks node .databaseUrl → AddressFrom (some " \t") none none)) ∧
    ofText Yaml.reader "log_level: debug\nmax_connections: 3\n" (some " \t") =
      .ok { maxConnections := 3, logLevel := "debug" } ∧
    (∃ why, ofText Yaml.reader "[" (some " x ") = .error (.config (.invalid why)) ∧
      Yaml.reader.read "[" = .error why) ∧
    (∃ fault, ofFile Yaml.reader "a.yaml" (.ok ⟨#[0xff]⟩) none =
      .error (.config (.unreadable "a.yaml" fault))) ∧
    ofFile Yaml.reader "a.yaml" (.ok "log_json: on".toUTF8) none = ofText Yaml.reader "log_json: on" none := by
  obtain ⟨-, -, herror, hchecked, hperm, hfile⟩ := ofText_settled Yaml.reader
  have hpairs : Yaml.reader.read "extra: 1\nmax_connections: 3\nlog_level: debug\n" =
      .ok (.mapping [(.scalar "extra" true, .scalar "1" true), (.scalar "max_connections" true, .scalar "3" true),
        (.scalar "log_level" true, .scalar "debug" true)]) := by cbv
  have hpairs' : Yaml.reader.read "log_level: debug\nmax_connections: 3\n" =
      .ok (.mapping [(.scalar "log_level" true, .scalar "debug" true),
        (.scalar "max_connections" true, .scalar "3" true)]) := by cbv
  have hbracket : Yaml.reader.read "[" = .error "no document" := by cbv
  have hblank : ofText Yaml.reader "extra: 1\nmax_connections: 3\nlog_level: debug\n" (some " \t") =
      .ok { maxConnections := 3, logLevel := "debug" } := by
    rw [ofText, parse, hpairs]
    rfl
  have haddress : ofText Yaml.reader "extra: 1\nmax_connections: 3\nlog_level: debug\n" (some " x ") =
      .ok { databaseUrl := some " x ", maxConnections := 3, logLevel := "debug" } := by
    rw [ofText, parse, hpairs]
    rfl
  have hrefused : ofText Yaml.reader "[" (some " x ") = .error (.config (.invalid "no document")) := by
    rw [ofText, parse, hbracket]
  refine ⟨⟨hblank, haddress, (hchecked _ _ _ hblank).2⟩, (hperm _ _ _ _ hpairs hpairs' (.swap _ _ _) _ _).2 hblank,
    ?_, ?_, ?_⟩
  · rcases herror _ _ _ hrefused with ⟨why, hwhy, hread | ⟨node, hread, -⟩⟩ | ⟨node, own, hread, -⟩
    · exact ⟨why, hwhy ▸ hrefused, hread⟩
    · rw [hbracket] at hread
      cases hread
    · rw [hbracket] at hread
      cases hread
  · refine (hfile "a.yaml" _ none).2.2 ?_
    rintro ⟨text, htext⟩
    have hbytes : String.fromUTF8? ⟨#[0xff]⟩ = none := by cbv
    rw [fromUTF8?_eq_some_iff.2 htext] at hbytes
    cases hbytes
  · exact (hfile "a.yaml" _ none).1 _ rfl

end Config

end Giro
