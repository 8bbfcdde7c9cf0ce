import Giro.Error
import Giro.Text.Blank
import Giro.Text.Digits
import Giro.Yaml.Node

/-
  Giro.Config — what a ledger can be told before it starts, from a file and from the
  environment.

  A configuration is a set of settings over the defaults: at most one setting for each
  key, in any order (`Config.ofSettings?`). A database address in the environment takes
  the place of the one in the file, and only then are the values checked. How YAML is read
  is for the caller to say (`Yaml.Reader`).
-/

namespace Giro

structure Config where
  databaseUrl : Option String := none
  maxConnections : Nat := 10
  acquireTimeoutSecs : Nat := 5
  /-- How long a transfer may take, if there is a limit. -/
  transferTimeoutMs : Option Nat := some 5000
  logLevel : String := "info"
  logJson : Bool := false
  deriving DecidableEq

/-- The keys, in the order in which a configuration lists its fields. -/
inductive ConfigKey where
  | databaseUrl
  | maxConnections
  | acquireTimeoutSecs
  | transferTimeoutMs
  | logLevel
  | logJson
  deriving DecidableEq

/-- A key with its value. -/
inductive Setting where
  | databaseUrl (url : Option String)
  | maxConnections (n : Nat)
  | acquireTimeoutSecs (n : Nat)
  | transferTimeoutMs (n : Option Nat)
  | logLevel (text : String)
  | logJson (on : Bool)
  deriving DecidableEq

namespace ConfigKey

def all : List ConfigKey :=
  [databaseUrl, maxConnections, acquireTimeoutSecs, transferTimeoutMs, logLevel, logJson]

def name : ConfigKey → String
  | databaseUrl => "database_url"
  | maxConnections => "max_connections"
  | acquireTimeoutSecs => "acquire_timeout_secs"
  | transferTimeoutMs => "transfer_timeout_ms"
  | logLevel => "log_level"
  | logJson => "log_json"

def ofName? (name : String) : Option ConfigKey := all.find? (·.name == name)

end ConfigKey

def Setting.key : Setting → ConfigKey
  | databaseUrl _ => .databaseUrl
  | maxConnections _ => .maxConnections
  | acquireTimeoutSecs _ => .acquireTimeoutSecs
  | transferTimeoutMs _ => .transferTimeoutMs
  | logLevel _ => .logLevel
  | logJson _ => .logJson

namespace Config

/-- Counts of connections are below this: they have 32 bits. -/
def connectionLimit : Nat := 4294967296

/-- Times are below this: they have 64 bits. -/
def timeLimit : Nat := 18446744073709551616

def set (c : Config) : Setting → Config
  | .databaseUrl url => { c with databaseUrl := url }
  | .maxConnections n => { c with maxConnections := n }
  | .acquireTimeoutSecs n => { c with acquireTimeoutSecs := n }
  | .transferTimeoutMs n => { c with transferTimeoutMs := n }
  | .logLevel text => { c with logLevel := text }
  | .logJson on => { c with logJson := on }

/-- The defaults with settings over them, unless a key is set twice. -/
def ofSettings? (settings : List Setting) : Option Config :=
  if (settings.map Setting.key).Nodup then some (settings.foldl set {}) else none

/-! ## Values in a file -/

/-- A whole number below a limit: decimal without leading zeros, or in base 16, 8 or 2
    after `0x`, `0o` or `0b`; a `+` may stand in front. -/
def number? (limit : Nat) (text : String) : Option Nat := do
  let n ← match Text.dropPlus text.toList with
    | '0' :: 'x' :: digits => Text.inBase? 16 digits
    | '0' :: 'o' :: digits => Text.inBase? 8 digits
    | '0' :: 'b' :: digits => Text.inBase? 2 digits
    | '0' :: _ :: _ => none
    | digits => Text.decimal? digits
  if n < limit then some n else none

/-- The spellings of a value left out. -/
def isNull (text : String) : Bool := ["", "~", "null", "Null", "NULL"].contains text

def bool? (text : String) : Option Bool :=
  if ["true", "True", "TRUE"].contains text then some true
  else if ["false", "False", "FALSE"].contains text then some false
  else none

/-- The setting of a key to a scalar. Only without quotes is a scalar a number, a truth
    value or left out; a text is any scalar as it is written. -/
def setting? (key : ConfigKey) (text : String) (plain : Bool) : Option Setting :=
  match key with
  | .databaseUrl => some (.databaseUrl (if plain && isNull text then none else some text))
  | .maxConnections => if plain then (number? connectionLimit text).map .maxConnections else none
  | .acquireTimeoutSecs => if plain then (number? timeLimit text).map .acquireTimeoutSecs else none
  | .transferTimeoutMs =>
    if !plain then none
    else if isNull text then some (.transferTimeoutMs none)
    else (number? timeLimit text).map fun n => .transferTimeoutMs (some n)
  | .logLevel => some (.logLevel text)
  | .logJson => if plain then (bool? text).map .logJson else none

/-- The setting that a pair of a mapping makes: none under a key that is not known,
    whatever it holds. -/
def settingOfPair? : Yaml.Node × Yaml.Node → Option (Option Setting)
  | (.scalar name _, value) =>
    match ConfigKey.ofName? name, value with
    | none, _ => some none
    | some key, .scalar text plain => (setting? key text plain).map some
    | some _, _ => none
  | _ => none

/-- The configuration in a document: a mapping, or nothing for the defaults. -/
def ofNode? : Yaml.Node → Option Config
  | .scalar text plain => if plain && text == "" then some {} else none
  | .sequence _ => none
  | .mapping pairs => do ofSettings? ((← pairs.mapM settingOfPair?).filterMap id)

/-! ## Environment and checks -/

/-- The address in the environment counts unless it is blank, and then as it is. -/
def override (c : Config) (env : Option String) : Config :=
  match env with
  | none => c
  | some url => if Text.allBlank url.toList then c else { c with databaseUrl := some url }

/-- The values make sense: the first fault that is found. -/
def check (c : Config) : Outcome Config :=
  if c.maxConnections = 0 then .error (.config .noConnections)
  else if c.transferTimeoutMs = some 0 then .error (.config .zeroTimeout)
  else .ok c

/-- The configuration that is written in a text, or why there is none. -/
def parse (yaml : Yaml.Reader) (text : String) : Except String Config :=
  match yaml.read text with
  | .error why => .error why
  | .ok node => (ofNode? node).elim (.error (yaml.mismatch text)) .ok

/-- The configuration in a text, with the database address of the environment. -/
def ofText (yaml : Yaml.Reader) (text : String) (env : Option String) : Outcome Config :=
  match parse yaml text with
  | .error why => .error (.config (.invalid why))
  | .ok c => (c.override env).check

/-- The configuration in the bytes that were found under a path. -/
def ofFile (yaml : Yaml.Reader) (path : String) (bytes : Except FileFault ByteArray) (env : Option String) :
    Outcome Config :=
  match bytes with
  | .error fault => .error (.config (.unreadable path fault))
  | .ok bytes =>
    match String.fromUTF8? bytes with
    | none => .error (.config (.unreadable path .notText))
    | some text => ofText yaml text env

end Config

end Giro
