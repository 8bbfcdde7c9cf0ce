import Giro.Config
import Giro.Database.Url

/-
  Giro.Database.Connect — what an address asks of a connection, and how connecting fails
  when no server can be there.
-/

namespace Giro

/-- Where a database is to be found. A directory with a socket goes before the host. -/
structure Endpoint where
  host : List Char := "localhost".toList
  portNumber : Nat := 5432
  directory : Option String := none

namespace Endpoint

/-- How much of the connection has to be encrypted. -/
def encryptionModes : List String := ["disable", "allow", "prefer", "require", "verify-ca", "verify-full"]

/-- A path names a directory, anything else a host. -/
def withHost (e : Endpoint) (name : List Char) : Endpoint :=
  if name.head? = some '/' then { e with directory := some (String.ofList name) }
  else { e with host := name }

/-- Follows one parameter of the query; parameters that say nothing about the way to the
    database or how much it remembers are only looked at for their form. -/
def follow (e : Endpoint) (name value : List Char) : Option Endpoint :=
  match String.ofList name with
  | "sslmode" | "ssl-mode" =>
    if encryptionModes.contains (String.ofList (value.map Char.toLower)) then some e else none
  | "statement-cache-capacity" => do
    let n ← Text.decimal? (Text.dropPlus value)
    if n < 18446744073709551616 then some e else none
  | "host" => some (e.withHost value)
  | "hostaddr" =>
    if IpAddress.isV4 value || IpAddress.isV6 value then some { e with host := value } else none
  | "port" => do
    let n ← Text.decimal? (Text.dropPlus value)
    if n < 65536 then some { e with portNumber := n } else none
  | _ => some e

/-- The endpoint at the host of an address. A host that is a path has to be text once it is
    decoded; any other is left as it is written. -/
def atHost? (e : Endpoint) (host : List Char) : Option Endpoint :=
  if (Text.percentDecode (Text.utf8 host)).head? = some 0x2F then
    (Text.percentDecode? host).map e.withHost
  else if host.isEmpty then some e
  else some { e with host }

/-- The endpoint that an address describes, if its parts can be decoded and its
    parameters make sense. -/
def ofUrl? (u : Url) : Option Endpoint := do
  let e : Endpoint := { portNumber := u.portNumber.getD 5432 }
  let e ← e.atHost? u.host
  let _ ← Text.percentDecode? u.user
  let _ ← Text.percentDecode? u.password
  let _ ← Text.percentDecode? u.path
  u.query.foldlM (fun e p => e.follow p.1 p.2) e

/-- The path of a socket has fewer bytes than this. -/
def socketPathLimit : Nat := 108

/-- Why the socket in a directory cannot be opened, if it cannot. -/
def socketFault? (e : Endpoint) (isMissing : String → Bool) (directory : String) : Option String :=
  let path := s!"{directory}/.s.PGSQL.{e.portNumber}"
  if path.toList.contains '\x00' then some "paths must not contain interior null bytes"
  else if socketPathLimit ≤ path.utf8ByteSize then some "path must be shorter than SUN_LEN"
  else if isMissing directory then some FileFault.missing.message
  else none

end Endpoint

/-- Why connecting to the database of an address fails for sure: the address makes no
    sense, there is no time to connect, or it names a socket that cannot be opened. -/
def connectFault? (isMissing : String → Bool) (url : String) (seconds : Nat) :
    Option DatabaseFault :=
  match (Url.ofText? url).bind Endpoint.ofUrl? with
  | none => some .unusableUrl
  | some e =>
    if seconds = 0 then some .poolTimedOut
    else (e.directory.bind (e.socketFault? isMissing)).map .communication

/-- Why opening the database of a configuration fails for sure. -/
def Config.connectError? (c : Config) (isMissing : String → Bool) : Option LedgerError :=
  match c.databaseUrl with
  | none => some (.config .noDatabaseUrl)
  | some url =>
    (connectFault? isMissing url c.acquireTimeoutSecs).map fun fault => .storage (.database fault)

end Giro
