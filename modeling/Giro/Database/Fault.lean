/-
  Giro.Database.Fault — how talking to a relational database fails, with the sentence for
  each cause.
-/

namespace Giro

inductive DatabaseFault where
  /-- A query that had to give a row gave none. -/
  | noRow
  | poolTimedOut
  | poolClosed
  /-- The worker behind a connection is gone. -/
  | workerCrashed
  | beginFailed
  /-- A transaction was begun in a special way inside another one. -/
  | nestedBegin
  /-- The address of the database cannot be read. -/
  | unusableUrl
  | configuration (text : String)
  | invalidArgument (text : String)
  | communication (text : String)
  | secureConnection (text : String)
  | invalidData (text : String)
  | unknownType (name : String)
  | unknownColumn (name : String)
  | columnOutOfBounds (index length : Nat)
  | columnUnreadable (column text : String)
  | encoding (text : String)
  | decoding (text : String)
  deriving DecidableEq

def DatabaseFault.message : DatabaseFault → String
  | noRow => "no rows returned by a query that expected to return at least one row"
  | poolTimedOut => "pool timed out while waiting for an open connection"
  | poolClosed => "attempted to acquire a connection on a closed pool"
  | workerCrashed => "attempted to communicate with a crashed background worker"
  | beginFailed => "got unexpected connection status after attempting to begin transaction"
  | nestedBegin => "attempted to call begin_with at non-zero transaction depth"
  | unusableUrl => "error with configuration"
  | configuration text => s!"error with configuration: {text}"
  | invalidArgument text => text
  | communication text => s!"error communicating with database: {text}"
  | secureConnection text => s!"error occurred while attempting to establish a TLS connection: {text}"
  | invalidData text => s!"encountered unexpected or invalid data: {text}"
  | unknownType name => s!"type named {name} not found"
  | unknownColumn name => s!"no column found for name: {name}"
  | columnOutOfBounds index length =>
    s!"column index out of bounds: the len is {length}, but the index is {index}"
  | columnUnreadable column text => s!"error occurred while decoding column {column}: {text}"
  | encoding text => s!"error occurred while encoding a value: {text}"
  | decoding text => s!"error occurred while decoding: {text}"

end Giro
