/-
  ClaimQueue.Error — why an operation failed.

  Each error is a cause; the wording is `Error.message`. Only faults that another try can
  mend are transient. A lost race (`isStale`) is expected among workers and is no failure.
-/

import ClaimQueue.Message.Id
import ClaimQueue.Message.Status

namespace ClaimQueue

/-- What a database client reports. -/
inductive DatabaseFault where
  | poolTimedOut
  | poolClosed
  | rowNotFound
  | workerCrashed
  | configuration
  | io (text : String)
  | protocol (text : String)
  | columnNotFound (name : String)
  /-- Reported by the server, with its SQLSTATE code if it gave one. -/
  | server (code : Option String) (text : String)
  /-- Any other fault, with its text. -/
  | other (text : String)
  deriving DecidableEq, Repr

def DatabaseFault.message : DatabaseFault → String
  | .poolTimedOut => "pool timed out while waiting for an open connection"
  | .poolClosed => "attempted to acquire a connection on a closed pool"
  | .rowNotFound => "no rows returned by a query that expected to return at least one row"
  | .workerCrashed => "attempted to communicate with a crashed background worker"
  | .configuration => "error with configuration"
  | .io text => "error communicating with database: " ++ text
  | .protocol text => "encountered unexpected or invalid data: " ++ text
  | .columnNotFound name => "no column found for name: " ++ name
  | .server _ text => "error returned from database: " ++ text
  | .other text => text

/-- Why the tables could not be brought up to date. -/
inductive MigrationFault where
  | missing (version : Int)
  | execute (fault : DatabaseFault)
  deriving DecidableEq, Repr

def MigrationFault.message : MigrationFault → String
  | .missing version =>
    "migration " ++ toString version ++ " was previously applied but is missing in the resolved migrations"
  | .execute fault => "while executing migrations: " ++ fault.message

inductive Error where
  | notFound (what : String)
  /-- Not an edge of the life of a message. -/
  | invalidTransition (src dst : Status)
  /-- Someone else moved the message first. -/
  | staleState (id : MessageId) (expected actual : Status)
  | lostClaim (id : MessageId) (worker : String)
  /-- A fault of the storage that another try can mend. -/
  | transient (text : String)
  | retriesExhausted (policy : String) (attempts : UInt32) (source : Error)
  | validation (text : String)
  | handler (text : String)
  | config (text : String)
  | database (fault : DatabaseFault)
  | migration (fault : MigrationFault)
  | io (text : String)
  | serialization (text : String)
  | other (text : String)
  deriving DecidableEq, Repr, Inhabited

namespace Error

def message : Error → String
  | .notFound what => "message not found: " ++ what
  | .invalidTransition src dst => "invalid state transition: " ++ src.toText ++ " -> " ++ dst.toText
  | .staleState id expected actual =>
    "stale state for message " ++ id.toText ++ ": expected " ++ expected.toText ++ ", found " ++ actual.toText
  | .lostClaim id worker => "worker " ++ worker ++ " no longer holds the claim on message " ++ id.toText
  | .transient text => "transient transport fault: " ++ text
  | .retriesExhausted policy attempts source =>
    "policy " ++ policy ++ " gave up after " ++ toString attempts ++ " attempts: " ++ source.message
  | .validation text => "invalid message: " ++ text
  | .handler text => "handler failed: " ++ text
  | .config text => "configuration error: " ++ text
  | .database fault => "database error: " ++ fault.message
  | .migration fault => "migration error: " ++ fault.message
  | .io text => "io error: " ++ text
  | .serialization text => "serialization error: " ++ text
  | .other text => text

/-- What the error wraps, as text. -/
def cause? : Error → Option String
  | .retriesExhausted _ _ source => some source.message
  | .database fault => some fault.message
  | .migration fault => some fault.message
  | .io text => some text
  | .serialization text => some text
  | _ => none

/-- Worth another try. -/
def isTransient : Error → Bool
  | .transient _ => true
  | .database (.io _) => true
  | .database .poolTimedOut => true
  | _ => false

/-- A lost race: never tried again. -/
def isStale : Error → Bool
  | .staleState .. | .lostClaim .. => true
  | _ => false

end Error

/-- The status of this name. -/
def Status.read (s : String) : Except Error Status :=
  match ofText? s with
  | some status => .ok status
  | none => .error (.other ("unknown status: " ++ s))

end ClaimQueue
