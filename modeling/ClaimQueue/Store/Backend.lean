/-
  ClaimQueue.Store.Backend — a store behind a name, a set of features and a fault script.

  The store may be a database that refuses connections; then no request gets through.
  The script says, per operation, which calls fail: before they reach the store, or after
  they took effect (`landed`, a lost acknowledgement). An empty script never fails.
-/

import ClaimQueue.Store.Database

namespace ClaimQueue

/-- What a backend offers beyond storing. -/
structure Capabilities where
  /-- Claims can be given back. -/
  rollback : Bool := true
  /-- Claims carry a heartbeat. -/
  heartbeat : Bool := true
  delayed : Bool := true
  expiration : Bool := true
  priority : Bool := true
  route : Bool := true
  /-- Messages can be counted by status. -/
  status : Bool := true
  deriving DecidableEq, Repr, Inhabited

def Capabilities.all : Capabilities := {}

structure Fault where
  error : Error
  /-- The call took effect all the same. -/
  landed : Bool := false
  deriving DecidableEq, Repr

/-- Faults of the calls to come, in order; `none` lets a call pass. -/
abbrev FaultScript := Operation → List (Option Fault)

structure Backend where
  name : String
  capabilities : Capabilities := {}
  store : Store := {}
  /-- Why the database behind the store refuses connections. -/
  refusal : Option DatabaseFault := none
  faults : FaultScript := fun _ => []

namespace Backend

/-- The backend after one call of `operation` took its place in the script. -/
def spend (b : Backend) (operation : Operation) : Backend :=
  { b with faults := fun o => if o = operation then (b.faults o).tail else b.faults o }

/-- What the store makes of a request that reaches it. -/
def pass (b : Backend) (now : Instant) (r : Request) : Except Error r.Reply × Backend :=
  match b.refusal with
  | some fault => (.error (r.refused fault now), b)
  | none => let (reply, store) := b.store.serve now r; (reply, { b with store })

def serve (b : Backend) (now : Instant) (r : Request) : Except Error r.Reply × Backend :=
  let fault := (b.faults r.operation).head?.join
  let b := b.spend r.operation
  match fault with
  | none => b.pass now r
  | some fault => (.error fault.error, if fault.landed then (b.pass now r).2 else b)

end Backend

end ClaimQueue
