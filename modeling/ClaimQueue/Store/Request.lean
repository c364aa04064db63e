/-
  ClaimQueue.Store.Request — the operations of a store as data.

  A request says what is asked of the storage of a queue, `Request.Reply` what comes back,
  and `Store.serve` is what a store does. Runs are lists of requests with their instants.
-/

import ClaimQueue.Store.Basic

namespace ClaimQueue

inductive Request where
  | create
  | remove
  | enqueue (message : Message)
  | tryClaim (worker : WorkerId) (filter : ClaimFilter)
  | updateStatus (id : MessageId) (change : Change) (version : UInt64)
  | delete (id : MessageId)
  | get (id : MessageId)
  | count (filter : CountFilter)
  | resetHeartbeat (id : MessageId) (worker : WorkerId)
  | reclaimDead (dead : Span) (lookback : Option Span)
  | expireDue
  | promoteDelayed

/-- The operations, without their arguments. -/
inductive Operation where
  | create
  | remove
  | enqueue
  | tryClaim
  | updateStatus
  | delete
  | get
  | count
  | resetHeartbeat
  | reclaimDead
  | expireDue
  | promoteDelayed
  deriving DecidableEq, Repr

namespace Operation

def all : List Operation :=
  [.create, .remove, .enqueue, .tryClaim, .updateStatus, .delete, .get, .count, .resetHeartbeat,
    .reclaimDead, .expireDue, .promoteDelayed]

def toText : Operation → String
  | .create => "create_queue"
  | .remove => "remove_queue"
  | .enqueue => "enqueue"
  | .tryClaim => "try_claim"
  | .updateStatus => "update_status"
  | .delete => "delete"
  | .get => "get"
  | .count => "count"
  | .resetHeartbeat => "reset_heartbeat"
  | .reclaimDead => "reclaim_dead"
  | .expireDue => "expire_due"
  | .promoteDelayed => "promote_delayed"

def ofText? (s : String) : Option Operation := all.find? fun o => o.toText == s

/-- Does the operation only look? -/
def isQuery : Operation → Bool
  | .get | .count => true
  | _ => false

end Operation

namespace Request

def operation : Request → Operation
  | .create => .create
  | .remove => .remove
  | .enqueue _ => .enqueue
  | .tryClaim .. => .tryClaim
  | .updateStatus .. => .updateStatus
  | .delete _ => .delete
  | .get _ => .get
  | .count _ => .count
  | .resetHeartbeat .. => .resetHeartbeat
  | .reclaimDead .. => .reclaimDead
  | .expireDue => .expireDue
  | .promoteDelayed => .promoteDelayed

/-- What a served request gives back. -/
abbrev Reply : Request → Type
  | .create => Unit
  | .remove => Unit
  | .enqueue _ => MessageId
  | .tryClaim .. => Option Message
  | .updateStatus .. => Message
  | .delete _ => Bool
  | .get _ => Option Message
  | .count _ => Nat
  | .resetHeartbeat .. => Unit
  | .reclaimDead .. => List MessageId
  | .expireDue => List MessageId
  | .promoteDelayed => Nat

end Request

namespace Store

def serve (s : Store) (now : Instant) : (r : Request) → Except Error r.Reply × Store
  | .create => (.ok (), s)
  | .remove => (.ok (), s.clear)
  | .enqueue m => (.ok m.id, s.enqueue m)
  | .tryClaim worker filter => let (m, s) := s.tryClaim worker filter now; (.ok m, s)
  | .updateStatus id change version => s.updateStatus id change version now
  | .delete id => let (found, s) := s.delete id; (.ok found, s)
  | .get id => (.ok (s.get? id), s)
  | .count filter => (.ok (s.count filter), s)
  | .resetHeartbeat id worker => s.resetHeartbeat id worker now
  | .reclaimDead dead lookback => let (ids, s) := s.reclaimDead now dead lookback; (.ok ids, s)
  | .expireDue => let (ids, s) := s.expireDue now; (.ok ids, s)
  | .promoteDelayed => let (n, s) := s.promoteDelayed now; (.ok n, s)

/-- The store after requests, each at its instant. -/
def run (s : Store) (requests : List (Instant × Request)) : Store :=
  requests.foldl (fun s r => (s.serve r.1 r.2).2) s

end Store

end ClaimQueue
