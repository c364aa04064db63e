/-
  ClaimQueue.Upkeep.Expiry — ending the messages whose time ran out.

  A pass ends them in the store and, if messages that ended are purged, deletes them one
  by one. A message that cannot be deleted does not stop the pass.
-/

import ClaimQueue.Work.Desk

namespace ClaimQueue

inductive Expiry where
  | scanning (call : Call (List MessageId))
  /-- About to delete the messages `rest`, the first one first. -/
  | purging (expired rest : List MessageId) (call : Call Bool)
  | done (result : Except Error (List MessageId))

namespace Expiry

def start : Expiry := .scanning .start

def isReady (time : Nat) : Expiry → Bool
  | .scanning call => call.isReady false time
  | .purging _ _ call => call.isReady false time
  | .done _ => true

def alarm? : Expiry → Option Nat
  | .scanning call => call.alarm?
  | .purging _ _ call => call.alarm?
  | .done _ => none

def result? : Expiry → Option (Except Error (List MessageId))
  | .done result => some result
  | _ => none

def purge (expired rest : List MessageId) : Expiry :=
  if rest.isEmpty then .done (.ok expired) else .purging expired rest .start

def step (s : Scene) : Expiry → Expiry × Scene
  | .scanning (.done (.error e)) => (.done (.error e), s)
  | .scanning (.done (.ok expired)) =>
    if expired.isEmpty then (.done (.ok []), s)
    else
      (if s.desk.config.retention = .purge then purge expired expired else .done (.ok expired),
        s.note (.expired s.queue expired.length))
  | .scanning call =>
    let (call, s) := s.advance .expireDue false [] call
    (.scanning call, s)
  | .purging expired [] _ => (.done (.ok expired), s)
  | .purging expired (id :: rest) (.done result) =>
    (purge expired rest,
      match result with
      | .ok _ => s
      | .error e => s.note (.expiredPurgeFailed s.queue id e))
  | .purging expired (id :: rest) call =>
    let (call, s) := s.advance (.delete id) false [] call
    (.purging expired (id :: rest) call, s)
  | .done result => (.done result, s)

end Expiry

end ClaimQueue
