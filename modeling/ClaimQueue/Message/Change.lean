/-
  ClaimQueue.Message.Change — changes of status that a worker asks for.

  A change names the status it starts from; the store makes it only if the message is
  still there at the version the worker saw. Claiming is no change: `check` refuses it.
-/

import ClaimQueue.Message.Basic

namespace ClaimQueue

structure Change where
  src : Status
  dst : Status
  /-- Visibility of a message that goes back to pending. -/
  visibleAt : Option Instant := none
  /-- Replaces the last error. -/
  error : Option String := none
  /-- The kind of failure to count. -/
  failure : Option String := none
  deriving DecidableEq, Repr, Inhabited

namespace Change

def complete : Change := { src := .working, dst := .complete }

def fail (error : String) : Change := { src := .working, dst := .error, error := some error }

/-- Give the claim back; nothing failed. -/
def rollback : Change := { src := .working, dst := .pending }

/-- Give the claim back after a failure, not to be claimed before `visibleAt`. -/
def requeue (error : String) (visibleAt : Option Instant) : Change :=
  { src := .working, dst := .pending, visibleAt, error := some error }

def counting (c : Change) (kind : String) : Change := { c with failure := some kind }

def isAllowed (c : Change) : Bool := c.dst != .working && c.src.canBecome c.dst

def check (c : Change) : Except Error Unit :=
  if c.isAllowed then .ok () else .error (.invalidTransition c.src c.dst)

/-- The message after the change at `now`. -/
def apply (c : Change) (m : Message) (now : Instant) : Message :=
  { m with
    status := c.dst
    version := m.version + 1
    updatedAt := now
    owner := if c.dst = .pending then none else m.owner
    heartbeatAt := if c.dst = .pending then none else m.heartbeatAt
    visibleAt := if c.dst = .pending then c.visibleAt else m.visibleAt
    lastError := c.error.or m.lastError
    failures := match c.failure with
      | some kind => m.failures.insert kind (m.failuresOf kind + 1)
      | none => m.failures }

end Change

end ClaimQueue
