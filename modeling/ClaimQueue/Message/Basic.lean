/-
  ClaimQueue.Message.Basic — messages.

  A message is a unit of work: identity, a body nobody here looks into, headers, and the
  fields that schedule it. `visibleAt` is the first instant it can be claimed at,
  `expiresAt` the first at which it no longer can. `owner` and `heartbeatAt` belong to a
  claim. `version` goes up by one with every change of status and with nothing else, so a
  version names a stay in one status.
-/

import ClaimQueue.Error
import ClaimQueue.Json.Value
import ClaimQueue.Time.Instant

namespace ClaimQueue

structure Headers where
  correlationId : Option String
  custom : Table Json
  deriving Inhabited

def Headers.none : Headers := ⟨.none, .empty⟩

/-- A message about to be sent. -/
structure Draft where
  type : String
  body : List UInt8
  headers : Headers := Headers.none
  delay : Option Span := none
  expiration : Option Span := none
  priority : UInt16 := 0
  route : Option String := none
  deriving Inhabited

structure Message where
  id : MessageId
  type : String
  body : List UInt8
  headers : Headers
  status : Status
  queuedAt : Instant
  visibleAt : Option Instant
  expiresAt : Option Instant
  priority : UInt16
  route : Option String
  owner : Option WorkerId
  heartbeatAt : Option Instant
  /-- Claims so far. -/
  attempts : UInt32
  version : UInt64
  lastError : Option String
  /-- Handler failures so far, by kind. -/
  failures : Table UInt32
  updatedAt : Instant
  deriving Inhabited

namespace Message

/-- The message that a draft becomes at `now`. A delay or expiration that leads past the
last instant is dropped. -/
def ofDraft (id : MessageId) (draft : Draft) (now : Instant) : Message :=
  let visibleAt := draft.delay.bind now.add?
  { id
    type := draft.type
    body := draft.body
    headers := draft.headers
    status := if visibleAt.any (now < ·) then .delayed else .pending
    queuedAt := now
    visibleAt
    expiresAt := draft.expiration.bind now.add?
    priority := draft.priority
    route := draft.route
    owner := none
    heartbeatAt := none
    attempts := 0
    version := 0
    lastError := none
    failures := .empty
    updatedAt := now }

def isVisible (m : Message) (now : Instant) : Bool := m.visibleAt.all (· ≤ now)

def isExpired (m : Message) (now : Instant) : Bool := m.expiresAt.any (· ≤ now)

/-- Can a worker claim the message at `now`? -/
def isClaimable (m : Message) (now : Instant) : Bool :=
  m.status.isWaiting && m.isVisible now && !m.isExpired now

/-- Has the claim been silent for longer than `dead`? A span too long to measure never
passes, a claim without heartbeat is silent from the start. -/
def isClaimDead (m : Message) (now : Instant) (dead : Span) : Bool :=
  m.status == .working &&
    match m.heartbeatAt with
    | none => true
    | some beat => dead.measurable && (dead.nanos : Int) < now.since beat

def failuresOf (m : Message) (kind : String) : UInt32 := (m.failures.get? kind).getD 0

/-- The status that a freshly claimed message left: only a delayed message comes to its
first claim with a visibility past its queueing. -/
def claimedFrom (m : Message) : Status :=
  if m.attempts == 1 && m.visibleAt.any (m.queuedAt < ·) then .delayed else .pending

/-- The message after `worker` claimed it at `now`. -/
def claim (m : Message) (worker : WorkerId) (now : Instant) : Message :=
  { m with
    status := .working
    owner := some worker
    heartbeatAt := some now
    attempts := m.attempts + 1
    version := m.version + 1
    updatedAt := now }

/-- The message after its time has come. -/
def promote (m : Message) (now : Instant) : Message :=
  { m with
    status := .pending
    visibleAt := none
    version := m.version + 1
    updatedAt := now }

end Message

end ClaimQueue
