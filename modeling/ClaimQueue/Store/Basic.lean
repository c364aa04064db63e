/-
  ClaimQueue.Store.Basic — the messages of one queue.

  A store keeps messages in the order they came in; `seq` numbers them and is never used
  twice. Every operation is one step: `enqueue` ignores an id it already holds, `tryClaim`
  hands the first eligible message to a worker, `updateStatus` makes a change only at the
  version it was asked for, and the three scans (`reclaimDead`, `expireDue`,
  `promoteDelayed`) look at every message once. Time is an argument everywhere.
-/

import ClaimQueue.Message.Change
import ClaimQueue.Message.Filter

namespace ClaimQueue

structure Entry where
  message : Message
  /-- Counts the messages that came in before. It has no upper bound: a count in 64 bits is the same as long as a store takes
  no more than 2⁶⁴ messages in its life. -/
  seq : Nat
  deriving Inhabited

structure Store where
  entries : List Entry := []
  /-- The number of the next message, unbounded as `Entry.seq` is. -/
  nextSeq : Nat := 0
  deriving Inhabited

namespace Store

def empty : Store := {}

def messages (s : Store) : List Message := s.entries.map (·.message)

def get? (s : Store) (id : MessageId) : Option Message := s.messages.find? (·.id == id)

def contains (s : Store) (id : MessageId) : Bool := s.messages.any (·.id == id)

/-- Change the messages that `p` holds of. -/
def modify (s : Store) (p : Message → Bool) (f : Message → Message) : Store :=
  { s with entries := s.entries.map fun e => if p e.message then { e with message := f e.message } else e }

/-- Store a new message; an id that is already here changes nothing. -/
def enqueue (s : Store) (m : Message) : Store :=
  if s.contains m.id then s else { entries := s.entries ++ [⟨m, s.nextSeq⟩], nextSeq := s.nextSeq + 1 }

/-! ## Claims -/

/-- Does `a` go before `b`? By priority, then by age, then by arrival. -/
def before (order : PriorityOrder) (a b : Entry) : Bool :=
  let ra := order.rank a.message.priority
  let rb := order.rank b.message.priority
  ra < rb || (ra == rb &&
    (a.message.queuedAt < b.message.queuedAt ||
      (a.message.queuedAt ≤ b.message.queuedAt && a.seq < b.seq)))

/-- The entry that no other goes before; the earlier of two alike. -/
def first? (order : PriorityOrder) : List Entry → Option Entry
  | [] => none
  | e :: rest =>
    match first? order rest with
    | none => some e
    | some b => if before order b e then some b else some e

def isEligible (filter : ClaimFilter) (now : Instant) (m : Message) : Bool :=
  m.isClaimable now && filter.admits m

/-- The message that a claim would take. -/
def next? (s : Store) (filter : ClaimFilter) (now : Instant) : Option Message :=
  (first? filter.order (s.entries.filter fun e => isEligible filter now e.message)).map (·.message)

/-- Claim the next eligible message. -/
def tryClaim (s : Store) (worker : WorkerId) (filter : ClaimFilter) (now : Instant) : Option Message × Store :=
  match s.next? filter now with
  | none => (none, s)
  | some m => (some (m.claim worker now), s.modify (·.id == m.id) (·.claim worker now))

/-! ## Outcomes -/

/-- Make a change if the message still is where the change starts, at `version`. -/
def updateStatus (s : Store) (id : MessageId) (change : Change) (version : UInt64) (now : Instant) :
    Except Error Message × Store :=
  match change.check with
  | .error e => (.error e, s)
  | .ok () =>
    match s.get? id with
    | none => (.error (.notFound ("message " ++ id.toText)), s)
    | some m =>
      if m.status = change.src ∧ m.version = version then
        (.ok (change.apply m now), s.modify (·.id == id) (change.apply · now))
      else (.error (.staleState id change.src m.status), s)

/-- Does the store hold the message? Then it is gone. -/
def delete (s : Store) (id : MessageId) : Bool × Store :=
  (s.contains id, { s with entries := s.entries.filter fun e => e.message.id != id })

def clear (s : Store) : Store := { s with entries := [] }

def count (s : Store) (filter : CountFilter) : Nat := s.messages.countP filter.admits

/-! ## Heartbeats -/

def holds (m : Message) (worker : WorkerId) : Bool := m.status == .working && m.owner == some worker

/-- Refresh the heartbeat of a claim that `worker` holds. -/
def resetHeartbeat (s : Store) (id : MessageId) (worker : WorkerId) (now : Instant) : Except Error Unit × Store :=
  if (s.get? id).any (holds · worker) then
    (.ok (), s.modify (·.id == id) fun m => { m with heartbeatAt := some now })
  else (.error (.lostClaim id worker.text), s)

/-! ## Scans -/

/-- The oldest heartbeat that a reclaim looks at; none if it looks at all. -/
def reclaimFloor (now : Instant) (dead : Span) (lookback : Option Span) : Option Instant :=
  lookback.bind dead.add? |>.bind now.sub?

def isReclaimable (now : Instant) (dead : Span) (lookback : Option Span) (m : Message) : Bool :=
  let inWindow := match reclaimFloor now dead lookback, m.heartbeatAt with
    | some floor, some beat => decide (floor ≤ beat)
    | _, _ => true
  m.isClaimDead now dead && inWindow

/-- Give back every claim that has been silent for longer than `dead`. -/
def reclaimDead (s : Store) (now : Instant) (dead : Span) (lookback : Option Span) : List MessageId × Store :=
  ((s.messages.filter (isReclaimable now dead lookback)).map (·.id),
    s.modify (isReclaimable now dead lookback) (Change.rollback.apply · now))

def isDue (now : Instant) (m : Message) : Bool := m.status.isWaiting && m.isExpired now

/-- End every waiting message whose time ran out. -/
def expireDue (s : Store) (now : Instant) : List MessageId × Store :=
  ((s.messages.filter (isDue now)).map (·.id),
    s.modify (isDue now) fun m => ({ src := m.status, dst := .expired : Change }).apply m now)

def isRipe (now : Instant) (m : Message) : Bool := m.status == .delayed && m.isVisible now && !m.isExpired now

/-- Make every delayed message pending whose time has come. -/
def promoteDelayed (s : Store) (now : Instant) : Nat × Store :=
  (s.messages.countP (isRipe now), s.modify (isRipe now) (·.promote now))

end Store

end ClaimQueue
