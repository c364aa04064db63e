/-
  ClaimQueue.Work.Worker — a worker: claim, hand to the handler, record the outcome.

  A worker goes round: it claims a message, registers the claim, runs the handler,
  takes the claim off the book, records the outcome and purges the message if it ended.
  It pauses after a claim that found nothing or failed, longer with every such claim in a
  row, and waits for a wake when all workers are idle. A lost race is no failure and needs
  no pause. `step` makes one step; whatever the workers share changes once in it at most,
  so others may come between any two changes.
-/

import ClaimQueue.Work.Handling

namespace ClaimQueue

inductive Stage where
  | starting
  /-- The head of the round. -/
  | looking
  /-- All seem idle: about to note the count of wakes. -/
  | enabling
  /-- About to look a last time whether all are idle. -/
  | checking (ticket : Nat)
  | parked (ticket : Nat)
  | claiming (call : Call (Option Message))
  /-- A claim came back with a message. -/
  | found (m : Message)
  | announcing (m : Message)
  | opening (m : Message)
  | handling (m : Message) (token : Token) (handler : Handling)
  | returned (m : Message) (outcome : Outcome)
  | settling (m : Message) (outcome : Outcome)
  | recording (m : Message) (change : Change) (call : Call Message)
  | purging (m : Message) (change : Change) (call : Call Bool)
  /-- A claim came back with nothing. -/
  | emptyHanded
  | pausing (wake : Nat)
  | leaving
  | stopped

structure Worker where
  index : Nat
  id : WorkerId
  /-- Marked idle on the bench. -/
  idle : Bool := false
  /-- Claims in a row that found nothing. -/
  emptyStreak : Nat := 0
  /-- Claims that failed since the last message. -/
  fatalStreak : Nat := 0
  stage : Stage := .starting

namespace Worker

def isStopped (w : Worker) : Bool :=
  match w.stage with
  | .stopped => true
  | _ => false

/-- Can the worker move, or does it wait? -/
def isReady (w : Worker) (d : Desk) (time : Nat) : Bool :=
  match w.stage with
  | .parked ticket => d.tokens.shutdown || d.bench.isWoken ticket
  | .claiming call => call.isReady d.tokens.shutdown time
  | .handling _ token handler => handler.isReady time (d.tokens.isCancelled token)
  | .recording _ _ call => call.isReady false time
  | .purging _ _ call => call.isReady false time
  | .pausing wake => d.tokens.shutdown || wake ≤ time
  | .stopped => false
  | _ => true

def alarm? (w : Worker) : Option Nat :=
  match w.stage with
  | .claiming call => call.alarm?
  | .handling _ _ handler => handler.alarm?
  | .recording _ _ call => call.alarm?
  | .purging _ _ call => call.alarm?
  | .pausing wake => some wake
  | _ => none

/-- Only the first worker keeps asking while all find the queue empty. -/
def shouldPark (w : Worker) (b : Bench) : Bool := w.idle && w.index != 0 && b.collapse && b.allIdle

def scope (w : Worker) (queue : String) (m : Message) (status : Status) : Scope :=
  .message queue m.id w.id m.attempts status

/-! ## Outcomes -/

/-- The change for a message whose handler failed: back to pending while its kind of fault
has a delay left, else to its end. -/
def failureChange (config : QueueConfig) (rollback : Bool) (now : Instant) (m : Message) (f : HandlerFault) :
    Change :=
  let failures := if m.failuresOf f.kind = 0xffffffff then 0xffffffff else m.failuresOf f.kind + 1
  let delay := if config.errorPolicy = .requeue ∧ rollback then config.retryDelays.delayFor? f.kind failures else none
  match delay with
  | some delay => (Change.requeue f.toText (if delay.isZero then none else now.add? delay)).counting f.kind
  | none => (Change.fail f.toText).counting f.kind

/-- The change that records an outcome; none for a cancelled handler whose claim cannot
be given back. -/
def outcomeChange (config : QueueConfig) (rollback : Bool) (now : Instant) (m : Message) : Outcome → Option Change
  | .ok () => some .complete
  | .error f =>
    if f.cancelled then (if rollback then some .rollback else none)
    else some (failureChange config rollback now m f)

/-- What the log says of an outcome before it is recorded. -/
def outcomeEvent? (m : Message) (change : Option Change) : Outcome → Option Event
  | .ok () => none
  | .error f =>
    if f.cancelled then some (if change.isSome then .rollingBack m.id else .claimLeft m.id)
    else some (.handlerFailed m.id m.attempts f (change.any (·.dst == .pending)))

/-! ## Steps -/

def goTo (w : Worker) (stage : Stage) : Worker := { w with stage }

/-- After a claim came back. -/
def claimed (w : Worker) (s : Scene) : Except Error (Option Message) → Worker × Scene
  | .ok (some m) => (w.goTo (.found m), s)
  | .ok none => (w.goTo .emptyHanded, s)
  | .error e =>
    if e.isStale then (w.goTo .looking, s.note (.claimRaceLost w.id e))
    else
      let wait := s.desk.config.fatalDelays.delayFor w.fatalStreak
      ({ w with fatalStreak := w.fatalStreak + 1, stage := .pausing (s.time + wait.ticks) },
        s.note (.claimFailed s.queue w.id e wait))

/-- After the outcome was recorded, or not. -/
def recorded (w : Worker) (s : Scene) (m : Message) (change : Change) : Except Error Message → Worker × Scene
  | .ok updated =>
    let s := s.note (.transition change.src change.dst) [w.scope s.queue m change.dst]
    if updated.status.isTerminal && s.desk.config.retention == .purge then
      (w.goTo (.purging m change .start), s)
    else (w.goTo .looking, s)
  | .error e =>
    (w.goTo .looking,
      s.note (if e.isStale then .outcomeLate m.id e else .outcomeFailed m.id e) [w.scope s.queue m change.src])

def step (w : Worker) (s : Scene) : Worker × Scene :=
  match w.stage with
  | .starting => (w.goTo .looking, s.note (.workerStarted s.queue w.id))
  | .looking =>
    if s.desk.tokens.shutdown then (w.goTo .leaving, s)
    else if w.shouldPark s.desk.bench then (w.goTo .enabling, s)
    else (w.goTo (.claiming .start), s)
  | .enabling => (w.goTo (.checking s.desk.bench.wakes), s)
  | .checking ticket =>
    if s.desk.bench.allIdle then (w.goTo (.parked ticket), s.note (.parked w.id))
    else (w.goTo .looking, s)
  | .parked ticket =>
    if s.desk.tokens.shutdown then (w.goTo .leaving, s)
    else if s.desk.bench.isWoken ticket then (w.goTo .looking, s)
    else (w, s)
  | .claiming (.done result) => w.claimed s result
  | .claiming call =>
    let (call, s) := s.advance (.tryClaim w.id s.desk.filter) s.desk.tokens.shutdown [] call
    (w.goTo (.claiming call), s)
  | .found m =>
    ({ w with idle := false, emptyStreak := 0, fatalStreak := 0, stage := .announcing m },
      if w.idle then s.setBench s.desk.bench.markBusy else s)
  | .announcing m => (w.goTo (.opening m), s.setBench s.desk.bench.wake)
  | .opening m =>
    let (token, tokens) := s.desk.tokens.issue
    let s := (s.setTokens tokens).setClaims (s.desk.claims.register m.id ⟨w.id, token⟩)
    (w.goTo (.handling m token .arriving),
      s.note (.transition m.claimedFrom .working) [w.scope s.queue m .working])
  | .handling m _ (.done outcome) => (w.goTo (.returned m outcome), s)
  | .handling m token handler =>
    let (handler, s) := handler.step w.id m token s
    (w.goTo (.handling m token handler), s)
  | .returned m outcome => (w.goTo (.settling m outcome), s.setClaims (s.desk.claims.remove m.id w.id).2)
  | .settling m outcome =>
    let change := outcomeChange s.desk.config s.site.backend.capabilities.rollback s.site.now m outcome
    let s := match outcomeEvent? m change outcome with
      | some event => s.note event [w.scope s.queue m .working]
      | none => s
    match change with
    | some change => (w.goTo (.recording m change .start), s)
    | none => (w.goTo .looking, s)
  | .recording m change (.done result) => w.recorded s m change result
  | .recording m change call =>
    let (call, s) := s.advance (.updateStatus m.id change m.version) false [w.scope s.queue m .working] call
    (w.goTo (.recording m change call), s)
  | .purging m change (.done result) =>
    (w.goTo .looking,
      match result with
      | .ok _ => s
      | .error e => s.note (.purgeFailed m.id e) [w.scope s.queue m change.dst])
  | .purging m change call =>
    let (call, s) := s.advance (.delete m.id) false [w.scope s.queue m change.dst] call
    (w.goTo (.purging m change call), s)
  | .emptyHanded =>
    let wait := s.desk.config.emptyDelays.delayFor w.emptyStreak
    ({ w with idle := true, emptyStreak := w.emptyStreak + 1, stage := .pausing (s.time + wait.ticks) },
      if w.idle then s else s.setBench s.desk.bench.markIdle)
  | .pausing wake =>
    if s.desk.tokens.shutdown then (w.goTo .leaving, s)
    else if wake ≤ s.time then (w.goTo .looking, s)
    else (w, s)
  | .leaving =>
    let s := if w.idle then s.setBench s.desk.bench.markBusy else s
    ({ w with idle := false, stage := .stopped }, s.note (.workerStopped s.queue w.id))
  | .stopped => (w, s)

end Worker

end ClaimQueue
