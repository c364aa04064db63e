/-
  ClaimQueue.Site.Basic — what all parts of a queue share.

  A site holds the backend, the policies, the clock, the scripts of the handlers, and two
  accounts of what happened: the log for people, and the journal, which has every request
  that reached the backend and every call of a handler. `time` counts the milliseconds
  since the beginning. Nothing here waits: every function is one step.
-/

import ClaimQueue.Log.Event
import ClaimQueue.Policy.Registry
import ClaimQueue.Store.Backend
import ClaimQueue.Time.Clock

namespace ClaimQueue

/-- What the journal has an entry of. -/
inductive Deed where
  | served (request : Request) (result : Except Error request.Reply)
  | handlerStarted (worker : WorkerId) (message : Message) (rollback cancelled : Bool)
  | handlerEnded (worker : WorkerId) (id : MessageId) (ending : Ending) (cancelled : Bool)

structure Site where
  backend : Backend
  policies : Policies
  clock : Clock
  script : Script := fun _ => []
  /-- Number of the process that runs the workers. -/
  process : Nat := 1
  time : Nat := 0
  dice : Dice := default
  /-- Latest first. -/
  journal : List (Nat × Deed) := []
  /-- Latest first. -/
  log : List Logged := []

namespace Site

def queue (s : Site) : String := s.backend.name

def now (s : Site) : Instant := s.clock.read s.time

def note (s : Site) (event : Event) (scopes : List Scope := []) : Site :=
  { s with log := ⟨event, scopes⟩ :: s.log }

def enter (s : Site) (deed : Deed) : Site := { s with journal := (s.time, deed) :: s.journal }

/-! ## Chance -/

def throw (s : Site) : UInt64 × Site :=
  let (n, dice) := s.dice.throw
  (n, { s with dice })

def freshId (s : Site) : MessageId × Site :=
  let (n, dice) := s.dice.wide
  (.random n, { s with dice })

def freshWorker (s : Site) (index : Nat) : WorkerId × Site :=
  let (n, s) := s.throw
  (.generate s.process n.toNat index, s)

/-! ## Requests -/

/-- Serve a request as of `now`. -/
def serveAt (s : Site) (now : Instant) (r : Request) : Except Error r.Reply × Site :=
  let (result, backend) := s.backend.serve now r
  (result, { s with backend }.enter (.served r result))

def serve (s : Site) (r : Request) : Except Error r.Reply × Site := s.serveAt s.now r

/-- One attempt under a policy: a made-up fault, or the request itself. -/
def attempt (s : Site) (p : Policy) (n : UInt32) (now : Instant) (r : Request) :
    Except Error r.Reply × Site :=
  let (throw, s) := s.throw
  p.attempt n throw (fun s => s.serveAt now r) s

/-! ## Handlers -/

def nextPlan (s : Site) (type : String) : Plan × Site :=
  let (plan, script) := s.script.next type
  (plan, { s with script })

end Site

end ClaimQueue
