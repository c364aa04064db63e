/-
  ClaimQueue.Queue.Consumer — consumers: a configuration and, while it runs, a crew.

  The configuration can be edited until the consumer starts; the crew works with what it
  was at that moment. A consumer that stopped can be started again, with a new crew.
-/

import ClaimQueue.Queue.Basic

namespace ClaimQueue

structure Consumer where
  config : QueueConfig
  filter : ClaimFilter := {}
  /-- The crew at work. -/
  crew : Option Nat := none

namespace Consumer

def isRunning (c : Consumer) : Bool := c.crew.isSome

/-- Claims that the workers hold. -/
def inFlight (c : Consumer) (q : Queue) : Nat :=
  match c.crew with
  | some i => (q.crew i).desk.claims.size
  | none => 0

def edit (c : Consumer) (f : QueueConfig → QueueConfig) : Except Error Consumer :=
  if c.isRunning then .error (.config "configuration is frozen while the consumer is running")
  else .ok { c with config := f c.config }

/-- The workers of a crew, each with an id of its own. -/
def recruit (s : Site) (count : Nat) : List Worker × Site :=
  (List.range count).foldl (fun (ws, s) index =>
    let (id, s) := s.freshWorker index
    (ws ++ [{ index, id }], s)) ([], s)

def start (c : Consumer) (q : Queue) : Except Error (Consumer × Queue) :=
  if c.isRunning then .error (.config "consumer already started")
  else c.config.check.map fun _ =>
    let (workers, site) := recruit q.site c.config.worker.count.toNat
    let duties := Duty.all.filter (·.isOn c.config q.capabilities)
    let (i, q) := (q.setSite site).addCrew {
      desk := .ofConfig c.config c.filter
      workers
      monitors := duties.map fun duty => { duty } }
    ({ c with crew := some i }, q.note (.consumerStarted q.name workers.length))

def stop (c : Consumer) (q : Queue) : Consumer × Queue :=
  match c.crew with
  | none => (c, q)
  | some i => ({ c with crew := none }, (q.perform (Stop.errand i) .starting).2)

/-- Let go of a consumer: its crew is asked to stop, nobody waits for it. -/
def drop (c : Consumer) (q : Queue) : Queue :=
  match c.crew with
  | none => q
  | some i => q.change fun e =>
    match e.crews[i]? with
    | none => e
    | some crew => e.setCrew i
        { crew with desk := { crew.desk with tokens := crew.desk.tokens.shutDown, monitorsStop := true } }

end Consumer

end ClaimQueue
