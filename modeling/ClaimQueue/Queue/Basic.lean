/-
  ClaimQueue.Queue.Basic — a queue.

  A queue is an engine with a schedule. Crew 0 is its own desk, where nobody works; every
  consumer that starts and every heartbeat monitor gets a crew of its own. Operations run
  under the policies and take as long as these wait; meanwhile the crews work on.
  Those named `Now` are made in one go, no time passes in them.
-/

import ClaimQueue.Crew.Stop
import ClaimQueue.Send.Sending

namespace ClaimQueue

/-- The command and the query policy of a configuration. -/
def Policies.withDefaults (ps : Policies) (c : PolicyConfig) (worth : Error → Bool := Error.isTransient) : Policies :=
  let retry := Retry.ofWaits c.retryCount c.minWait c.maxWait worth
  let chaos := if c.chaos then some (Chaos.ofRate true c.chaosRate) else none
  let policy (name : String) : Policy := { name, retry, chaos }
  (ps.register Policies.command (policy Policies.command)).register Policies.query (policy Policies.query)

structure Queue where
  plant : Plant

namespace Queue

/-- A queue, if it can run with the configuration. Without policies of its own it takes
those of the configuration. -/
def build (config : QueueConfig) (backend : Backend) (clock : Clock) (policies : Option Policies := none)
    (script : Script := fun _ => []) : Except Error Queue :=
  config.check.map fun _ =>
    let policies := policies.getD (Policies.empty.withDefaults config.policies)
    ⟨{ engine := {
        site := { backend, policies, clock, script }
        crews := [{ desk := .ofConfig config {} }] } }⟩

def site (q : Queue) : Site := q.plant.engine.site

def name (q : Queue) : String := q.site.queue

def capabilities (q : Queue) : Capabilities := q.site.backend.capabilities

def crew (q : Queue) (i : Nat) : Crew := (q.plant.engine.crews[i]?).getD default

def config (q : Queue) : QueueConfig := (q.crew 0).desk.config

def now (q : Queue) : Instant := q.site.now

/-- Milliseconds since the beginning. -/
def time (q : Queue) : Nat := q.site.time

def setSite (q : Queue) (site : Site) : Queue := ⟨{ q.plant with engine := { q.plant.engine with site } }⟩

def setClock (q : Queue) (clock : Clock) : Queue := q.setSite { q.site with clock }

def note (q : Queue) (event : Event) : Queue := q.setSite (q.site.note event)

/-- The engine after a change from outside; who can move now lines up. -/
def change (q : Queue) (f : Engine → Engine) : Queue := ⟨q.plant.settle (f q.plant.engine)⟩

variable {σ ρ α : Type}

def perform (q : Queue) (errand : Errand σ ρ) (x : σ) : Option ρ × Queue :=
  let (result, plant) := q.plant.perform errand x
  (result, ⟨plant⟩)

/-- Stands for the result of an errand that never ends. -/
def stuck : Error := .other "stuck"

def performResult (q : Queue) (errand : Errand σ (Except Error ρ)) (x : σ) : Except Error ρ × Queue :=
  let (result, q) := q.perform errand x
  (result.getD (.error stuck), q)

/-! ## Requests -/

/-- Serve a request under its policy. -/
def ask (q : Queue) (r : Request) : Except Error r.Reply × Queue :=
  q.performResult (.onSite (fun call s => call.step r false [] s) (fun call time => call.isReady false time)
    Call.alarm? Call.result?) Call.start

/-- Serve a request at once and without a policy. -/
def serve (q : Queue) (now : Instant) (r : Request) : Except Error r.Reply × Queue :=
  let (result, site) := q.site.serveAt now r
  (result, q.setSite site)

/-- Serve a request under its policy, asleep in the waits. -/
def askNow (q : Queue) (now : Instant) (r : Request) : Except Error r.Reply × Queue :=
  let (result, site) := q.site.ask now r
  (result, q.setSite site)

/-- Create the storage. -/
def create (q : Queue) : Except Error Unit × Queue :=
  let (result, q) := q.ask .create
  (result, if result.isOk then q.note (.queueCreated q.name) else q)

/-- Remove the queue with all its messages. -/
def remove (q : Queue) : Except Error Unit × Queue :=
  let (result, q) := q.ask .remove
  (result, if result.isOk then q.note (.queueRemoved q.name) else q)

def get (q : Queue) (id : MessageId) : Except Error (Option Message) × Queue := q.ask (.get id)

def count (q : Queue) (filter : CountFilter) : Except Error Nat × Queue := q.ask (.count filter)

/-- Messages not yet claimed. -/
def pendingCount (q : Queue) : Except Error Nat × Queue := q.count .waiting

/-! ## Sending -/

def send (q : Queue) (draft : Draft) : Except Error MessageId × Queue :=
  q.performResult (.onSite (fun x s => x.step s) (fun x time => x.isReady time) Sending.alarm? Sending.result?)
    (.starting draft)

def sendAll (q : Queue) (drafts : List Draft) : List (Except Error MessageId) × Queue :=
  let (results, q) := q.perform
    (.onSite (fun x s => x.step s) (fun x time => x.isReady time) Batch.alarm? Batch.results?) (.start drafts)
  (results.getD [], q)

def sendNow (q : Queue) (draft : Draft) : Except Error MessageId × Queue :=
  let (result, site) := q.site.send draft
  (result, q.setSite site)

def sendAllNow (q : Queue) (drafts : List Draft) : List (Except Error MessageId) × Queue :=
  let (results, site) := q.site.sendAll drafts
  (results, q.setSite site)

/-! ## Monitors -/

def expireOnce (q : Queue) : Except Error (List MessageId) × Queue :=
  q.performResult (.atDesk 0 (fun x s => x.step s) (fun x _ time => x.isReady time) Expiry.alarm? Expiry.result?)
    .start

/-- One pass of a monitor, with the claims of crew `i`. -/
def runRound (q : Queue) (i : Nat) (duty : Duty) : Except Error Nat × Queue :=
  q.performResult (.atDesk i (fun x s => x.step s) (fun x pool time => x.isReady pool time) Round.alarm? Round.result?)
    (.start duty)

def refresh (q : Queue) (i : Nat) : Nat × List MessageId × Queue :=
  let (result, q) := q.perform
    (.atDesk i (fun x s => x.step s) (fun x pool _ => x.isReady pool) (fun _ => none) Refresh.result?) .starting
  let (refreshed, lost) := result.getD (0, [])
  (refreshed, lost, q)

def reclaim (q : Queue) (i : Nat) : Except Error (List MessageId) × Queue :=
  q.performResult (.atDesk i (fun x s => x.step s) (fun x _ time => x.isReady time) Reclaim.alarm? Reclaim.result?)
    .start

def pulse (q : Queue) (i : Nat) : Except Error Pulse × Queue :=
  q.performResult (.atDesk i (fun x s => x.step s) (fun x pool time => x.isReady pool time) Pass.alarm? Pass.result?)
    .start

/-- The queue with one more crew, and the number of the crew. -/
def addCrew (q : Queue) (c : Crew) : Nat × Queue :=
  let i := q.plant.engine.crews.length
  let tasks := c.members.map (Task.mk i)
  (i, ⟨{ q.plant with
    engine := { q.plant.engine with crews := q.plant.engine.crews ++ [c] }
    ready := q.plant.ready ++ tasks }⟩)

/-- A heartbeat monitor with an empty claim book. -/
def addMonitor (q : Queue) : Nat × Queue := q.addCrew { desk := .ofConfig q.config {} }

/-- Use the desk of crew `i`. -/
def atDesk (q : Queue) (i : Nat) (default : α) (f : Scene → α × Scene) : α × Queue :=
  let (a, e) := q.plant.engine.atDesk i default f
  (a, ⟨q.plant.settle e⟩)

/-- Put a claim on the book of crew `i`. -/
def register (q : Queue) (i : Nat) (id : MessageId) (worker : WorkerId) : Token × Queue :=
  q.atDesk i ⟨0⟩ fun s =>
    let (token, tokens) := s.desk.tokens.issue
    (token, (s.setTokens tokens).setClaims (s.desk.claims.register id ⟨worker, token⟩))

/-- Take a claim of `worker` off the book of crew `i`. -/
def unregister (q : Queue) (i : Nat) (id : MessageId) (worker : WorkerId) : Option Holding × Queue :=
  q.atDesk i none fun s =>
    let (holding, claims) := s.desk.claims.remove id worker
    (holding, s.setClaims claims)

/-- Close the pool of crew `i`. -/
def closeMonitor (q : Queue) (i : Nat) : Queue :=
  (q.atDesk i () fun s => ((), s.setPool { s.desk.pool with closed := true })).2

/-! ## Time -/

inductive Nap where
  | asleep (wake : Nat)
  | over

/-- Let `ms` milliseconds pass. -/
def sleep (q : Queue) (ms : Nat) : Queue :=
  (q.perform (.onSite
    (fun x s => match x with
      | .asleep wake => (if wake ≤ s.time then .over else .asleep wake, s)
      | .over => (.over, s))
    (fun x time => match x with
      | .asleep wake => wake ≤ time
      | .over => true)
    (fun x => match x with
      | .asleep wake => some wake
      | .over => none)
    (fun x => match x with
      | .asleep _ => none
      | .over => some ())) (Nap.asleep (q.time + ms))).2

end Queue

end ClaimQueue
