/-
  ClaimQueue.Work.Desk — what the workers and monitors of one consumer share.

  A scene is a desk at its site: all that a member of a crew can see and change.
-/

import ClaimQueue.Site.Call
import ClaimQueue.Upkeep.Pool
import ClaimQueue.Work.Bench

namespace ClaimQueue

structure Desk where
  config : QueueConfig
  /-- What the workers claim. -/
  filter : ClaimFilter
  bench : Bench
  claims : ClaimBook := {}
  tokens : Tokens := {}
  pool : Pool
  /-- The monitors are asked to stop. -/
  monitorsStop : Bool := false

namespace Desk

def ofConfig (config : QueueConfig) (filter : ClaimFilter) : Desk :=
  { config
    filter := { filter with order := config.priorityOrder }
    bench := { size := config.worker.count, collapse := config.worker.collapseWhenIdle }
    pool := { config := config.heartbeat.pool } }

instance : Inhabited Desk := ⟨.ofConfig {} {}⟩

end Desk

structure Scene where
  site : Site
  desk : Desk

namespace Scene

def queue (s : Scene) : String := s.site.queue

def time (s : Scene) : Nat := s.site.time

def note (s : Scene) (event : Event) (scopes : List Scope := []) : Scene :=
  { s with site := s.site.note event scopes }

/-- Make one step of a call. -/
def advance (s : Scene) (r : Request) (cancelled : Bool) (scopes : List Scope) (call : Call r.Reply) :
    Call r.Reply × Scene :=
  let (call, site) := call.step r cancelled scopes s.site
  (call, { s with site })

def setBench (s : Scene) (bench : Bench) : Scene := { s with desk := { s.desk with bench } }

def setClaims (s : Scene) (claims : ClaimBook) : Scene := { s with desk := { s.desk with claims } }

def setTokens (s : Scene) (tokens : Tokens) : Scene := { s with desk := { s.desk with tokens } }

def setPool (s : Scene) (pool : Pool) : Scene := { s with desk := { s.desk with pool } }

end Scene

end ClaimQueue
