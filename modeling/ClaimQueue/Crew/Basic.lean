/-
  ClaimQueue.Crew.Basic — the crews of a queue.

  A crew is a desk with the workers, monitors and runners at it; the engine is the site
  with all its crews. `Engine.move` lets one member make one step. Every run of the queue
  is a list of moves and of the steps of its callers, whatever schedule picked them.
-/

import ClaimQueue.Upkeep.Monitor
import ClaimQueue.Upkeep.Runner
import ClaimQueue.Work.Worker

namespace ClaimQueue

inductive Member where
  | worker (i : Nat)
  | monitor (i : Nat)
  | runner (i : Nat)
  deriving DecidableEq, Repr

structure Crew where
  desk : Desk
  workers : List Worker := []
  monitors : List Monitor := []
  runners : List Runner := []
  deriving Inhabited

namespace Crew

def members (c : Crew) : List Member :=
  (List.range c.workers.length).map .worker ++ (List.range c.monitors.length).map .monitor ++
    (List.range c.runners.length).map .runner

/-- Has the member finished? -/
def isOver (c : Crew) : Member → Bool
  | .worker i => (c.workers[i]?).all (·.isStopped)
  | .monitor i => (c.monitors[i]?).all (·.isStopped)
  | .runner i => (c.runners[i]?).all (·.isGone)

def isReady (c : Crew) (time : Nat) : Member → Bool
  | .worker i => (c.workers[i]?).any (·.isReady c.desk time)
  | .monitor i => (c.monitors[i]?).any (·.isReady c.desk time)
  | .runner i => (c.runners[i]?).any (·.isReady c.desk.pool time)

def alarm? (c : Crew) : Member → Option Nat
  | .worker i => (c.workers[i]?).bind (·.alarm?)
  | .monitor i => (c.monitors[i]?).bind (·.alarm?)
  | .runner i => (c.runners[i]?).bind (·.alarm?)

/-- One step of a member. -/
def move (c : Crew) (site : Site) (m : Member) : Crew × Site :=
  let scene : Scene := ⟨site, c.desk⟩
  match m with
  | .worker i =>
    match c.workers[i]? with
    | some w => let (w, s) := w.step scene; ({ c with desk := s.desk, workers := c.workers.set i w }, s.site)
    | none => (c, site)
  | .monitor i =>
    match c.monitors[i]? with
    | some m => let (m, s) := m.step scene; ({ c with desk := s.desk, monitors := c.monitors.set i m }, s.site)
    | none => (c, site)
  | .runner i =>
    match c.runners[i]? with
    | some r => let (r, s) := r.step scene; ({ c with desk := s.desk, runners := c.runners.set i r }, s.site)
    | none => (c, site)

/-- The runners that the pool hired are there. -/
def muster (c : Crew) : Crew :=
  let missing := List.range' c.runners.length (c.desk.pool.hired - c.runners.length)
  { c with runners := c.runners ++ missing.map fun number => { number } }

/-- Workers end where they stand. -/
def abandon (c : Crew) : Crew := { c with workers := c.workers.map (·.goTo .stopped) }

def workersOver (c : Crew) : Bool := c.workers.all (·.isStopped)

def monitorsOver (c : Crew) : Bool := c.monitors.all (·.isStopped)

end Crew

/-- A member of one of the crews. -/
structure Task where
  crew : Nat
  member : Member
  deriving DecidableEq, Repr

structure Engine where
  site : Site
  crews : List Crew := []

namespace Engine

def isOver (e : Engine) (t : Task) : Bool := (e.crews[t.crew]?).all (·.isOver t.member)

def isReady (e : Engine) (t : Task) : Bool := (e.crews[t.crew]?).any (·.isReady e.site.time t.member)

def alarm? (e : Engine) (t : Task) : Option Nat := (e.crews[t.crew]?).bind (·.alarm? t.member)

/-- One step of a task; new runners come with it. -/
def move (e : Engine) (t : Task) : Engine :=
  match e.crews[t.crew]? with
  | some c =>
    let (c, site) := c.move e.site t.member
    { site, crews := e.crews.set t.crew c.muster }
  | none => e

/-- The engine after moves in this order. -/
def run (e : Engine) (ts : List Task) : Engine := ts.foldl move e

def setCrew (e : Engine) (i : Nat) (c : Crew) : Engine := { e with crews := e.crews.set i c }

/-- Change the desk of crew `i`, from outside the crew. -/
def atDesk {α : Type} (e : Engine) (i : Nat) (default : α) (f : Scene → α × Scene) : α × Engine :=
  match e.crews[i]? with
  | some c =>
    let (a, s) := f ⟨e.site, c.desk⟩
    (a, { site := s.site, crews := e.crews.set i { c with desk := s.desk }.muster })
  | none => (default, e)

end Engine

end ClaimQueue
