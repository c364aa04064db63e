/-
  ClaimQueue.Upkeep.Pool — the runners that refresh heartbeats.

  Jobs wait in a channel. The pool counts the jobs on their way to a runner (`queued`), the
  runners at work (`busy`) and all runners (`live`); who submits a job starts another
  runner if queued jobs outnumber idle runners and fewer than `most` live. Runners take
  turns at the channel, first come first served; one that waits there for too long gives
  its place up, unless that leaves fewer than `least`. It takes the place back if a job came
  in just then and found it idle.

  Counters change one at a time, in steps of their own: others may come between any two.
-/

import ClaimQueue.Config.Queue
import ClaimQueue.Work.ClaimBook

namespace ClaimQueue

/-- The refresh of one claim. -/
structure Job where
  id : MessageId
  holding : Holding
  deriving DecidableEq, Repr, Inhabited

structure Report where
  job : Job
  result : Except Error Unit

structure Pool where
  config : PoolConfig
  live : UInt64 := 0
  busy : UInt64 := 0
  queued : UInt64 := 0
  channel : List Job := []
  /-- Runners at the channel; the first one may take a job. -/
  line : List Nat := []
  /-- Runners started so far. -/
  hired : Nat := 0
  /-- Refreshes done and not looked at yet. -/
  reports : List Report := []
  /-- Nobody submits jobs any more. -/
  closed : Bool := false

namespace Pool

def announce (p : Pool) : Pool := { p with queued := p.queued + 1 }

def send (p : Pool) (job : Job) : Pool := { p with channel := p.channel ++ [job] }

def report (p : Pool) (r : Report) : Pool := { p with reports := p.reports ++ [r] }

/-- Give up one runner unless that leaves fewer than `least`. -/
def retire (p : Pool) : Bool × Pool :=
  if p.config.least < p.live then (true, { p with live := p.live - 1 }) else (false, p)

def hire (p : Pool) : Pool := { p with hired := p.hired + 1 }

def joinLine (p : Pool) (runner : Nat) : Pool := { p with line := p.line ++ [runner] }

def leaveLine (p : Pool) (runner : Nat) : Pool := { p with line := p.line.filter (· != runner) }

end Pool

/-- Taking a runner's place, counter by counter. -/
inductive Reserve where
  | readLive
  | readBusy (live : UInt64)
  | readQueued (live idle : UInt64)
  /-- Take the place if still `live` runners live. -/
  | swap (live : UInt64)
  | done (taken : Bool)
  deriving DecidableEq, Repr

namespace Reserve

def start : Reserve := .readLive

def step (p : Pool) : Reserve → Reserve × Pool
  | .readLive => (.readBusy p.live, p)
  | .readBusy live => (.readQueued live (if p.busy ≤ live then live - p.busy else 0), p)
  | .readQueued live idle =>
    if idle < p.queued ∧ live < max p.config.most 1 then (.swap live, p) else (.done false, p)
  | .swap live =>
    if p.live = live then (.done true, { p with live := live + 1 }) else (.done false, p)
  | .done taken => (.done taken, p)

end Reserve

/-- Submitting a job, step by step. -/
inductive Submit where
  | announcing
  | sending
  | growing (reserve : Reserve)
  /-- The job is submitted; a runner must be started if its place was taken. -/
  | done (start : Bool)
  deriving DecidableEq, Repr

namespace Submit

def step (p : Pool) (job : Job) : Submit → Submit × Pool
  | .announcing => (.sending, p.announce)
  | .sending => (.growing .start, p.send job)
  | .growing (.done taken) => (.done taken, p)
  | .growing reserve =>
    let (reserve, p) := reserve.step p
    (.growing reserve, p)
  | .done start => (.done start, p)

end Submit

end ClaimQueue
