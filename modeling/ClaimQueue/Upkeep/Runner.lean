/-
  ClaimQueue.Upkeep.Runner — a runner of the pool.

  A runner waits in line for the channel, takes a job there, refreshes the claim, reports
  and lines up again. It leaves when the pool is closed, or when it waited at the channel
  for too long and its place can be given up.
-/

import ClaimQueue.Work.Desk

namespace ClaimQueue

inductive RunnerStage where
  | arriving
  | lined
  /-- First in line: takes a job, at the latest at `wake`. -/
  | receiving (wake : Nat)
  | took (job : Job)
  | counted (job : Job)
  | working (job : Job) (call : Call Unit)
  | finishing
  | retiring
  | reserving (reserve : Reserve)
  | closing
  | gone

structure Runner where
  number : Nat
  stage : RunnerStage := .arriving

namespace Runner

def isGone (r : Runner) : Bool :=
  match r.stage with
  | .gone => true
  | _ => false

def isReady (r : Runner) (p : Pool) (time : Nat) : Bool :=
  match r.stage with
  | .lined => p.line.head? == some r.number
  | .receiving wake => !p.channel.isEmpty || p.closed || wake ≤ time
  | .working _ call => call.isReady false time
  | .gone => false
  | _ => true

def alarm? (r : Runner) : Option Nat :=
  match r.stage with
  | .receiving wake => some wake
  | .working _ call => call.alarm?
  | _ => none

def goTo (r : Runner) (stage : RunnerStage) : Runner := { r with stage }

def step (r : Runner) (s : Scene) : Runner × Scene :=
  let pool := s.desk.pool
  match r.stage with
  | .arriving => (r.goTo .lined, s.setPool (pool.joinLine r.number))
  | .lined =>
    if pool.line.head? = some r.number then (r.goTo (.receiving (s.time + pool.config.idleTimeout.ticks)), s)
    else (r, s)
  | .receiving wake =>
    match pool.channel with
    | job :: rest => (r.goTo (.took job), s.setPool { pool.leaveLine r.number with channel := rest })
    | [] =>
      if pool.closed then (r.goTo .closing, s.setPool (pool.leaveLine r.number))
      else if wake ≤ s.time then (r.goTo .retiring, s.setPool (pool.leaveLine r.number))
      else (r, s)
  | .took job => (r.goTo (.counted job), s.setPool { pool with queued := pool.queued - 1 })
  | .counted job => (r.goTo (.working job .start), s.setPool { pool with busy := pool.busy + 1 })
  | .working job (.done result) => (r.goTo .finishing, s.setPool (pool.report ⟨job, result⟩))
  | .working job call =>
    let (call, s) := s.advance (.resetHeartbeat job.id job.holding.worker) false [] call
    (r.goTo (.working job call), s)
  | .finishing => (r.goTo .arriving, s.setPool { pool with busy := pool.busy - 1 })
  | .retiring =>
    let (retired, pool) := pool.retire
    (r.goTo (if retired then .reserving .start else .arriving), s.setPool pool)
  | .reserving (.done taken) => (r.goTo (if taken then .arriving else .gone), s)
  | .reserving reserve =>
    let (reserve, pool) := reserve.step pool
    (r.goTo (.reserving reserve), s.setPool pool)
  | .closing => (r.goTo .gone, s.setPool { pool with live := pool.live - 1 })
  | .gone => (r, s)

end Runner

end ClaimQueue
