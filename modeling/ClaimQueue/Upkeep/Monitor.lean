/-
  ClaimQueue.Upkeep.Monitor — monitors: passes over the queue at a steady rate.

  A monitor sleeps for its period, makes a pass, and starts over; a pass that failed is
  logged, and the next one comes in its turn. It stops when asked to, though never in a
  pass.
-/

import ClaimQueue.Upkeep.Expiry
import ClaimQueue.Upkeep.Heartbeat
import ClaimQueue.Upkeep.Promotion

namespace ClaimQueue

inductive Duty where
  | heartbeat
  | expiration
  | delayed
  deriving DecidableEq, Repr

namespace Duty

def all : List Duty := [.heartbeat, .expiration, .delayed]

def toText : Duty → String
  | .heartbeat => "heartbeat"
  | .expiration => "expiration"
  | .delayed => "delayed"

def ofText? (s : String) : Option Duty := all.find? fun d => d.toText == s

def period (c : QueueConfig) : Duty → Span
  | .heartbeat => c.heartbeat.refreshInterval
  | .expiration => c.expiration.period
  | .delayed => c.delayed.period

/-- Is there a monitor for the duty? -/
def isOn (c : QueueConfig) (capabilities : Capabilities) : Duty → Bool
  | .heartbeat => c.heartbeat.enabled && capabilities.heartbeat
  | .expiration => c.expiration.enabled && capabilities.expiration
  | .delayed => c.delayed.enabled && capabilities.delayed

end Duty

/-- One pass of a monitor. -/
inductive Round where
  | heartbeat (pass : Pass)
  | expiration (expiry : Expiry)
  | delayed (promotion : Promotion)

namespace Round

def start : Duty → Round
  | .heartbeat => .heartbeat .start
  | .expiration => .expiration .start
  | .delayed => .delayed .start

def isReady (p : Pool) (time : Nat) : Round → Bool
  | .heartbeat pass => pass.isReady p time
  | .expiration expiry => expiry.isReady time
  | .delayed promotion => promotion.isReady time

def alarm? : Round → Option Nat
  | .heartbeat pass => pass.alarm?
  | .expiration expiry => expiry.alarm?
  | .delayed promotion => promotion.alarm?

/-- How many messages the pass acted on. -/
def result? : Round → Option (Except Error Nat)
  | .heartbeat pass => pass.result?.map fun r => r.map fun p => p.refreshed + p.reclaimed.length
  | .expiration expiry => expiry.result?.map fun r => r.map (·.length)
  | .delayed promotion => promotion.result?

def step (s : Scene) : Round → Round × Scene
  | .heartbeat pass => let (pass, s) := pass.step s; (.heartbeat pass, s)
  | .expiration expiry => let (expiry, s) := expiry.step s; (.expiration expiry, s)
  | .delayed promotion => let (promotion, s) := promotion.step s; (.delayed promotion, s)

end Round

inductive MonitorStage where
  | starting
  | sleeping (wake : Nat)
  | passing (round : Round)
  | stopping
  | stopped

structure Monitor where
  duty : Duty
  stage : MonitorStage := .starting

namespace Monitor

def isStopped (m : Monitor) : Bool :=
  match m.stage with
  | .stopped => true
  | _ => false

def isReady (m : Monitor) (d : Desk) (time : Nat) : Bool :=
  match m.stage with
  | .sleeping wake => d.monitorsStop || wake ≤ time
  | .passing round => round.isReady d.pool time
  | .stopped => false
  | _ => true

def alarm? (m : Monitor) : Option Nat :=
  match m.stage with
  | .sleeping wake => some wake
  | .passing round => round.alarm?
  | _ => none

/-- Monitors do not pass more often than once a millisecond. -/
def period (m : Monitor) (c : QueueConfig) : Span :=
  if m.duty.period c < Span.ofMillis 1 then Span.ofMillis 1 else m.duty.period c

def goTo (m : Monitor) (stage : MonitorStage) : Monitor := { m with stage }

def sleep (m : Monitor) (s : Scene) : Monitor := m.goTo (.sleeping (s.time + (m.period s.desk.config).ticks))

/-- The heartbeat monitor owns the pool. -/
def leave (m : Monitor) (s : Scene) : Scene :=
  if m.duty = .heartbeat then s.setPool { s.desk.pool with closed := true } else s

def step (m : Monitor) (s : Scene) : Monitor × Scene :=
  match m.stage with
  | .starting => (m.sleep s, s.note (.monitorStarted m.duty.toText (m.period s.desk.config)))
  | .sleeping wake =>
    if s.desk.monitorsStop then (m.goTo .stopping, s)
    else if wake ≤ s.time then (m.goTo (.passing (.start m.duty)), s)
    else (m, s)
  | .passing round =>
    match round.result? with
    | some (.ok 0) => (m.sleep s, s)
    | some (.ok count) => (m.sleep s, s.note (.monitorPassed m.duty.toText count))
    | some (.error e) => (m.sleep s, s.note (.monitorFailed m.duty.toText e))
    | none =>
      let (round, s) := round.step s
      (m.goTo (.passing round), s)
  | .stopping => (m.goTo .stopped, m.leave (s.note (.monitorStopped m.duty.toText)))
  | .stopped => (m, s)

end Monitor

end ClaimQueue
