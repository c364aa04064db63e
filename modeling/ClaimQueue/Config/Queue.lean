/-
  ClaimQueue.Config.Queue — the settings of one queue.

  Every setting has a default, so no settings at all are a configuration. `check` refuses
  what no queue can run with; the first fault found is reported.
-/

import ClaimQueue.Config.Delays
import ClaimQueue.Message.Filter

namespace ClaimQueue

/-- What happens to a message whose handler failed. -/
inductive ErrorPolicy where
  /-- Back to pending while its delays have a step left. -/
  | requeue
  | terminal
  deriving DecidableEq, Repr, Inhabited

/-- What happens to a message that ended. -/
inductive Retention where
  | purge
  | archive
  deriving DecidableEq, Repr, Inhabited

structure WorkerConfig where
  count : UInt64 := 1
  /-- Only the first worker keeps asking while all find the queue empty. -/
  collapseWhenIdle : Bool := true
  /-- Abandon handlers that outlive both grace times. -/
  abandonWhenStopping : Bool := false
  stopTime : Span := .ofMillis 10000
  cancelTime : Span := .ofMillis 5000
  deriving DecidableEq, Repr, Inhabited

/-- The runners that refresh heartbeats. -/
structure PoolConfig where
  least : UInt64 := 1
  most : UInt64 := 1
  idleTimeout : Span := .ofMillis 60000
  deriving DecidableEq, Repr, Inhabited

structure HeartbeatConfig where
  enabled : Bool := true
  /-- Refreshes per `time`. -/
  interval : UInt32 := 4
  /-- A claim silent for longer is dead. -/
  time : Span := .ofMillis 600000
  /-- How far past `time` the scan for dead claims looks; none for all the way. -/
  lookback : Option Span := none
  pool : PoolConfig := {}
  deriving DecidableEq, Repr, Inhabited

/-- The time between two refreshes. -/
def HeartbeatConfig.refreshInterval (c : HeartbeatConfig) : Span := c.time.part c.interval.toNat

structure ExpirationConfig where
  enabled : Bool := true
  period : Span := .ofMillis 60000
  deriving DecidableEq, Repr, Inhabited

structure DelayedConfig where
  enabled : Bool := true
  period : Span := .ofMillis 1000
  deriving DecidableEq, Repr, Inhabited

structure PolicyConfig where
  retryCount : UInt32 := 3
  minWait : Span := .ofMillis 5
  maxWait : Span := .ofMillis 50
  chaos : Bool := false
  chaosRate : Float := 0.0
  deriving Inhabited

structure QueueConfig where
  worker : WorkerConfig := {}
  heartbeat : HeartbeatConfig := {}
  expiration : ExpirationConfig := {}
  delayed : DelayedConfig := {}
  /-- Waits of a worker that found the queue empty. -/
  emptyDelays : Delays := .ofMillis [100, 250, 500, 1000, 2000]
  /-- Waits of a worker whose claim failed. -/
  fatalDelays : Delays := .ofMillis [100, 250, 500, 1000, 2000]
  /-- Waits of a message whose handler failed. -/
  retryDelays : RetryDelays := RetryDelays.none.insert RetryDelays.fallback (.ofMillis [1000, 2000, 3000])
  errorPolicy : ErrorPolicy := .requeue
  retention : Retention := .purge
  priorityOrder : PriorityOrder := .lowestFirst
  policies : PolicyConfig := {}
  deriving Inhabited

/-! ## Faults -/

inductive ConfigFault where
  | noWorkers
  | noInterval
  | noHeartbeatTime
  | pool (least most : UInt64)
  | waits
  | chaosRate
  deriving DecidableEq, Repr

def ConfigFault.message : ConfigFault → String
  | .noWorkers => "worker_count must be at least 1"
  | .noInterval => "heartbeat interval must be at least 1"
  | .noHeartbeatTime => "heartbeat time must be positive"
  | .pool least most =>
    "heartbeat thread pool needs 1 <= threads_max and threads_min <= threads_max (got " ++
      toString least ++ ".." ++ toString most ++ ")"
  | .waits => "policy min_wait exceeds max_wait"
  | .chaosRate => "chaos_injection_rate must be within 0.0..=1.0"

namespace QueueConfig

def fault? (c : QueueConfig) : Option ConfigFault :=
  if c.worker.count = 0 then some .noWorkers
  else if c.heartbeat.interval = 0 then some .noInterval
  else if c.heartbeat.time.isZero then some .noHeartbeatTime
  else if c.heartbeat.pool.most = 0 ∨ c.heartbeat.pool.most < c.heartbeat.pool.least then
    some (.pool c.heartbeat.pool.least c.heartbeat.pool.most)
  else if c.policies.maxWait < c.policies.minWait then some .waits
  else if !(0.0 ≤ c.policies.chaosRate && c.policies.chaosRate ≤ 1.0) then some .chaosRate
  else none

def check (c : QueueConfig) : Except Error Unit :=
  match c.fault? with
  | some f => .error (.config f.message)
  | none => .ok ()

end QueueConfig

end ClaimQueue
