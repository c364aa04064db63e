/-
  ClaimQueue.Log.Event — what is logged.

  An event is logged inside scopes: the processing of a message, and around a retry the
  retry. `Event.level`, `Event.text` and `Event.fields` say how an event is shown.
-/

import ClaimQueue.Policy.Retry
import ClaimQueue.Work.Handler

namespace ClaimQueue

inductive Level where
  | debug
  | info
  | warn
  | error
  deriving DecidableEq, Repr

namespace Level

def toText : Level → String
  | .debug => "DEBUG"
  | .info => "INFO"
  | .warn => "WARN"
  | .error => "ERROR"

end Level

inductive Field where
  | text (s : String)
  | nat (n : Nat)
  | flag (b : Bool)
  deriving DecidableEq, Repr

abbrev Fields := List (String × Field)

/-! ## Scopes -/

/-- What an event happens inside of. -/
inductive Scope where
  /-- A worker at work on a message that is in `status`. -/
  | message (queue : String) (id : MessageId) (worker : WorkerId) (attempt : UInt32) (status : Status)
  | retry (note : RetryNote)
  deriving DecidableEq, Repr

namespace Scope

def name : Scope → String
  | .message .. => "message.process"
  | .retry _ => "transport.retry"

def fields : Scope → Fields
  | .message queue id worker attempt status =>
    [("queue", .text queue), ("message.id", .text id.toText), ("worker.id", .text worker.text),
      ("message.attempt", .nat attempt.toNat), ("message.status", .text status.toText)]
  | .retry note =>
    [("policy", .text note.policy), ("retry.attempt", .nat note.attempt.toNat),
      ("retry.wait_ms", .nat note.wait.millis.toNat)]

end Scope

/-! ## Events -/

inductive Event where
  | queueCreated (queue : String)
  | queueRemoved (queue : String)
  | retrying (note : RetryNote)
  -- Sending
  | rejected (queue : String) (error : Error)
  /-- Sent, with the status it was stored in where that is told. -/
  | sent (queue : String) (id : MessageId) (status : Option Status)
  | sendFailed (queue : String) (error : Error)
  -- Consumers
  | consumerStarted (queue : String) (workers : Nat)
  | consumerStopping (queue : String)
  | workersAbandoned (queue : String) (count : Nat)
  | workersDetached (queue : String)
  | consumerStopped (queue : String)
  -- Workers
  | workerStarted (queue : String) (worker : WorkerId)
  | workerStopped (queue : String) (worker : WorkerId)
  | parked (worker : WorkerId)
  | claimRaceLost (worker : WorkerId) (error : Error)
  | claimFailed (queue : String) (worker : WorkerId) (error : Error) (wait : Span)
  | transition (src dst : Status)
  | rollingBack (id : MessageId)
  | claimLeft (id : MessageId)
  | handlerFailed (id : MessageId) (attempt : UInt32) (fault : HandlerFault) (requeue : Bool)
  | purgeFailed (id : MessageId) (error : Error)
  | outcomeLate (id : MessageId) (error : Error)
  | outcomeFailed (id : MessageId) (error : Error)
  -- Monitors
  | monitorStarted (monitor : String) (period : Span)
  | monitorPassed (monitor : String) (count : Nat)
  | monitorFailed (monitor : String) (error : Error)
  | monitorStopped (monitor : String)
  | expired (queue : String) (count : Nat)
  | expiredPurgeFailed (queue : String) (id : MessageId) (error : Error)
  | promoted (queue : String) (count : Nat)
  | claimLost (queue : String) (id : MessageId) (worker : WorkerId)
  | refreshFailed (queue : String) (id : MessageId) (error : Error)
  | refreshed (queue : String) (count lost : Nat)
  | claimRevoked (queue : String) (id : MessageId)
  | reclaimed (queue : String) (count : Nat)
  deriving DecidableEq, Repr

namespace Event

def level : Event → Level
  | .sent .. | .parked _ | .claimRaceLost .. | .monitorPassed .. | .promoted .. | .refreshed .. => .debug
  | .queueCreated _ | .queueRemoved _ | .consumerStarted .. | .consumerStopping _ | .consumerStopped _
  | .workerStarted .. | .workerStopped .. | .transition .. | .rollingBack _ | .outcomeLate ..
  | .monitorStarted .. | .monitorStopped _ | .expired .. | .reclaimed .. => .info
  | .retrying _ | .rejected .. | .workersAbandoned .. | .workersDetached _ | .claimLeft _
  | .handlerFailed .. | .purgeFailed .. | .monitorFailed .. | .expiredPurgeFailed .. | .claimLost ..
  | .refreshFailed .. | .claimRevoked .. => .warn
  | .sendFailed .. | .claimFailed .. | .outcomeFailed .. => .error

def text : Event → String
  | .queueCreated _ => "queue created"
  | .queueRemoved _ => "queue removed"
  | .retrying _ => "transient transport fault, retrying"
  | .rejected .. => "rejected message"
  | .sent .. => "message sent"
  | .sendFailed .. => "failed to send message"
  | .consumerStarted .. => "consumer started"
  | .consumerStopping _ => "stopping consumer"
  | .workersAbandoned .. =>
    "abandoned workers after cancel timeout, heartbeat reclamation will recover their messages"
  | .workersDetached _ => "workers still running after stop timeout, detaching"
  | .consumerStopped _ => "consumer stopped"
  | .workerStarted .. => "worker started"
  | .workerStopped .. => "worker stopped"
  | .parked _ => "parked while queue is empty"
  | .claimRaceLost .. => "lost claim race"
  | .claimFailed .. => "claim failed, backing off"
  | .transition .. => "state_transition"
  | .rollingBack _ => "handler cancelled, rolling back claim"
  | .claimLeft _ => "handler cancelled without rollback support, leaving claim for reclamation"
  | .handlerFailed .. => "handler failed"
  | .purgeFailed .. => "failed to purge finished message"
  | .outcomeLate .. => "claim lost before outcome was recorded"
  | .outcomeFailed .. => "failed to record outcome"
  | .monitorStarted .. => "monitor started"
  | .monitorPassed .. => "monitor pass"
  | .monitorFailed .. => "monitor pass failed"
  | .monitorStopped _ => "monitor stopped"
  | .expired .. => "messages expired"
  | .expiredPurgeFailed .. => "failed to purge expired message"
  | .promoted .. => "delayed messages now visible"
  | .claimLost .. => "claim lost, cancelling handler"
  | .refreshFailed .. => "heartbeat refresh failed"
  | .refreshed .. => "heartbeats refreshed"
  | .claimRevoked .. => "local claim was reclaimed, cancelling handler"
  | .reclaimed .. => "reclaimed messages from silent workers"

def fields : Event → Fields
  | .queueCreated queue | .queueRemoved queue | .consumerStopping queue | .workersDetached queue
  | .consumerStopped queue => [("queue", .text queue)]
  | .retrying note =>
    [("policy", .text note.policy), ("attempt", .nat note.attempt.toNat),
      ("wait_ms", .nat note.wait.millis.toNat), ("error", .text note.error.message)]
  | .rejected queue error | .sendFailed queue error =>
    [("queue", .text queue), ("error", .text error.message)]
  | .sent queue id status =>
    [("queue", .text queue), ("id", .text id.toText)] ++
      (status.map fun s => ("status", Field.text s.toText)).toList
  | .consumerStarted queue workers => [("queue", .text queue), ("workers", .nat workers)]
  | .workersAbandoned queue count => [("queue", .text queue), ("abandoned", .nat count)]
  | .workerStarted queue worker | .workerStopped queue worker =>
    [("queue", .text queue), ("worker", .text worker.text)]
  | .parked worker => [("worker", .text worker.text)]
  | .claimRaceLost worker error => [("worker", .text worker.text), ("error", .text error.message)]
  | .claimFailed queue worker error wait =>
    [("queue", .text queue), ("worker", .text worker.text), ("error", .text error.message),
      ("wait_ms", .nat wait.millis.toNat)]
  | .transition src dst => [("from", .text src.toText), ("to", .text dst.toText)]
  | .rollingBack id | .claimLeft id => [("id", .text id.toText)]
  | .handlerFailed id attempt fault requeue =>
    [("id", .text id.toText), ("attempt", .nat attempt.toNat), ("kind", .text fault.kind),
      ("error", .text fault.toText), ("requeue", .flag requeue)]
  | .purgeFailed id error | .outcomeLate id error | .outcomeFailed id error =>
    [("id", .text id.toText), ("error", .text error.message)]
  | .monitorStarted monitor period =>
    [("monitor", .text monitor), ("period_ms", .nat period.millis.toNat)]
  | .monitorPassed monitor count => [("monitor", .text monitor), ("count", .nat count)]
  | .monitorFailed monitor error => [("monitor", .text monitor), ("error", .text error.message)]
  | .monitorStopped monitor => [("monitor", .text monitor)]
  | .expired queue count | .reclaimed queue count => [("queue", .text queue), ("count", .nat count)]
  | .expiredPurgeFailed queue id error | .refreshFailed queue id error =>
    [("queue", .text queue), ("id", .text id.toText), ("error", .text error.message)]
  | .promoted queue count => [("queue", .text queue), ("promoted", .nat count)]
  | .claimLost queue id worker =>
    [("queue", .text queue), ("id", .text id.toText), ("worker", .text worker.text)]
  | .refreshed queue count lost =>
    [("queue", .text queue), ("refreshed", .nat count), ("lost", .nat lost)]
  | .claimRevoked queue id => [("queue", .text queue), ("id", .text id.toText)]

end Event

/-- An event with the scopes it happened inside of, innermost first. -/
structure Logged where
  event : Event
  scopes : List Scope := []
  deriving DecidableEq, Repr

end ClaimQueue
