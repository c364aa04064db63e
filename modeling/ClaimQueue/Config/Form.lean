/-
  ClaimQueue.Config.Form — settings as a document.

  Sections and settings have names; spans are whole milliseconds (64 bits). Reading lays
  a document over the defaults: a missing name keeps its default, an unknown one says
  nothing, a value of the wrong kind spoils the document. A section may also be a list of
  its settings in order. Writing gives every setting.
-/

import ClaimQueue.Config.Queue
import ClaimQueue.Json.Value

namespace ClaimQueue.Form

/-! ## Values -/

def bool? : Json → Option Bool
  | .bool b => some b
  | _ => none

def natBelow? (limit : Nat) : Json → Option Nat
  | .whole n => if 0 ≤ n ∧ n < limit then some n.toNat else none
  | _ => none

def u32? (j : Json) : Option UInt32 := (natBelow? UInt32.size j).map .ofNat

def u64? (j : Json) : Option UInt64 := (natBelow? UInt64.size j).map .ofNat

/-- A whole number stands for a double too. -/
def real? : Json → Option Float
  | .real x => some x
  | .whole n => some (Float.ofInt n)
  | _ => none

def span? (j : Json) : Option Span := (u64? j).map Span.ofMillis

def optionalSpan? : Json → Option (Option Span)
  | .null => some none
  | j => (span? j).map some

def delays? : Json → Option Delays
  | .list items => (items.mapM span?).map Delays.mk
  | _ => none

def retryDelays? : Json → Option RetryDelays
  | .members entries =>
    (entries.mapM fun e => (delays? e.2).map (e.1, ·)).map fun es => ⟨Table.ofList es⟩
  | _ => none

/-- One of a set of words: the word, or a table with the word as its one name and nothing
under it. -/
def word? {α : Type} (words : List (String × α)) : Json → Option α
  | .text s => words.lookup s
  | .members [(s, .members [])] => words.lookup s
  | .members [(s, .list [])] => words.lookup s
  | _ => none

/-! ## Sections -/

/-- What a section says about each of its settings, by name. -/
abbrev Section := String → Option Json

def section? (names : List String) : Json → Option Section
  | .members entries => some fun name => Table.lookup name entries
  | .list items => some fun name => (names.zip items).lookup name
  | _ => none

/-- The setting `name`, or its default where the section is silent. -/
def setting {α : Type} (s : Section) (name : String) (read : Json → Option α) (default : α) : Option α :=
  match s name with
  | none => some default
  | some j => read j

def workerNames : List String :=
  ["worker_count", "single_worker_when_no_work_found", "abort_worker_threads_when_stopping",
    "time_to_wait_for_workers_to_stop_ms", "time_to_wait_for_workers_to_cancel_ms"]

def worker? (j : Json) : Option WorkerConfig := do
  let s ← section? workerNames j
  let d : WorkerConfig := {}
  some {
    count := ← setting s "worker_count" u64? d.count
    collapseWhenIdle := ← setting s "single_worker_when_no_work_found" bool? d.collapseWhenIdle
    abandonWhenStopping := ← setting s "abort_worker_threads_when_stopping" bool? d.abandonWhenStopping
    stopTime := ← setting s "time_to_wait_for_workers_to_stop_ms" span? d.stopTime
    cancelTime := ← setting s "time_to_wait_for_workers_to_cancel_ms" span? d.cancelTime }

def workerForm (c : WorkerConfig) : Json :=
  .object [
    ("worker_count", .nat c.count.toNat),
    ("single_worker_when_no_work_found", .bool c.collapseWhenIdle),
    ("abort_worker_threads_when_stopping", .bool c.abandonWhenStopping),
    ("time_to_wait_for_workers_to_stop_ms", .nat c.stopTime.millis.toNat),
    ("time_to_wait_for_workers_to_cancel_ms", .nat c.cancelTime.millis.toNat)]

def pool? (j : Json) : Option PoolConfig := do
  let s ← section? ["threads_min", "threads_max", "thread_idle_timeout_ms"] j
  let d : PoolConfig := {}
  some {
    least := ← setting s "threads_min" u64? d.least
    most := ← setting s "threads_max" u64? d.most
    idleTimeout := ← setting s "thread_idle_timeout_ms" span? d.idleTimeout }

def poolForm (c : PoolConfig) : Json :=
  .object [
    ("threads_min", .nat c.least.toNat),
    ("threads_max", .nat c.most.toNat),
    ("thread_idle_timeout_ms", .nat c.idleTimeout.millis.toNat)]

def heartbeat? (j : Json) : Option HeartbeatConfig := do
  let s ← section? ["enabled", "interval", "time_ms", "monitor_time_ms", "thread_pool"] j
  let d : HeartbeatConfig := {}
  some {
    enabled := ← setting s "enabled" bool? d.enabled
    interval := ← setting s "interval" u32? d.interval
    time := ← setting s "time_ms" span? d.time
    lookback := ← setting s "monitor_time_ms" optionalSpan? d.lookback
    pool := ← setting s "thread_pool" pool? d.pool }

def heartbeatForm (c : HeartbeatConfig) : Json :=
  .object [
    ("enabled", .bool c.enabled),
    ("interval", .nat c.interval.toNat),
    ("time_ms", .nat c.time.millis.toNat),
    ("monitor_time_ms", .ofOption (fun d => .nat d.millis.toNat) c.lookback),
    ("thread_pool", poolForm c.pool)]

def expiration? (j : Json) : Option ExpirationConfig := do
  let s ← section? ["enabled", "monitor_time_ms"] j
  let d : ExpirationConfig := {}
  some {
    enabled := ← setting s "enabled" bool? d.enabled
    period := ← setting s "monitor_time_ms" span? d.period }

def expirationForm (c : ExpirationConfig) : Json :=
  .object [("enabled", .bool c.enabled), ("monitor_time_ms", .nat c.period.millis.toNat)]

def delayed? (j : Json) : Option DelayedConfig := do
  let s ← section? ["enabled", "monitor_time_ms"] j
  let d : DelayedConfig := {}
  some {
    enabled := ← setting s "enabled" bool? d.enabled
    period := ← setting s "monitor_time_ms" span? d.period }

def delayedForm (c : DelayedConfig) : Json :=
  .object [("enabled", .bool c.enabled), ("monitor_time_ms", .nat c.period.millis.toNat)]

def policy? (j : Json) : Option PolicyConfig := do
  let s ← section? ["retry_count", "min_wait_ms", "max_wait_ms", "enable_chaos", "chaos_injection_rate"] j
  let d : PolicyConfig := {}
  some {
    retryCount := ← setting s "retry_count" u32? d.retryCount
    minWait := ← setting s "min_wait_ms" span? d.minWait
    maxWait := ← setting s "max_wait_ms" span? d.maxWait
    chaos := ← setting s "enable_chaos" bool? d.chaos
    chaosRate := ← setting s "chaos_injection_rate" real? d.chaosRate }

def policyForm (c : PolicyConfig) : Json :=
  .object [
    ("retry_count", .nat c.retryCount.toNat),
    ("min_wait_ms", .nat c.minWait.millis.toNat),
    ("max_wait_ms", .nat c.maxWait.millis.toNat),
    ("enable_chaos", .bool c.chaos),
    ("chaos_injection_rate", .real c.chaosRate)]

def delaysForm (d : Delays) : Json := .list (d.steps.map fun s => .nat s.millis.toNat)

def retryDelaysForm (r : RetryDelays) : Json := .ofTable (r.byKind.map delaysForm)

def errorPolicies : List (String × ErrorPolicy) := [("requeue", .requeue), ("terminal", .terminal)]

def retentions : List (String × Retention) := [("purge", .purge), ("archive", .archive)]

def priorityOrders : List (String × PriorityOrder) :=
  [("lowest_first", .lowestFirst), ("highest_first", .highestFirst)]

def errorPolicyText : ErrorPolicy → String
  | .requeue => "requeue"
  | .terminal => "terminal"

def retentionText : Retention → String
  | .purge => "purge"
  | .archive => "archive"

/-! ## The document -/

def queueNames : List String :=
  ["worker", "heartbeat", "message_expiration", "delayed_processing", "queue_delay_behavior",
    "fatal_exception_delay_behavior", "retry_delay_behavior", "error_policy", "retention",
    "priority_order", "policies"]

/-- The configuration that a document lays over the defaults. -/
def queue? (j : Json) : Option QueueConfig := do
  let s ← section? queueNames j
  let d : QueueConfig := {}
  some {
    worker := ← setting s "worker" worker? d.worker
    heartbeat := ← setting s "heartbeat" heartbeat? d.heartbeat
    expiration := ← setting s "message_expiration" expiration? d.expiration
    delayed := ← setting s "delayed_processing" delayed? d.delayed
    emptyDelays := ← setting s "queue_delay_behavior" delays? d.emptyDelays
    fatalDelays := ← setting s "fatal_exception_delay_behavior" delays? d.fatalDelays
    retryDelays := ← setting s "retry_delay_behavior" retryDelays? d.retryDelays
    errorPolicy := ← setting s "error_policy" (word? errorPolicies) d.errorPolicy
    retention := ← setting s "retention" (word? retentions) d.retention
    priorityOrder := ← setting s "priority_order" (word? priorityOrders) d.priorityOrder
    policies := ← setting s "policies" policy? d.policies }

def queueForm (c : QueueConfig) : Json :=
  .object [
    ("worker", workerForm c.worker),
    ("heartbeat", heartbeatForm c.heartbeat),
    ("message_expiration", expirationForm c.expiration),
    ("delayed_processing", delayedForm c.delayed),
    ("queue_delay_behavior", delaysForm c.emptyDelays),
    ("fatal_exception_delay_behavior", delaysForm c.fatalDelays),
    ("retry_delay_behavior", retryDelaysForm c.retryDelays),
    ("error_policy", .text (errorPolicyText c.errorPolicy)),
    ("retention", .text (retentionText c.retention)),
    ("priority_order", .text c.priorityOrder.toText),
    ("policies", policyForm c.policies)]

end ClaimQueue.Form
