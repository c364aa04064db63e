/-
  ClaimQueue.Site.Form — errors, log and journal as documents.

  An error is shown by its kind and its message, with the error it wraps after the last
  retry. A message that could not be read is shown by its kind alone.
-/

import ClaimQueue.Message.Form
import ClaimQueue.Site.Basic

namespace ClaimQueue

namespace Error

/-- The name of the cause. -/
def kind : Error → String
  | .notFound _ => "NotFound"
  | .invalidTransition .. => "InvalidTransition"
  | .staleState .. => "StaleState"
  | .lostClaim .. => "LostClaim"
  | .transient _ => "Transient"
  | .retriesExhausted .. => "RetriesExhausted"
  | .validation _ => "Validation"
  | .handler _ => "Handler"
  | .config _ => "Config"
  | .database _ => "Database"
  | .migration _ => "Migration"
  | .io _ => "Io"
  | .serialization _ => "Serialization"
  | .other _ => "Other"

end Error

namespace Form

def span (d : Span) : Json := .list [.nat d.secs, .nat d.subsec]

def text? (s : Option String) : Json := .ofOption .text s

def id (i : MessageId) : Json := .text i.toText

def worker (w : WorkerId) : Json := .text w.text

def status (s : Status) : Json := .text s.toText

def error : Error → Json
  | .serialization text => .object [("error", .text (Error.serialization text).kind)]
  | .retriesExhausted policy attempts source =>
    let e := Error.retriesExhausted policy attempts source
    .object [("error", .text e.kind), ("message", .text e.message), ("source", error source)]
  | e => .object [("error", .text e.kind), ("message", .text e.message)]

/-- A result, or the error. -/
def result {α : Type} (f : α → Json) : Except Error α → Json
  | .ok a => f a
  | .error e => error e

def capabilities (c : Capabilities) : Json :=
  .object [
    ("rollback", .bool c.rollback),
    ("heartbeat", .bool c.heartbeat),
    ("delayed", .bool c.delayed),
    ("expiration", .bool c.expiration),
    ("priority", .bool c.priority),
    ("route", .bool c.route),
    ("status", .bool c.status)]

/-! ## The log -/

def field : Field → Json
  | .text s => .text s
  | .nat n => .nat n
  | .flag b => .bool b

def fields (fs : Fields) : Json := .object (fs.map fun f => (f.1, field f.2))

def scope (s : Scope) : Json := .object [("name", .text s.name), ("fields", fields s.fields)]

def logged (l : Logged) : Json :=
  .object [
    ("level", .text l.event.level.toText),
    ("text", .text l.event.text),
    ("fields", fields l.event.fields),
    ("spans", .list (l.scopes.map scope))]

/-- A log whose latest entry comes first, in order of time. -/
def log (l : List Logged) : Json := .list (l.reverse.map logged)

/-! ## The journal -/

/-- What came of a request; `order` puts sets of messages in order. -/
def reply (order : List MessageId → List MessageId) : (r : Request) → r.Reply → Json
  | .tryClaim .., m => .ofOption (fun m : Message => id m.id) m
  | .delete _, found => .bool found
  | .get _, m => .bool (Option.isSome m)
  | .count _, n => .nat n
  | .promoteDelayed, n => .nat n
  | .reclaimDead .., ids => .list ((order ids).map id)
  | .expireDue, ids => .list ((order ids).map id)
  | .create, _ | .remove, _ | .enqueue _, _ | .updateStatus .., _ | .resetHeartbeat .., _ => .text "ok"

def arguments : Request → List (String × Json)
  | .tryClaim w _ => [("worker", worker w)]
  | .resetHeartbeat i w => [("id", id i), ("worker", worker w)]
  | .enqueue m => [("id", id m.id)]
  | .delete i => [("id", id i)]
  | .get i => [("id", id i)]
  | .updateStatus i c version =>
    [("id", id i), ("from", status c.src), ("to", status c.dst), ("visible_at", .ofOption instant c.visibleAt),
      ("error", text? c.error), ("failure", text? c.failure), ("version", .nat version.toNat)]
  | .reclaimDead dead lookback => [("dead", span dead), ("lookback", .ofOption span lookback)]
  | .create | .remove | .count _ | .expireDue | .promoteDelayed => []

def deed (order : List MessageId → List MessageId) : Deed → List (String × Json)
  | .served r result =>
    let came := match result with
      | .ok a => reply order r a
      | .error e => .object [("error", .text e.kind)]
    [("call", .text r.operation.toText), ("result", came)] ++ arguments r
  | .handlerStarted w m rollback cancelled =>
    [("call", .text "handler_start"), ("id", id m.id), ("worker", worker w), ("attempt", .nat m.attempts.toNat),
      ("from", status m.claimedFrom), ("status", status m.status), ("rollback_supported", .bool rollback),
      ("cancelled", .bool cancelled)]
  | .handlerEnded w i ending cancelled =>
    [("call", .text "handler_end"), ("id", id i), ("worker", worker w), ("result", .text ending.toText),
      ("cancelled", .bool cancelled)]

end Form

end ClaimQueue
