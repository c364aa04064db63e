/-
  ClaimQueue.Message.Form — messages as JSON.

  A message is written with all its fields. Read from JSON text it may leave out the
  fields that can be empty and its failures; a name it does not know says nothing,
  whatever stands under it, and a field given twice spoils it. A message or its headers
  may also be a list of the fields in order.
-/

import ClaimQueue.Json.Tree
import ClaimQueue.Message.Basic
import ClaimQueue.Time.Stamp

namespace ClaimQueue

namespace Form

def instant (t : Instant) : Json := .text (Stamp.write t)

def body (bytes : List UInt8) : Json := .list (bytes.map fun b => .nat b.toNat)

def headers (h : Headers) : Json :=
  .object [("correlation_id", .ofOption .text h.correlationId), ("custom", .ofTable h.custom)]

def message (m : Message) : Json :=
  .object [
    ("id", .text m.id.toText),
    ("message_type", .text m.type),
    ("body", body m.body),
    ("headers", headers m.headers),
    ("status", .text m.status.toText),
    ("queued_at", instant m.queuedAt),
    ("visible_at", .ofOption instant m.visibleAt),
    ("expires_at", .ofOption instant m.expiresAt),
    ("priority", .nat m.priority.toNat),
    ("route", .ofOption .text m.route),
    ("lock_owner", .ofOption (fun w => .text w.text) m.owner),
    ("lock_heartbeat_at", .ofOption instant m.heartbeatAt),
    ("attempt_count", .nat m.attempts.toNat),
    ("version", .nat m.version.toNat),
    ("last_error", .ofOption .text m.lastError),
    ("failures", .ofTable (m.failures.map fun n => .nat n.toNat)),
    ("updated_at", instant m.updatedAt)]

end Form

namespace Json.Tree

/-! ## Fields -/

def text? : Tree → Option String
  | .text raw => decodeText? raw
  | _ => none

def optional? {α : Type} (read : Tree → Option α) : Tree → Option (Option α)
  | .null => some none
  | t => (read t).map some

def natBelow? (limit : Nat) : Tree → Option Nat
  | .number n =>
    match n.value? with
    | some (.whole k) => if 0 ≤ k ∧ k < limit then some k.toNat else none
    | _ => none
  | _ => none

def instant? (t : Tree) : Option Instant := t.text?.bind Stamp.read?

def id? (t : Tree) : Option MessageId := t.text?.bind MessageId.ofText?

def bytes? : Tree → Option (List UInt8)
  | .list items => items.mapM fun t => (natBelow? UInt8.size t).map .ofNat
  | _ => none

/-- The word, or a table with the word as its one name and nothing under it. -/
def status? : Tree → Option Status
  | .text raw => (decodeText? raw).bind Status.ofText?
  | .members [(raw, .null)] => (decodeText? raw).bind Status.ofText?
  | _ => none

/-- A table whose values `read` reads; the last value of a name counts. -/
def table? {α : Type} (read : Tree → Option α) : Tree → Option (Table α)
  | .members entries =>
    (entries.mapM fun (e : List Char × Tree) => do
      let k ← decodeText? e.1
      let v ← read e.2
      some (k, v)).map Table.ofList
  | _ => none

/-- The fields `names` of a record: none of a list that is too long or of a record that
gives a field twice. -/
def fields? (names : List String) : Tree → Option (String → Option Tree)
  | .members entries => do
    let entries ← entries.mapM fun (e : List Char × Tree) => (decodeText? e.1).map (·, e.2)
    if names.all fun n => (entries.filter (·.1 == n)).length ≤ 1 then some fun n => entries.lookup n else none
  | .list items =>
    if items.length ≤ names.length then some fun n => (names.zip items).lookup n else none
  | _ => none

def isList : Tree → Bool
  | .list _ => true
  | _ => false

/-- A field that must be there. -/
def required? {α : Type} (get : String → Option Tree) (name : String) (read : Tree → Option α) : Option α :=
  (get name).bind read

/-- A field that may be missing. -/
def defaulted? {α : Type} (get : String → Option Tree) (name : String) (read : Tree → Option α) (default : α) :
    Option α :=
  match get name with
  | none => some default
  | some t => read t

/-- A field that may be empty, and missing where fields have names. -/
def emptyable? {α : Type} (listed : Bool) (get : String → Option Tree) (name : String) (read : Tree → Option α) :
    Option (Option α) :=
  match get name with
  | none => if listed then none else some none
  | some t => optional? read t

/-! ## Messages -/

/-- Headers stand inside a message: the values of custom headers may nest three levels
less deep. -/
def headers? (t : Tree) : Option Headers := do
  let get ← t.fields? ["correlation_id", "custom"]
  some {
    correlationId := ← emptyable? t.isList get "correlation_id" text?
    custom := ← defaulted? get "custom" (table? (Tree.value? (depthLimit - 3))) .empty }

def messageFields : List String :=
  ["id", "message_type", "body", "headers", "status", "queued_at", "visible_at", "expires_at", "priority",
    "route", "lock_owner", "lock_heartbeat_at", "attempt_count", "version", "last_error", "failures",
    "updated_at"]

def message? (t : Tree) : Option Message := do
  let get ← t.fields? messageFields
  let emptyable {α : Type} (name : String) (read : Tree → Option α) := emptyable? t.isList get name read
  some {
    id := ← required? get "id" id?
    type := ← required? get "message_type" text?
    body := ← required? get "body" bytes?
    headers := ← required? get "headers" headers?
    status := ← required? get "status" status?
    queuedAt := ← required? get "queued_at" instant?
    visibleAt := ← emptyable "visible_at" instant?
    expiresAt := ← emptyable "expires_at" instant?
    priority := ← required? get "priority" fun t => (natBelow? UInt16.size t).map .ofNat
    route := ← emptyable "route" text?
    owner := ← emptyable "lock_owner" fun t => t.text?.map WorkerId.mk
    heartbeatAt := ← emptyable "lock_heartbeat_at" instant?
    attempts := ← required? get "attempt_count" fun t => (natBelow? UInt32.size t).map .ofNat
    version := ← required? get "version" fun t => (natBelow? UInt64.size t).map .ofNat
    lastError := ← emptyable "last_error" text?
    failures := ← defaulted? get "failures" (table? fun t => (natBelow? UInt32.size t).map .ofNat) .empty
    updatedAt := ← required? get "updated_at" instant? }

end Json.Tree

namespace Message

/-- The message in JSON text. -/
def ofJson (text : String) : Except Error Message :=
  match (Json.Tree.read? text.toList).bind Json.Tree.message? with
  | some m => .ok m
  | none => .error (.serialization "")

/-- The body as JSON. -/
def json (m : Message) : Except Error Json :=
  match Json.ofBytes? m.body with
  | some j => .ok j
  | none => .error (.serialization "")

end Message

end ClaimQueue
