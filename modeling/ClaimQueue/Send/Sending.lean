/-
  ClaimQueue.Send.Sending — sending drafts.

  Sending never raises: each draft gets the id of its message or an error. `Sending` and
  `Batch` send in steps that others may come between, `Site.send` and `Site.sendAll` in
  one go. A batch goes on after a failure.
-/

import ClaimQueue.Site.Call
import ClaimQueue.Send.Draft

namespace ClaimQueue

inductive Sending where
  | starting (draft : Draft)
  | storing (message : Message) (call : Call MessageId)
  | done (result : Except Error MessageId)

namespace Sending

def isReady (time : Nat) : Sending → Bool
  | .storing _ call => call.isReady false time
  | _ => true

def alarm? : Sending → Option Nat
  | .storing _ call => call.alarm?
  | _ => none

def result? : Sending → Option (Except Error MessageId)
  | .done result => some result
  | _ => none

def step (s : Site) : Sending → Sending × Site
  | .starting draft =>
    match draft.fault? s.backend.capabilities with
    | some fault => (.done (.error fault.toError), s.note (.rejected s.queue fault.toError))
    | none =>
      let (id, s) := s.freshId
      (.storing (.ofDraft id draft s.now) .start, s)
  | .storing m (.done (.ok id)) => (.done (.ok id), s.note (.sent s.queue id (some m.status)))
  | .storing _ (.done (.error e)) => (.done (.error e), s.note (.sendFailed s.queue e))
  | .storing m call =>
    let (call, s) := Call.step (.enqueue m) false [] s call
    (.storing m call, s)
  | .done result => (.done result, s)

end Sending

/-- Drafts sent one after the other. -/
structure Batch where
  current : Option Sending
  rest : List Draft
  /-- Results so far, latest first. -/
  results : List (Except Error MessageId) := []

namespace Batch

/-- The batch with its next draft under way. -/
def next (drafts : List Draft) (results : List (Except Error MessageId)) : Batch :=
  match drafts with
  | [] => ⟨none, [], results⟩
  | draft :: rest => ⟨some (.starting draft), rest, results⟩

def start (drafts : List Draft) : Batch := next drafts []

def isReady (time : Nat) (b : Batch) : Bool := b.current.all (·.isReady time)

def alarm? (b : Batch) : Option Nat := b.current.bind (·.alarm?)

def results? (b : Batch) : Option (List (Except Error MessageId)) :=
  if b.current.isNone then some b.results.reverse else none

def step (s : Site) (b : Batch) : Batch × Site :=
  match b.current with
  | none => (b, s)
  | some (.done result) => (next b.rest (result :: b.results), s)
  | some sending =>
    let (sending, s) := sending.step s
    ({ b with current := some sending }, s)

end Batch

namespace Site

def send (s : Site) (draft : Draft) : Except Error MessageId × Site :=
  match draft.fault? s.backend.capabilities with
  | some fault => (.error fault.toError, s.note (.rejected s.queue fault.toError))
  | none =>
    let (id, s) := s.freshId
    match s.ask s.now (.enqueue (.ofDraft id draft s.now)) with
    | (.ok id, s) => (.ok id, s.note (.sent s.queue id none))
    | (.error e, s) => (.error e, s.note (.sendFailed s.queue e))

def sendAll (s : Site) : List Draft → List (Except Error MessageId) × Site
  | [] => ([], s)
  | draft :: rest =>
    let (result, s) := s.send draft
    let (results, s) := s.sendAll rest
    (result :: results, s)

end Site

end ClaimQueue
