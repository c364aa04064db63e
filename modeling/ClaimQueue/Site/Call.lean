/-
  ClaimQueue.Site.Call — a request under way under its policy.

  Between two attempts a call waits, and others move on. `Call.step` makes one step: an
  attempt with what the policy makes of its result, or the end of a wait. Cancelling a
  call ends a wait, never an attempt; the error of the last attempt is then the result.
  `Site.ask` makes the same attempts at once, asleep in the waits.
-/

import ClaimQueue.Site.Basic

namespace ClaimQueue

inductive Call (α : Type) where
  /-- Attempt `n`, counted from 0, is next. -/
  | attempting (n : UInt32)
  /-- After `error`, attempt `n` follows at `wake`. -/
  | waiting (n : UInt32) (error : Error) (wake : Nat)
  | done (result : Except Error α)

namespace Call

variable {α : Type}

def start : Call α := .attempting 0

def isReady (cancelled : Bool) (time : Nat) : Call α → Bool
  | .waiting _ _ wake => cancelled || wake ≤ time
  | _ => true

def alarm? : Call α → Option Nat
  | .waiting _ _ wake => some wake
  | _ => none

def result? : Call α → Option (Except Error α)
  | .done result => some result
  | _ => none

/-- One step; the log shows retries inside `scopes`. -/
def step (r : Request) (cancelled : Bool) (scopes : List Scope) (s : Site) :
    Call r.Reply → Call r.Reply × Site
  | .attempting n =>
    match s.policies.get (Policies.nameFor r.operation) with
    | .error e => (.done (.error e), s)
    | .ok p =>
      let (result, s) := s.attempt p n s.now r
      match p.judge n result with
      | .done result => (.done result, s)
      | .again error next =>
        let (throw, s) := s.throw
        let note : RetryNote := ⟨p.name, next, p.retry.wait throw, error⟩
        (.waiting next error (s.time + note.wait.ticks), s.note (.retrying note) (.retry note :: scopes))
  | .waiting n error wake =>
    if cancelled then (.done (.error error), s)
    else if wake ≤ s.time then (.attempting n, s)
    else (.waiting n error wake, s)
  | .done result => (.done result, s)

end Call

namespace Site

def noteRetries (s : Site) (notes : List RetryNote) : Site :=
  notes.foldl (fun s note => s.note (.retrying note) [.retry note]) s

/-- Serve a request as of `now` under its policy, in one go: the caller sleeps in the waits. -/
def ask (s : Site) (now : Instant) (r : Request) : Except Error r.Reply × Site :=
  match s.policies.get (Policies.nameFor r.operation) with
  | .error e => (.error e, s)
  | .ok p =>
    let run := p.executeBlocking (fun s : Site => s.serveAt now r) s s.dice
    (run.result, { run.state with dice := run.dice }.noteRetries run.notes)

end Site

end ClaimQueue
