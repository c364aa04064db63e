/-
  ClaimQueue.Work.Handler — what handlers do with a message.

  A handler ends with success or a fault. The kind of a fault picks the delays before the
  next delivery; a cancelled handler gives its claim back and has not failed. Handlers are
  scripted: per type of message a list of plans, one per call.
-/

import ClaimQueue.Config.Delays
import ClaimQueue.Error

namespace ClaimQueue

structure HandlerFault where
  kind : String
  message : String
  cancelled : Bool := false
  deriving DecidableEq, Repr

namespace HandlerFault

/-- A fault of no particular kind. -/
def ofMessage (message : String) : HandlerFault := { kind := RetryDelays.fallback, message }

/-- The handler stopped because it was asked to. -/
def ofCancel : HandlerFault :=
  { kind := "cancelled", message := "handler observed cancellation", cancelled := true }

def ofPanic : HandlerFault := { kind := "panic", message := "handler panicked" }

def ofError (e : Error) : HandlerFault := ofMessage e.message

def toText (f : HandlerFault) : String := f.kind ++ ": " ++ f.message

def toError (f : HandlerFault) : Error := .handler f.toText

end HandlerFault

abbrev Outcome := Except HandlerFault Unit

/-! ## Scripts -/

/-- How a planned call ends. -/
inductive Ending where
  | ok
  | fault (f : HandlerFault)
  | panic
  | cancelled
  | error (e : Error)
  deriving DecidableEq, Repr

namespace Ending

def toText : Ending → String
  | .ok => "ok"
  | .fault _ => "error"
  | .panic => "panic"
  | .cancelled => "cancelled"
  | .error _ => "from_error"

def outcome : Ending → Outcome
  | .ok => .ok ()
  | .fault f => .error f
  | .panic => .error .ofPanic
  | .cancelled => .error .ofCancel
  | .error e => .error (.ofError e)

end Ending

/-- One call of a handler: wait to be cancelled, then take some time, then end. -/
structure Plan where
  waitCancel : Bool := false
  after : Span := .zero
  /-- Cut the time short when cancelled; the call then ends so. -/
  race : Bool := false
  ending : Ending := .ok
  deriving Inhabited

/-- The plans of the calls to come, by type of message. -/
abbrev Script := String → List Plan

namespace Script

/-- The plan of the next call for `type`; the last plan stays. -/
def next (s : Script) (type : String) : Plan × Script :=
  match s type with
  | [] => ({}, s)
  | [plan] => (plan, s)
  | plan :: rest => (plan, fun t => if t = type then rest else s t)

end Script

end ClaimQueue
