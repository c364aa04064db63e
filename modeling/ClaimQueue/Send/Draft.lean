/-
  ClaimQueue.Send.Draft — which drafts can be sent.

  A draft needs a type, may ask only for what the backend offers, and must leave an
  instant at which its message can be claimed. The first rule that a draft breaks is
  reported.
-/

import ClaimQueue.Store.Backend
import ClaimQueue.Text.Blank

namespace ClaimQueue

inductive DraftFault where
  | blankType
  | noDelays
  | noExpiration
  | zeroExpiration
  | neverVisible
  | noPriority
  | noRoutes
  | blankRoute
  deriving DecidableEq, Repr

namespace DraftFault

def message : DraftFault → String
  | .blankType => "message type must not be empty"
  | .noDelays => "transport does not support delayed messages"
  | .noExpiration => "transport does not support expiration"
  | .zeroExpiration => "expiration must be positive"
  | .neverVisible => "message would expire before it becomes visible"
  | .noPriority => "transport does not support priority"
  | .noRoutes => "transport does not support routes"
  | .blankRoute => "route must not be empty"

def toError (f : DraftFault) : Error := .validation f.message

end DraftFault

namespace Draft

/-- Does the delay last until the expiration? -/
def outlasts (delay : Option Span) (expiration : Span) : Bool := delay.any (expiration ≤ ·)

def fault? (c : Capabilities) (d : Draft) : Option DraftFault :=
  if isBlankText d.type then some .blankType
  else if d.delay.isSome && !c.delayed then some .noDelays
  else if d.expiration.isSome && !c.expiration then some .noExpiration
  else if d.expiration.any Span.isZero then some .zeroExpiration
  else if d.expiration.any (outlasts d.delay) then some .neverVisible
  else if d.priority != 0 && !c.priority then some .noPriority
  else if d.route.isSome && !c.route then some .noRoutes
  else if d.route.any isBlankText then some .blankRoute
  else none

end Draft

end ClaimQueue
