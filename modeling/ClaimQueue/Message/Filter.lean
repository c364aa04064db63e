/-
  ClaimQueue.Message.Filter — which messages a claim or a count looks at.

  A claim without routes takes only messages without a route, one with routes only
  messages on one of them; so routes divide the queue. Types only narrow.
-/

import ClaimQueue.Message.Basic

namespace ClaimQueue

/-- Which end of the priorities is claimed first. -/
inductive PriorityOrder where
  | lowestFirst
  | highestFirst
  deriving DecidableEq, Repr, Inhabited

namespace PriorityOrder

def toText : PriorityOrder → String
  | .lowestFirst => "lowest_first"
  | .highestFirst => "highest_first"

/-- Smaller comes first. -/
def rank (order : PriorityOrder) (priority : UInt16) : Int :=
  match order with
  | .lowestFirst => priority.toNat
  | .highestFirst => -priority.toNat

end PriorityOrder

structure ClaimFilter where
  routes : List String := []
  types : List String := []
  order : PriorityOrder := .lowestFirst
  deriving DecidableEq, Repr, Inhabited

def ClaimFilter.admits (f : ClaimFilter) (m : Message) : Bool :=
  (match m.route with
    | some route => f.routes.contains route
    | none => f.routes.isEmpty) &&
  (f.types.isEmpty || f.types.contains m.type)

structure CountFilter where
  statuses : List Status := []
  route : Option String := none
  type : Option String := none
  deriving DecidableEq, Repr, Inhabited

namespace CountFilter

def admits (f : CountFilter) (m : Message) : Bool :=
  (f.statuses.isEmpty || f.statuses.contains m.status) &&
  f.route.all (m.route == some ·) &&
  f.type.all (· == m.type)

/-- Messages not yet claimed. -/
def waiting : CountFilter := { statuses := [.pending, .delayed] }

end CountFilter

end ClaimQueue
