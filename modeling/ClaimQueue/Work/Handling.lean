/-
  ClaimQueue.Work.Handling — a handler at work, step by step.

  A call of a handler takes the next plan of its script, waits as the plan says, and ends.
  The journal has its start and its end.
-/

import ClaimQueue.Work.Desk

namespace ClaimQueue

inductive Handling where
  | arriving
  /-- Until cancelled. -/
  | minding (plan : Plan)
  /-- At work until `wake`, or until cancelled if the plan is a race. -/
  | busy (plan : Plan) (wake : Nat)
  | ending (how : Ending)
  | done (outcome : Outcome)

namespace Handling

def isReady (time : Nat) (cancelled : Bool) : Handling → Bool
  | .minding _ => cancelled
  | .busy plan wake => wake ≤ time || (plan.race && cancelled)
  | _ => true

def alarm? : Handling → Option Nat
  | .busy _ wake => some wake
  | _ => none

/-- What comes after the wait to be cancelled. -/
def work (plan : Plan) (time : Nat) : Handling :=
  if plan.after.isZero then .ending plan.ending else .busy plan (time + plan.after.ticks)

/-- One step of the handler that `worker` runs for `m`. -/
def step (worker : WorkerId) (m : Message) (token : Token) (s : Scene) : Handling → Handling × Scene
  | .arriving =>
    let deed := Deed.handlerStarted worker m s.site.backend.capabilities.rollback (s.desk.tokens.isCancelled token)
    let (plan, site) := (s.site.enter deed).nextPlan m.type
    (if plan.waitCancel then .minding plan else work plan site.time, { s with site })
  | .minding plan => (if s.desk.tokens.isCancelled token then work plan s.time else .minding plan, s)
  | .busy plan wake =>
    if plan.race && s.desk.tokens.isCancelled token then (.ending .cancelled, s)
    else if wake ≤ s.time then (.ending plan.ending, s)
    else (.busy plan wake, s)
  | .ending how =>
    let deed := Deed.handlerEnded worker m.id how (s.desk.tokens.isCancelled token)
    (.done how.outcome, { s with site := s.site.enter deed })
  | .done outcome => (.done outcome, s)

end Handling

end ClaimQueue
