/-
  ClaimQueue.Crew.Stop — stopping a crew.

  The workers are asked to stop, and their handlers to give up. Those that take longer than
  allowed are left to themselves or, if so set, get a second grace time and are abandoned
  after it; their messages come back when their claims are reclaimed. The monitors stop last.
-/

import ClaimQueue.Crew.Schedule

namespace ClaimQueue

inductive Stop where
  | starting
  | stopping (deadline : Nat)
  | cancelling (deadline : Nat)
  | closing
  | ending (deadline : Nat)
  | done

namespace Stop

def alarm? : Stop → Option Nat
  | .stopping deadline => some deadline
  | .cancelling deadline => some deadline
  | .ending deadline => some deadline
  | _ => none

def isReady (c : Crew) (time : Nat) : Stop → Bool
  | .stopping deadline => c.workersOver || deadline ≤ time
  | .cancelling deadline => c.workersOver || deadline ≤ time
  | .ending deadline => c.monitorsOver || deadline ≤ time
  | _ => true

def result? : Stop → Option Unit
  | .done => some ()
  | _ => none

def step (site : Site) (c : Crew) : Stop → Stop × Site × Crew
  | .starting =>
    (.stopping (site.time + c.desk.config.worker.stopTime.ticks), site.note (.consumerStopping site.queue),
      { c with desk := { c.desk with tokens := c.desk.tokens.shutDown } })
  | .stopping deadline =>
    if c.workersOver then (.closing, site, c)
    else if deadline ≤ site.time then
      if c.desk.config.worker.abandonWhenStopping then
        (.cancelling (site.time + c.desk.config.worker.cancelTime.ticks), site, c)
      else (.closing, site.note (.workersDetached site.queue), c)
    else (.stopping deadline, site, c)
  | .cancelling deadline =>
    if c.workersOver then (.closing, site, c)
    else if deadline ≤ site.time then
      let left := c.workers.countP fun w => !w.isStopped
      (.closing, site.note (.workersAbandoned site.queue left), c.abandon)
    else (.cancelling deadline, site, c)
  | .closing =>
    (.ending (site.time + c.desk.config.worker.cancelTime.ticks), site,
      { c with desk := { c.desk with monitorsStop := true } })
  | .ending deadline =>
    if c.monitorsOver || deadline ≤ site.time then (.done, site.note (.consumerStopped site.queue), c)
    else (.ending deadline, site, c)
  | .done => (.done, site, c)

def errand (crew : Nat) : Errand Stop Unit where
  step x e :=
    match e.crews[crew]? with
    | some c => let (x, site, c) := x.step e.site c; (x, { site, crews := e.crews.set crew c })
    | none => (.done, e)
  isReady x e := (e.crews[crew]?).all fun c => x.isReady c e.site.time
  alarm? := alarm?
  result? := result?

end Stop

end ClaimQueue
