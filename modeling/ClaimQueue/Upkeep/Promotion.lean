/-
  ClaimQueue.Upkeep.Promotion — making delayed messages pending when their time has come.

  Claims take such messages in any case; the pass keeps the counts by status right.
-/

import ClaimQueue.Work.Desk

namespace ClaimQueue

inductive Promotion where
  | scanning (call : Call Nat)
  | done (result : Except Error Nat)

namespace Promotion

def start : Promotion := .scanning .start

def isReady (time : Nat) : Promotion → Bool
  | .scanning call => call.isReady false time
  | .done _ => true

def alarm? : Promotion → Option Nat
  | .scanning call => call.alarm?
  | .done _ => none

def result? : Promotion → Option (Except Error Nat)
  | .done result => some result
  | _ => none

def step (s : Scene) : Promotion → Promotion × Scene
  | .scanning (.done (.ok n)) => (.done (.ok n), if n = 0 then s else s.note (.promoted s.queue n))
  | .scanning (.done (.error e)) => (.done (.error e), s)
  | .scanning call =>
    let (call, s) := s.advance .promoteDelayed false [] call
    (.scanning call, s)
  | .done result => (.done result, s)

end Promotion

end ClaimQueue
