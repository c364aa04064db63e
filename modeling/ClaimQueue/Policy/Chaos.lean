/-
  ClaimQueue.Policy.Chaos — made-up faults, to exercise retries.

  A fault is raised in front of an attempt that still has a retry left, so made-up faults
  alone never use up a policy.
-/

import ClaimQueue.Error
import ClaimQueue.Policy.Dice

namespace ClaimQueue

structure Chaos where
  enabled : Bool
  /-- How often, from 0 to 1. -/
  rate : Float

namespace Chaos

/-- A rate below 0 counts as 0, one above 1 as 1. -/
def clamp (rate : Float) : Float := if rate < 0.0 then 0.0 else if rate > 1.0 then 1.0 else rate

def ofRate (enabled : Bool) (rate : Float) : Chaos := ⟨enabled, clamp rate⟩

def hits (rate : Float) (throw : UInt64) : Bool :=
  if rate ≤ 0.0 then false else if rate ≥ 1.0 then true else Dice.fraction throw < rate

/-- Does the attempt (counted from 0) fail before it runs? -/
def strikes (c : Chaos) (attempt retryCount : UInt32) (throw : UInt64) : Bool :=
  c.enabled && attempt < retryCount && hits c.rate throw

def fault (policy : String) : Error := .transient ("chaos: injected fault in " ++ policy)

end Chaos

end ClaimQueue
