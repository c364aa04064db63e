/-
  ClaimQueue.Config.Delays — sequences of waits.

  A loop that waits after each of several fruitless rounds takes the steps in order and
  stays at the last (`delayFor`). A message that failed takes the step of its failure
  count, and there is none once the steps are used up (`RetryDelays.delayFor?`).
-/

import ClaimQueue.Text.Table
import ClaimQueue.Time.Span

namespace ClaimQueue

structure Delays where
  steps : List Span
  deriving DecidableEq, Repr, Inhabited

namespace Delays

def ofMillis (ms : List UInt64) : Delays := ⟨ms.map Span.ofMillis⟩

def step? (d : Delays) (i : Nat) : Option Span := d.steps[i]?

/-- The wait of round `streak`, counted from 0; nothing if there are no steps. -/
def delayFor (d : Delays) (streak : Nat) : Span :=
  (d.step? streak).getD (d.steps.getLastD .zero)

def push (d : Delays) (step : Span) : Delays := ⟨d.steps ++ [step]⟩

def size (d : Delays) : Nat := d.steps.length

end Delays

/-- Redelivery delays by kind of failure. -/
structure RetryDelays where
  byKind : Table Delays
  deriving Inhabited

namespace RetryDelays

/-- The kind whose delays stand in for those of kinds without any. -/
def fallback : String := "default"

def none : RetryDelays := ⟨.empty⟩

def insert (r : RetryDelays) (kind : String) (d : Delays) : RetryDelays := ⟨r.byKind.insert kind d⟩

def delays? (r : RetryDelays) (kind : String) : Option Delays :=
  (r.byKind.get? kind).or (r.byKind.get? fallback)

/-- The delay before the next delivery after `failures` failures of `kind`. -/
def delayFor? (r : RetryDelays) (kind : String) (failures : UInt32) : Option Span :=
  if failures = 0 then Option.none else (r.delays? kind).bind (·.step? (failures.toNat - 1))

end RetryDelays

end ClaimQueue
