/-
  ClaimQueue.Policy.Retry — bounded retries with waits.

  A policy makes at most `count + 1` attempts and waits between two of them. An error that
  the policy does not take for transient ends the attempts at once, unchanged; one that is
  still there after the last attempt is wrapped (`Error.retriesExhausted`). `execute` and
  `executeBlocking` run an operation to its end: the first counts time and can be
  cancelled in a wait, the second sleeps.
-/

import ClaimQueue.Policy.Chaos
import ClaimQueue.Time.Span

namespace ClaimQueue

structure Retry where
  /-- Retries after the first attempt. -/
  count : UInt32
  minWait : Span
  maxWait : Span
  /-- Which errors are worth another attempt. -/
  worth : Error → Bool

namespace Retry

/-- A shortest wait above the longest counts as the longest. -/
def ofWaits (count : UInt32) (minWait maxWait : Span) (worth : Error → Bool := Error.isTransient) : Retry :=
  ⟨count, if minWait ≤ maxWait then minWait else maxWait, maxWait, worth⟩

/-- Attempts with the first. -/
def maxAttempts (r : Retry) : UInt32 := if r.count = 0xffffffff then r.count else r.count + 1

/-- The wait that a throw picks, from the shortest to the longest. -/
def wait (r : Retry) (throw : UInt64) : Span :=
  if h : r.maxWait.nanos ≤ r.minWait.nanos then r.maxWait
  else ⟨r.minWait.nanos + throw.toNat % (r.maxWait.nanos - r.minWait.nanos + 1), by
    have := Nat.mod_lt throw.toNat (show r.maxWait.nanos - r.minWait.nanos + 1 > 0 by omega)
    have := r.maxWait.bound
    omega⟩

/-- The settings as a line of text. -/
def toText (r : Retry) : String :=
  "RetryPolicy \x7b retry_count: " ++ toString r.count ++ ", min_wait: " ++ r.minWait.toText ++ ", max_wait: " ++
    r.maxWait.toText ++ ", .. \x7d"

end Retry

structure Policy where
  name : String
  retry : Retry
  chaos : Option Chaos := none

/-- What follows an attempt. -/
inductive Verdict (α : Type) where
  | done (result : Except Error α)
  /-- Wait, then make attempt `attempt`. -/
  | again (error : Error) (attempt : UInt32)

/-- A retry, as the policy announces it. -/
structure RetryNote where
  policy : String
  attempt : UInt32
  wait : Span
  error : Error
  deriving DecidableEq, Repr

namespace Policy

variable {σ α : Type}

/-- What the policy makes of the result of an attempt (counted from 0). -/
def judge (p : Policy) (attempt : UInt32) : Except Error α → Verdict α
  | .ok a => .done (.ok a)
  | .error e =>
    if !p.retry.worth e then .done (.error e)
    else if attempt < p.retry.count then .again e (attempt + 1)
    else .done (.error (.retriesExhausted p.name (attempt + 1) e))

/-- Another attempt is the next one, and only while retries are left. -/
theorem judge_again {p : Policy} {n next : UInt32} {result : Except Error α} {e : Error}
    (h : p.judge n result = .again e next) :
    n.toNat < p.retry.count.toNat ∧ next.toNat = n.toNat + 1 := by
  cases result with
  | ok a => simp [judge] at h
  | error e' =>
    simp only [judge] at h
    split at h
    · cases h
    · split at h
      · rename_i hlt
        cases h
        have hlt : n.toNat < p.retry.count.toNat := hlt
        have := p.retry.count.toNat_lt
        refine ⟨hlt, ?_⟩
        rw [UInt32.toNat_add, show (1 : UInt32).toNat = 1 from rfl]
        omega
      · cases h

def strikes (p : Policy) (attempt : UInt32) (throw : UInt64) : Bool :=
  p.chaos.any (·.strikes attempt p.retry.count throw)

/-- One attempt: a made-up fault, or the operation. -/
def attempt (p : Policy) (n : UInt32) (throw : UInt64) (op : σ → Except Error α × σ) (s : σ) :
    Except Error α × σ :=
  if p.strikes n throw then (.error (Chaos.fault p.name), s) else op s

/-- The end of an execution: its result, what the operation left, the dice, the time on
the clock and the retries on the way. -/
structure Execution (σ α : Type) where
  result : Except Error α
  state : σ
  dice : Dice
  time : Nat
  notes : List RetryNote

/-- Run `op` under the policy from attempt `n` on. A `cancelAt` that comes before the end
of a wait ends the execution there with the last error. -/
def executeFrom (p : Policy) (op : σ → Except Error α × σ) (cancelAt : Option Nat)
    (n : UInt32) (s : σ) (dice : Dice) (time : Nat) : Execution σ α :=
  let (throw, dice) := dice.throw
  let (result, s) := p.attempt n throw op s
  match _h : p.judge n result with
  | .done result => ⟨result, s, dice, time, []⟩
  | .again error next =>
    let (throw, dice) := dice.throw
    let wait := p.retry.wait throw
    let note : RetryNote := ⟨p.name, next, wait, error⟩
    if cancelAt.any (· < time + wait.ticks) then
      ⟨.error error, s, dice, max time (cancelAt.getD time), [note]⟩
    else
      let rest := executeFrom p op cancelAt next s dice (time + wait.ticks)
      { rest with notes := note :: rest.notes }
termination_by p.retry.count.toNat - n.toNat
decreasing_by
  have := judge_again ‹_›
  omega

def execute (p : Policy) (op : σ → Except Error α × σ) (cancelAt : Option Nat) (s : σ) (dice : Dice) :
    Execution σ α :=
  executeFrom p op cancelAt 0 s dice 0

/-- As `executeFrom`, asleep in the waits: no clock, no cancelling. -/
def executeBlockingFrom (p : Policy) (op : σ → Except Error α × σ) (n : UInt32) (s : σ) (dice : Dice) :
    Execution σ α :=
  let (throw, dice) := dice.throw
  let (result, s) := p.attempt n throw op s
  match _h : p.judge n result with
  | .done result => ⟨result, s, dice, 0, []⟩
  | .again error next =>
    let (throw, dice) := dice.throw
    let note : RetryNote := ⟨p.name, next, p.retry.wait throw, error⟩
    let rest := executeBlockingFrom p op next s dice
    { rest with notes := note :: rest.notes }
termination_by p.retry.count.toNat - n.toNat
decreasing_by
  have := judge_again ‹_›
  omega

def executeBlocking (p : Policy) (op : σ → Except Error α × σ) (s : σ) (dice : Dice) : Execution σ α :=
  executeBlockingFrom p op 0 s dice

end Policy

end ClaimQueue
