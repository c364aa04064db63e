/-
  ClaimQueue.Work.Bench — who is idle.

  Workers that find the queue empty mark themselves idle. Once all are idle, and if the
  bench collapses, every worker but the first waits for `wake`, which a worker calls when
  it found a message. A waiting worker notes the count of wakes before it looks around a
  last time; it is woken as soon as the count differs, so no wake in between is missed.
-/

namespace ClaimQueue

structure Bench where
  size : UInt64
  collapse : Bool
  idle : UInt64 := 0
  wakes : Nat := 0
  deriving DecidableEq, Repr, Inhabited

namespace Bench

def markIdle (b : Bench) : Bench := { b with idle := b.idle + 1 }

def markBusy (b : Bench) : Bench := { b with idle := b.idle - 1 }

def allIdle (b : Bench) : Bool := b.size ≤ b.idle

def wake (b : Bench) : Bench := { b with wakes := b.wakes + 1 }

/-- Was there a wake since the count stood at `ticket`? -/
def isWoken (b : Bench) (ticket : Nat) : Bool := b.wakes != ticket

end Bench

end ClaimQueue
