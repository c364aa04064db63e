/-
  ClaimQueue.Work.Tokens — how handlers are asked to stop.

  Every call of a handler has a token of its own. A token is cancelled alone, or with all
  others when the workers shut down; a token issued after that starts out cancelled.
-/

namespace ClaimQueue

structure Token where
  number : Nat
  deriving DecidableEq, Repr, Inhabited

/-- The tokens of the workers of one consumer. -/
structure Tokens where
  next : Nat := 0
  /-- Cancelled one by one. -/
  cancelled : List Token := []
  /-- All are cancelled, those to come as well. -/
  shutdown : Bool := false
  deriving Repr, Inhabited

namespace Tokens

def issue (ts : Tokens) : Token × Tokens := (⟨ts.next⟩, { ts with next := ts.next + 1 })

def isCancelled (ts : Tokens) (t : Token) : Bool := ts.shutdown || ts.cancelled.contains t

def cancel (ts : Tokens) (t : Token) : Tokens := { ts with cancelled := t :: ts.cancelled }

def shutDown (ts : Tokens) : Tokens := { ts with shutdown := true }

theorem isCancelled_cancel (ts : Tokens) (t u : Token) :
    (ts.cancel t).isCancelled u = true ↔ u = t ∨ ts.isCancelled u = true := by
  simp [cancel, isCancelled, or_left_comm]

end Tokens

end ClaimQueue
