/-
  ClaimQueue.Work.ClaimBook — the claims that the workers of one consumer hold.

  The book has one entry per message: the worker and the token of its handler. Registering
  a message again replaces its entry.
-/

import ClaimQueue.Message.Id
import ClaimQueue.Work.Tokens

namespace ClaimQueue

/-- A claim held here. -/
structure Holding where
  worker : WorkerId
  /-- Cancels the handler at work on the claim. -/
  token : Token
  deriving DecidableEq, Repr, Inhabited

structure ClaimBook where
  entries : List (MessageId × Holding) := []
  deriving Repr, Inhabited

namespace ClaimBook

def get? (b : ClaimBook) (id : MessageId) : Option Holding := b.entries.lookup id

/-- The book without the entry of `id`. -/
def without (b : ClaimBook) (id : MessageId) : ClaimBook := ⟨b.entries.filter (·.1 != id)⟩

def register (b : ClaimBook) (id : MessageId) (h : Holding) : ClaimBook :=
  ⟨(b.without id).entries ++ [(id, h)]⟩

/-- Drop the claim if `worker` holds it. -/
def remove (b : ClaimBook) (id : MessageId) (worker : WorkerId) : Option Holding × ClaimBook :=
  match b.get? id with
  | some h => if h.worker = worker then (some h, b.without id) else (none, b)
  | none => (none, b)

/-- Drop the claim, whoever holds it. -/
def revoke (b : ClaimBook) (id : MessageId) : Option Holding × ClaimBook :=
  match b.get? id with
  | some h => (some h, b.without id)
  | none => (none, b)

def size (b : ClaimBook) : Nat := b.entries.length

end ClaimBook

end ClaimQueue
