/-
  ClaimQueue.Message.Status — the life of a message.

  A message waits (`delayed`, `pending`), is worked on (`working`) and ends (`complete`,
  `error`, `expired`). A claim takes it from either waiting status; a claim ends in an
  outcome or gives the message back; a message that ended stays ended.
-/

namespace ClaimQueue

inductive Status where
  /-- Waits for its time. -/
  | delayed
  /-- Can be claimed. -/
  | pending
  /-- Claimed by a worker. -/
  | working
  /-- The handler succeeded. -/
  | complete
  /-- The handler failed and there is no further try. -/
  | error
  /-- Its time ran out before it was processed. -/
  | expired
  deriving DecidableEq, Repr, Inhabited

namespace Status

def all : List Status := [.delayed, .pending, .working, .complete, .error, .expired]

/-- The edges of the life of a message. -/
def canBecome : Status → Status → Bool
  | .delayed, .pending => true
  | .pending, .working => true
  | .delayed, .working => true
  | .working, .complete => true
  | .working, .error => true
  | .working, .pending => true
  | .delayed, .expired => true
  | .pending, .expired => true
  | .working, .expired => true
  | _, _ => false

def isTerminal : Status → Bool
  | .complete | .error | .expired => true
  | _ => false

def isWaiting : Status → Bool
  | .delayed | .pending => true
  | _ => false

def toText : Status → String
  | .delayed => "delayed"
  | .pending => "pending"
  | .working => "working"
  | .complete => "complete"
  | .error => "error"
  | .expired => "expired"

instance : ToString Status := ⟨toText⟩

def ofText? (s : String) : Option Status := all.find? fun x => x.toText == s

/-- No edge leaves a status that ended. -/
theorem isTerminal_iff (s : Status) : s.isTerminal = true ↔ ∀ t, s.canBecome t = false := by
  cases s
  · exact ⟨nofun, fun h => absurd (h .pending) (by decide)⟩
  · exact ⟨nofun, fun h => absurd (h .working) (by decide)⟩
  · exact ⟨nofun, fun h => absurd (h .complete) (by decide)⟩
  all_goals exact ⟨fun _ t => by cases t <;> rfl, fun _ => rfl⟩

theorem ofText?_toText (s : Status) : ofText? s.toText = some s := by cases s <;> decide

end Status

end ClaimQueue
