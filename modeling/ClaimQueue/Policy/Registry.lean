/-
  ClaimQueue.Policy.Registry — policies by name.

  Requests that only look run under the query policy, all others under the command
  policy. A registry may lack either; then the requests fail before they are made.
-/

import ClaimQueue.Policy.Retry
import ClaimQueue.Store.Request
import ClaimQueue.Text.Table

namespace ClaimQueue

structure Policies where
  byName : Table Policy
  deriving Inhabited

namespace Policies

def command : String := "command-retry"

def query : String := "query-retry"

def empty : Policies := ⟨.empty⟩

def register (ps : Policies) (name : String) (p : Policy) : Policies := ⟨ps.byName.insert name p⟩

def get (ps : Policies) (name : String) : Except Error Policy :=
  match ps.byName.get? name with
  | some p => .ok p
  | none => .error (.config ("no policy registered for " ++ name))

def names (ps : Policies) : List String := ps.byName.toList.map (·.1)

/-- The policy that requests of an operation run under. -/
def nameFor (operation : Operation) : String := if operation.isQuery then query else command

end Policies

end ClaimQueue
