/-
  ClaimQueue.Json.Value — JSON values.

  A number is whole (from -2⁶³ to 2⁶⁴ - 1) or a double. The members of an object stand
  in the order of their names, each name once; `object` keeps that.
-/

import ClaimQueue.Text.Table

namespace ClaimQueue

inductive Json where
  | null
  | bool (b : Bool)
  | whole (n : Int)
  | real (x : Float)
  | text (s : String)
  | list (items : List Json)
  | members (entries : List (String × Json))
  deriving Repr, Inhabited

namespace Json

/-- The object with these members; the last of a name counts. -/
def object (entries : List (String × Json)) : Json :=
  .members (entries.foldl (fun es e => Table.put e.1 e.2 es) [])

def ofTable (t : Table Json) : Json := .members t.entries

def nat (n : Nat) : Json := .whole n

def ofOption {α : Type} (f : α → Json) : Option α → Json
  | none => .null
  | some a => f a

def member? (j : Json) (name : String) : Option Json :=
  match j with
  | .members entries => Table.lookup name entries
  | _ => none

end Json

end ClaimQueue
