/-
  ClaimQueue.Text.Hex — hexadecimal digits: read in either case, written in lower case.
-/

namespace ClaimQueue.Hex

def digit? (c : Char) : Option Nat :=
  if '0' ≤ c ∧ c ≤ '9' then some (c.toNat - '0'.toNat)
  else if 'a' ≤ c ∧ c ≤ 'f' then some (c.toNat - 'a'.toNat + 10)
  else if 'A' ≤ c ∧ c ≤ 'F' then some (c.toNat - 'A'.toNat + 10)
  else none

/-- The number that the digits spell, most significant first. -/
def value? (s : List Char) : Option Nat :=
  s.foldlM (fun n c => (digit? c).map (n * 16 + ·)) 0

/-- The last `width` digits of `n`. -/
def digits (width n : Nat) : List Char :=
  ((Nat.toDigits 16 n).leftpad width '0').reverse.take width |>.reverse

end ClaimQueue.Hex
