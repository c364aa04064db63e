/-
  ClaimQueue.Policy.Dice — a source of random bits: a counter, mixed.

  Equal seeds throw the same numbers. Everything that depends on chance takes a throw as
  an argument, so laws about it hold for every throw.
-/

namespace ClaimQueue

structure Dice where
  state : UInt64
  deriving DecidableEq, Repr, Inhabited

namespace Dice

def mix (z : UInt64) : UInt64 :=
  let z := (z ^^^ (z >>> 30)) * 0xbf58476d1ce4e5b9
  let z := (z ^^^ (z >>> 27)) * 0x94d049bb133111eb
  z ^^^ (z >>> 31)

def throw (d : Dice) : UInt64 × Dice :=
  let state := d.state + 0x9e3779b97f4a7c15
  (mix state, ⟨state⟩)

/-- A throw as a double from 0 up to 1. -/
def fraction (n : UInt64) : Float := (n >>> 11).toFloat / 9007199254740992.0

/-- 128 bits. -/
def wide (d : Dice) : Nat × Dice :=
  let (a, d) := d.throw
  let (b, d) := d.throw
  (a.toNat * UInt64.size + b.toNat, d)

end Dice

end ClaimQueue
