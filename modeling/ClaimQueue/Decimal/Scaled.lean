/-
  ClaimQueue.Decimal.Scaled — decimals read as doubles.

  `exact` is the nearest double. `scaled` is the reading of JSON numbers here: the digits
  as a double, then one multiplication or division by a power of ten (first by 10^308 as
  often as needed), each rounded, so its last bit can differ from the nearest double.
-/

namespace ClaimQueue.Decimal

def powerOfTen (n : Nat) : Float := Float.ofScientific 1 false n

/-- The double nearest to `digits * 10 ^ exponent`. -/
def exact (digits : Nat) (exponent : Int) : Float :=
  let size : Int := (Nat.toDigits 10 digits).length
  if digits = 0 ∨ size + exponent < -400 then 0.0
  else if size + exponent > 400 then 1.0 / 0.0
  else if 0 ≤ exponent then Float.ofScientific digits false exponent.toNat
  else Float.ofScientific digits true (-exponent).toNat

/-- `x * 10 ^ exponent`, scaled in steps; none if it is too large. -/
def scale? (fuel : Nat) (x : Float) (exponent : Int) : Option Float :=
  if exponent.natAbs ≤ 308 then
    if 0 ≤ exponent then
      let y := x * powerOfTen exponent.toNat
      if y.isInf then none else some y
    else some (x / powerOfTen (-exponent).toNat)
  else if x == 0.0 then some x
  else if 0 ≤ exponent then none
  else match fuel with
    | 0 => some 0.0
    | fuel + 1 => scale? fuel (x / powerOfTen 308) (exponent + 308)

def scaled? (significand : UInt64) (exponent : Int) : Option Float :=
  scale? 4 significand.toFloat exponent

end ClaimQueue.Decimal
