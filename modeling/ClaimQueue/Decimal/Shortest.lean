/-
  ClaimQueue.Decimal.Shortest — the fewest decimal digits that read back as a double.

  A positive double is `mantissa * 2 ^ exponent`. The reals that round to it form an
  interval around it, with its ends if the mantissa is even. For each number of digits,
  from one up, the two decimals next to the value are tried; the first number of digits
  with a decimal inside the interval wins, and of two such decimals the nearer one (the
  even one if both are as near).
-/

namespace ClaimQueue.Decimal

/-- A positive double. -/
structure Binary where
  mantissa : Nat
  exponent : Int
  deriving DecidableEq, Repr

/-- The mantissas of doubles that are not too small go from here to twice as much. -/
def Binary.hidden : Nat := 4_503_599_627_370_496

def Binary.ofBits (bits : UInt64) : Binary :=
  let e : Nat := bits.toNat / hidden % 2048
  let f : Nat := bits.toNat % hidden
  if e = 0 then ⟨f, -1074⟩ else ⟨f + hidden, (e : Int) - 1075⟩

/-- The interval of a double: `low`, `value` and `high` are counts of `1 / scale`. -/
structure Rounding where
  low : Nat
  value : Nat
  high : Nat
  scale : Nat
  closed : Bool

def Binary.rounding (b : Binary) : Rounding :=
  let low := if b.mantissa = hidden ∧ b.exponent > -1074 then 4 * b.mantissa - 1 else 4 * b.mantissa - 2
  let up := Nat.pow 2 (b.exponent - 2).toNat
  { low := low * up
    value := 4 * b.mantissa * up
    high := (4 * b.mantissa + 2) * up
    scale := Nat.pow 2 (2 - b.exponent).toNat
    closed := b.mantissa % 2 == 0 }

/-- The decimal `digits * 10 ^ exponent`. -/
structure Scientific where
  digits : Nat
  exponent : Int
  deriving DecidableEq, Repr

/-- The exponent of the leading digit of `num / den`. -/
def leading (num den : Nat) : Int :=
  if den ≤ num then ((Nat.toDigits 10 (num / den)).length : Int) - 1
  else -((Nat.toDigits 10 ((den + num - 1) / num - 1)).length : Int)

/-- The multiple of `10 ^ k` with the nearest count inside the interval, if there is one. -/
def Rounding.candidate? (r : Rounding) (k : Int) : Option Nat :=
  -- all three ends and the grid over one denominator
  let unit := r.scale * Nat.pow 10 k.toNat
  let shift := Nat.pow 10 (-k).toNat
  let inside (d : Nat) : Bool :=
    let x := d * unit
    let low := r.low * shift
    let high := r.high * shift
    0 < d && if r.closed then low ≤ x && x ≤ high else low < x && x < high
  let d := r.value * shift / unit
  let below := r.value * shift - d * unit
  let above := (d + 1) * unit - r.value * shift
  match inside d, inside (d + 1) with
  | true, true =>
    if below < above then some d
    else if above < below then some (d + 1)
    else if d % 2 = 0 then some d else some (d + 1)
  | true, false => some d
  | false, true => some (d + 1)
  | false, false => none

/-- Without zeros at its end; at most `fuel` are dropped. -/
def Scientific.trim (fuel : Nat) (d : Scientific) : Scientific :=
  match fuel with
  | 0 => d
  | fuel + 1 => if d.digits % 10 = 0 ∧ d.digits ≠ 0 then trim fuel ⟨d.digits / 10, d.exponent + 1⟩ else d

def Rounding.search (r : Rounding) (lead : Int) (count fuel : Nat) : Scientific :=
  match fuel with
  | 0 => ⟨r.value, 0⟩
  | fuel + 1 =>
    let k := lead - count
    match r.candidate? k with
    | some d => (Scientific.mk d k).trim 18
    | none => r.search lead (count + 1) fuel

/-- The shortest decimal that reads back as `b`; seventeen digits always do. -/
def shortest (b : Binary) : Scientific :=
  if b.mantissa = 0 then ⟨0, 0⟩
  else
    let r := b.rounding
    r.search (leading r.value r.scale) 0 18

end ClaimQueue.Decimal
