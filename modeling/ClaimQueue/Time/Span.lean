/-
  ClaimQueue.Time.Span — lengths of time.

  A span is a whole number of nanoseconds whose seconds fit in 64 bits. Settings give
  spans in milliseconds, so every 64-bit count of milliseconds is a span. Spans are
  measured against instants only up to `reach`; a longer one never elapses.
-/

namespace ClaimQueue

/-- A length of time in nanoseconds. -/
structure Span where
  nanos : Nat
  bound : nanos < 18_446_744_073_709_551_616_000_000_000
  deriving DecidableEq, Repr

namespace Span

def zero : Span := ⟨0, by decide⟩

instance : Inhabited Span := ⟨zero⟩

def ofNanos? (n : Nat) : Option Span :=
  if h : n < 18_446_744_073_709_551_616_000_000_000 then some ⟨n, h⟩ else none

def ofMillis (ms : UInt64) : Span :=
  ⟨ms.toNat * 1_000_000, by have := ms.toNat_lt; omega⟩

/-- Whole seconds and the nanoseconds past them. -/
def ofParts? (secs nanos : Nat) : Option Span :=
  if nanos < 1_000_000_000 then ofNanos? (secs * 1_000_000_000 + nanos) else none

def secs (d : Span) : Nat := d.nanos / 1_000_000_000

def subsec (d : Span) : Nat := d.nanos % 1_000_000_000

/-- Whole milliseconds, kept to 64 bits. -/
def millis (d : Span) : UInt64 := .ofNat (d.nanos / 1_000_000)

/-- Whole milliseconds that cover the span: timers tick in milliseconds. -/
def ticks (d : Span) : Nat := (d.nanos + 999_999) / 1_000_000

def isZero (d : Span) : Bool := d.nanos == 0

/-- The sum, unless it is too long for a span. -/
def add? (a b : Span) : Option Span := ofNanos? (a.nanos + b.nanos)

/-- The `n`-th part, rounded down; a divisor of 0 counts as 1. -/
def part (d : Span) (n : Nat) : Span :=
  ⟨d.nanos / max n 1, Nat.lt_of_le_of_lt (Nat.div_le_self _ _) d.bound⟩

instance : LE Span := ⟨fun a b => a.nanos ≤ b.nanos⟩

instance : LT Span := ⟨fun a b => a.nanos < b.nanos⟩

instance (a b : Span) : Decidable (a ≤ b) := inferInstanceAs (Decidable (a.nanos ≤ b.nanos))

instance (a b : Span) : Decidable (a < b) := inferInstanceAs (Decidable (a.nanos < b.nanos))

/-- The longest span that can be measured against an instant: 2⁶³ - 1 milliseconds. -/
def reach : Nat := 9_223_372_036_854_775_807_000_000

def measurable (d : Span) : Bool := d.nanos ≤ reach

/-! ## Text -/

/-- The unit a span is written in: the largest in which its whole part is not 0. -/
def unitOf (nanos : Nat) : Nat × String :=
  if nanos ≥ 1_000_000_000 then (9, "s")
  else if nanos ≥ 1_000_000 then (6, "ms")
  else if nanos ≥ 1_000 then (3, "µs")
  else (0, "ns")

/-- `places` digits of a fraction, without the zeros at its end. -/
def fractionDigits (n places : Nat) : List Char :=
  let digits := (Nat.toDigits 10 n).leftpad places '0'
  (digits.reverse.dropWhile (· == '0')).reverse

/-- Exact decimal text in one unit: `1.5s`, `20ms`, `0ns`. -/
def toText (d : Span) : String :=
  let (places, unit) := unitOf d.nanos
  let whole := toString (d.nanos / Nat.pow 10 places)
  match fractionDigits (d.nanos % Nat.pow 10 places) places with
  | [] => whole ++ unit
  | digits => whole ++ "." ++ String.ofList digits ++ unit

end Span

end ClaimQueue
