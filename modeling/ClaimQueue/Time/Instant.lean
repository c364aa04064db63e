/-
  ClaimQueue.Time.Instant — points in time.

  An instant counts nanoseconds from the start of 1970 (UTC) and lies between the first
  instant of the year -262143 and the last of the year 262142; the type holds nothing
  else. Adding a span that is too long to measure, or that leaves the range, gives none.

  A day has 86400 seconds. That is an idealization: the second that is now and then inserted
  after a minute counts as the first of the next one. A clock that keeps it apart puts it
  before that one, and measures from it in another way; here only its text (`leap`) tells the
  two apart, while order (`<`, `≤`), sums (`add?`, `sub?`) and differences (`since`) take them
  for one point in time. Instants that no text with second 60 gave are not concerned.
-/

import ClaimQueue.Time.Span

namespace ClaimQueue

/-- A point in time, in nanoseconds since the start of 1970 (UTC). -/
structure Instant where
  nanos : Int
  /-- Written as second 60 of the minute before. A mark of the text: it takes no part in order and arithmetic. -/
  leap : Bool := false
  lower : -8_334_601_228_800_000_000_000 ≤ nanos
  upper : nanos < 8_210_266_876_800_000_000_000
  deriving DecidableEq, Repr

namespace Instant

def epoch : Instant := ⟨0, false, by decide, by decide⟩

instance : Inhabited Instant := ⟨epoch⟩

def ofNanos? (n : Int) : Option Instant :=
  if h : -8_334_601_228_800_000_000_000 ≤ n ∧ n < 8_210_266_876_800_000_000_000 then some ⟨n, false, h.1, h.2⟩
  else none

def ofMillis? (ms : Int) : Option Instant := ofNanos? (ms * 1_000_000)

/-- The order of the counts; `leap` takes no part in it. -/
instance : LE Instant := ⟨fun a b => a.nanos ≤ b.nanos⟩

instance : LT Instant := ⟨fun a b => a.nanos < b.nanos⟩

instance (a b : Instant) : Decidable (a ≤ b) := inferInstanceAs (Decidable (a.nanos ≤ b.nanos))

instance (a b : Instant) : Decidable (a < b) := inferInstanceAs (Decidable (a.nanos < b.nanos))

/-- The instant `d` after `t`. -/
def add? (t : Instant) (d : Span) : Option Instant :=
  if d.measurable then ofNanos? (t.nanos + d.nanos) else none

/-- The instant `d` before `t`. -/
def sub? (t : Instant) (d : Span) : Option Instant :=
  if d.measurable then ofNanos? (t.nanos - d.nanos) else none

/-- Nanoseconds from `earlier` to `t`, inserted seconds not counted; negative if `t` comes first. -/
def since (t earlier : Instant) : Int := t.nanos - earlier.nanos

end Instant

end ClaimQueue
