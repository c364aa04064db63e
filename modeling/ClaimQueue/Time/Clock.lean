/-
  ClaimQueue.Time.Clock — where "now" comes from.

  A manual clock stands still until it is moved; a ticking clock goes on with the
  milliseconds that passed since it was started.
-/

import ClaimQueue.Time.Instant

namespace ClaimQueue

inductive Clock where
  | manual (now : Instant)
  | ticking (start : Instant)
  deriving Inhabited

namespace Clock

/-- The reading after `time` milliseconds; past the last instant a clock stays at its start. -/
def read (c : Clock) (time : Nat) : Instant :=
  match c with
  | .manual now => now
  | .ticking start => (Instant.ofNanos? (start.nanos + time * 1_000_000)).getD start

/-- Move a manual clock; a move that leads past the last instant is none. -/
def advance (c : Clock) (span : Span) : Clock :=
  match c with
  | .manual now => .manual ((now.add? span).getD now)
  | .ticking start => .ticking start

def set (c : Clock) (target : Instant) : Clock :=
  match c with
  | .manual _ => .manual target
  | .ticking start => .ticking start

end Clock

end ClaimQueue
