/-
  ClaimQueue.Proofs.Store.Overdue — which claims the reclaim scan takes back, by exact time.

  The scan compares bounded times: the sum of two spans, a span measured against instants
  and an instant before another can each be out of range, and each falls back to an answer
  of its own. No fallback is seen: a span too long to measure is longer than any two
  instants are apart, and a floor before the first instant is before every heartbeat
  (`reclaimFloor_le_iff`). So the scan takes the claims that are `Overdue`, which is said
  with whole numbers of nanoseconds, and changes nothing else (`reclaimDead_exact`).
-/

import ClaimQueue.Proofs.Store.Lookup

namespace ClaimQueue

/-- A claim without heartbeat, or one that has been silent for longer than `dead` and, under
a `lookback`, not for longer than both. -/
def Message.Overdue (m : Message) (now : Instant) (dead : Span) (lookback : Option Span) : Prop :=
  m.status = .working ∧ ∀ beat ∈ m.heartbeatAt, (dead.nanos : Int) < now.since beat ∧
    ∀ l ∈ lookback, now.since beat ≤ (dead.nanos : Int) + l.nanos

instance (m : Message) (now : Instant) (dead : Span) (lookback : Option Span) :
    Decidable (m.Overdue now dead lookback) := by
  unfold Message.Overdue
  infer_instance

namespace Store

/-! ## The window of the scan -/

/-- A floor that cannot be told, for the span is too long or leads before the first
instant, would lie before any heartbeat. -/
theorem reclaimFloor_le_iff (now beat : Instant) (dead l : Span) :
    (∀ floor, reclaimFloor now dead (some l) = some floor → floor ≤ beat) ↔
      now.nanos ≤ beat.nanos + dead.nanos + l.nanos := by
  have reach := now.since_lt_reach beat
  have := beat.lower
  have := now.upper
  unfold Instant.since Span.reach at reach
  have le_iff : ∀ floor : Instant, floor ≤ beat ↔ floor.nanos ≤ beat.nanos := fun _ => Iff.rfl
  simp only [reclaimFloor, Option.bind_some, Span.add?, Span.ofNanos?, le_iff]
  split
  · simp only [Option.bind_some, Instant.sub?, Instant.ofNanos?, Span.measurable, decide_eq_true_eq]
    split
    · split
      · simp
        omega
      · simp
        omega
    · rename_i far
      unfold Span.reach at far
      simp
      omega
  · simp
    omega

/-- The scan takes a claim that is dead, unless it died longer ago than the lookback. -/
theorem isReclaimable_iff {m : Message} {beat now : Instant} (working : m.status = .working)
    (heard : m.heartbeatAt = some beat) (dead : Span) (lookback : Option Span) :
    isReclaimable now dead lookback m = true ↔ beat.nanos + dead.nanos < now.nanos ∧
      ∀ l, lookback = some l → now.nanos ≤ beat.nanos + dead.nanos + l.nanos := by
  simp only [isReclaimable, Bool.and_eq_true, Message.isClaimDead_iff working heard, heard]
  refine and_congr_right fun _ => ?_
  cases lookback with
  | none => simp [reclaimFloor]
  | some l =>
    simp only [Option.some.injEq, forall_eq', ← reclaimFloor_le_iff]
    cases reclaimFloor now dead (some l) with
    | none => simp
    | some floor => simp

/-! ## The scan -/

theorem isReclaimable_eq (m : Message) (now : Instant) (dead : Span) (lookback : Option Span) :
    isReclaimable now dead lookback m = decide (m.Overdue now dead lookback) := by
  rw [Bool.eq_iff_iff, decide_eq_true_eq]
  by_cases working : m.status = .working
  · cases heard : m.heartbeatAt with
    | none => simp [isReclaimable, Message.isClaimDead, Message.Overdue, working, heard]
    | some beat =>
      simp only [isReclaimable_iff working heard, Message.Overdue, working, heard, Instant.since, Option.mem_def,
        Option.some.injEq, forall_eq', true_and]
      refine and_congr (by omega) (forall_congr' fun l => imp_congr_right fun _ => by omega)
  · exact iff_of_false (fun found => working (working_of_reclaimable found)) fun overdue => working overdue.1

/-- The scan answers with the ids of the overdue claims and gives them back: they wait to be
claimed at once, a version later, with their attempts, failures and last error as they were.
Every other message stays as it is, and all keep their places. -/
theorem reclaimDead_exact (s : Store) (now : Instant) (dead : Span) (lookback : Option Span) :
    s.reclaimDead now dead lookback =
      ((s.messages.filter fun m => m.Overdue now dead lookback).map (·.id),
        { s with entries := s.entries.map fun e =>
            if e.message.Overdue now dead lookback then
              { e with message := { e.message with
                  status := .pending
                  owner := none
                  heartbeatAt := none
                  visibleAt := none
                  version := e.message.version + 1
                  updatedAt := now } }
            else e }) := by
  have found : isReclaimable now dead lookback = fun m => decide (m.Overdue now dead lookback) :=
    funext fun m => isReclaimable_eq m now dead lookback
  simp only [reclaimDead, modify, found, decide_eq_true_eq]
  rfl

end Store

end ClaimQueue
