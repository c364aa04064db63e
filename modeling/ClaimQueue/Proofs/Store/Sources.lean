/-
  ClaimQueue.Proofs.Store.Sources — the status that a claimed message came from.

  A claim overwrites the status of the message it takes, and `Message.claimedFrom` tells it from
  what the claim leaves: a first claim of a message that became visible only after it was queued
  is of a delayed one. That is right because promotion erases the visibility, and a release,
  which may set any visibility, comes after a claim and so after the first one. `Sourced` is what
  is left of that in every waiting message; whatever becomes of a message keeps it, as long as
  changes are outcomes of work and the count of attempts does not start over (`Fate.sourced`).
-/

import ClaimQueue.Proofs.Store.Lifecycle
import ClaimQueue.Proofs.Work.Counters

namespace ClaimQueue

namespace Message

/-- Did the message become visible only after it was queued? -/
def isPutOff (m : Message) : Bool := m.visibleAt.any (m.queuedAt < ·)

/-- What the attempts and the visibility of a message say of its status. -/
structure Sourced (m : Message) : Prop where
  delayed : m.status = .delayed → m.attempts = 0 ∧ m.isPutOff = true
  pending : m.status = .pending → m.attempts = 0 → m.isPutOff = false
  working : m.status = .working → m.attempts ≠ 0

namespace Sourced

variable {m : Message}

theorem ofDraft (id : MessageId) (draft : Draft) (now : Instant) : (Message.ofDraft id draft now).Sourced := by
  have status : (Message.ofDraft id draft now).status =
      if (Message.ofDraft id draft now).isPutOff then .delayed else .pending := rfl
  cases later : (Message.ofDraft id draft now).isPutOff with
  | true =>
    rw [later, if_pos rfl] at status
    exact ⟨fun _ => ⟨rfl, later⟩, fun pending => (nomatch status.symm.trans pending),
      fun working => (nomatch status.symm.trans working)⟩
  | false =>
    rw [later, if_neg nofun] at status
    exact ⟨fun delayed => (nomatch status.symm.trans delayed), fun _ _ => later,
      fun working => (nomatch status.symm.trans working)⟩

theorem refresh (sourced : m.Sourced) (now : Instant) : ({ m with heartbeatAt := some now } : Message).Sourced :=
  ⟨sourced.delayed, sourced.pending, sourced.working⟩

theorem claim (few : m.attempts.toNat + 1 < 2 ^ 32) (worker : WorkerId) (now : Instant) :
    (m.claim worker now).Sourced := by
  refine ⟨nofun, nofun, fun _ zero => ?_⟩
  have next := toNat_succ few
  rw [show m.attempts + 1 = 0 from zero] at next
  cases next

/-- A change of a message that was worked on; it may make it visible whenever it likes. -/
theorem apply (sourced : m.Sourced) {change : Change} (allowed : change.isAllowed = true)
    (working : m.status = .working) (now : Instant) : (change.apply m now).Sourced := by
  obtain ⟨noClaim, edge⟩ := change.isAllowed_iff.mp allowed
  refine ⟨fun delayed => ?_, fun _ zero => absurd zero (sourced.working working), fun again => absurd again noClaim⟩
  rw [show change.dst = .delayed from delayed, Status.canBecome_delayed] at edge
  cases edge

theorem expire (m : Message) (now : Instant) :
    (({ src := m.status, dst := .expired } : Change).apply m now).Sourced := ⟨nofun, nofun, nofun⟩

theorem promote (m : Message) (now : Instant) : (m.promote now).Sourced := ⟨nofun, fun _ _ => rfl, nofun⟩

/-- What a claim leaves of a message tells the status it had. -/
theorem claimedFrom (sourced : m.Sourced) (waits : m.status.isWaiting = true) (few : m.attempts.toNat + 1 < 2 ^ 32)
    (worker : WorkerId) (now : Instant) : (m.claim worker now).claimedFrom = m.status := by
  have visible : (m.claim worker now).claimedFrom =
      if m.attempts + 1 == 1 && m.isPutOff then .delayed else .pending := rfl
  -- the first claim is the one that finds no attempts
  have first : (m.attempts + 1 == 1) = true ↔ m.attempts = 0 := by
    have next := toNat_succ few
    rw [beq_iff_eq, ← UInt32.toNat_inj, ← UInt32.toNat_inj, next]
    show m.attempts.toNat + 1 = 1 ↔ m.attempts.toNat = 0
    omega
  rw [visible]
  rcases (Status.isWaiting_iff _).mp waits with delayed | pending
  · obtain ⟨untried, later⟩ := sourced.delayed delayed
    rw [first.mpr untried, later, delayed]
    rfl
  · rw [pending]
    by_cases untried : m.attempts = 0
    · rw [sourced.pending pending untried, Bool.and_false]
      rfl
    · rw [Bool.eq_false_iff.mpr fun one => untried (first.mp one)]
      rfl

end Sourced

end Message

/-- Whatever becomes of a message, if changes are outcomes of work. -/
theorem Served.Fate.sourced {t : Served} {m m' : Message} (f : t.Fate m (some m')) (sourced : m.Sourced)
    (outcomes : ∀ id change version, t.request = .updateStatus id change version → change.src = .working)
    (few : t.claims m.id = true → m.attempts.toNat + 1 < 2 ^ 32) : m'.Sourced := by
  cases f with
  | kept => exact sourced
  | refreshed worker => exact sourced.refresh t.now
  | claimed worker filter _ _ claimed => exact .claim (few (claims_iff.mpr ⟨_, claimed, rfl⟩)) worker t.now
  | changed change asked allowed src =>
    have working := outcomes m.id change m.version asked
    exact sourced.apply allowed (src.symm.trans working) t.now
  | reclaimed dead lookback _ silent => exact sourced.apply rfl (Store.working_of_reclaimable silent) t.now
  | expired => exact .expire m t.now
  | promoted => exact .promote m t.now

end ClaimQueue
