/-
  ClaimQueue.Proofs.Store.Held — who holds a claim, and which requests leave it alone.

  A worker holds a message that is at work and names it as its owner. Only a claim in its
  name makes it a holder (`held_serve`): all that others do can end a claim or refresh its
  heartbeat, and nothing else about the message changes while it is held.
-/

import ClaimQueue.Proofs.Store.History

namespace ClaimQueue

/-- A request, and the instant it carries. -/
abbrev Asked := Instant × Request

/-- Requests that neither hand out, refresh nor take back claims, and send nothing. -/
def Request.isPlain : Request → Bool
  | .enqueue _ | .tryClaim _ _ | .resetHeartbeat _ _ | .reclaimDead _ _ => false
  | _ => true

/-- Does the request record what became of a claim? -/
def Request.isOutcome : Request → Bool
  | .updateStatus _ _ _ => true
  | _ => false

/-- Does the request make no claim in the name of `worker`, and send nothing that was
worked on? -/
def Request.spares (worker : WorkerId) : Request → Bool
  | .tryClaim claimant _ => claimant != worker
  | .enqueue m => m.status.isWaiting
  | _ => true

theorem Request.spares_of_plain {r : Request} (plain : r.isPlain = true) (worker : WorkerId) :
    r.spares worker = true := by
  cases r with
  | enqueue | tryClaim => cases plain
  | _ => rfl

namespace Store

variable {s : Store} {asked : Option Asked} {now : Instant} {id : MessageId} {worker : WorkerId}

/-- The store after a request, if there was one. -/
def after (s : Store) : Option Asked → Store
  | some (now, r) => (s.serve now r).2
  | none => s

/-- The messages that a request takes back. -/
def takenBack (s : Store) : Option Asked → List MessageId
  | some (now, .reclaimDead dead lookback) => (s.reclaimDead now dead lookback).1
  | _ => []

/-- Does `worker` hold the message? -/
def held (s : Store) (id : MessageId) (worker : WorkerId) : Bool := (s.get? id).any (holds · worker)

theorem held_iff :
    s.held id worker = true ↔ ∃ m, s.get? id = some m ∧ m.status = .working ∧ m.owner = some worker := by
  simp [held, holds, Option.any_eq_true]

/-- Nobody else makes a claim of `worker`: what it holds after a request it held before, and
of the message only the heartbeat may have changed. -/
theorem held_serve {r : Request} {m' : Message} (distinct : s.Distinct) (spares : r.spares worker = true)
    (after : (s.serve now r).2.get? id = some m') (held : holds m' worker = true) :
    ∃ m, s.get? id = some m ∧ holds m worker = true ∧ (m' = m ∨ m' = { m with heartbeatAt := some now }) := by
  obtain ⟨working, owner⟩ := working_of_holds held
  let t : Served := ⟨now, r, s⟩
  cases before : s.get? id with
  | none =>
    have sent : r = .enqueue m' := Served.arrival (t := t) before after
    rw [sent] at spares
    have waiting : m'.status.isWaiting = true := spares
    rw [working] at waiting
    cases waiting
  | some m =>
    have fate : Served.Fate t m (some m') := after ▸ Served.fate (t := t) distinct before
    refine ⟨m, rfl, ?_⟩
    cases fate with
    | kept => exact ⟨held, Or.inl rfl⟩
    | refreshed claimant _ _ => exact ⟨held, Or.inr rfl⟩
    | claimed claimant filter asked _ _ =>
      have other : (claimant != worker) = true := by
        have : r = .tryClaim claimant filter := asked
        rw [this] at spares
        exact spares
      have same : some claimant = some worker := owner
      rw [Option.some.inj same] at other
      simp at other
    | changed change _ allowed _ => exact absurd working (change.isAllowed_iff.mp allowed).1
    | reclaimed | expired | promoted => cases working

theorem held_after (distinct : s.Distinct) (spares : asked.all (·.2.spares worker) = true)
    (held : (s.after asked).held id worker = true) : s.held id worker = true := by
  cases asked with
  | none => exact held
  | some a =>
    obtain ⟨m', after, working, owner⟩ := held_iff.mp held
    have held' : holds m' worker = true := by simp [holds, working, owner]
    obtain ⟨m, before, held, _⟩ := held_serve distinct spares after held'
    simp [Store.held, before, held]

/-- What `worker` holds of the message is the claim `m`, whose heartbeat may have moved. -/
def Owns (s : Store) (worker : WorkerId) (m : Message) : Prop :=
  ∀ m', s.get? m.id = some m' → holds m' worker = true → ∃ beat, m' = { m with heartbeatAt := beat }

theorem Owns.after {m : Message} (owns : s.Owns worker m) (distinct : s.Distinct)
    (spares : asked.all (·.2.spares worker) = true) : (s.after asked).Owns worker m := by
  cases asked with
  | none => exact owns
  | some a =>
    intro m' after held
    obtain ⟨m₀, before, held₀, same⟩ := held_serve distinct spares after held
    obtain ⟨beat, rfl⟩ := owns m₀ before held₀
    rcases same with rfl | rfl
    · exact ⟨beat, rfl⟩
    · exact ⟨_, rfl⟩

/-- If `worker` holds the message, its heartbeat was set at `since` or later. -/
def HeardSince (s : Store) (id : MessageId) (worker : WorkerId) (since : Instant) : Prop :=
  ∀ m, s.get? id = some m → holds m worker = true → ∃ beat, m.heartbeatAt = some beat ∧ since ≤ beat

theorem HeardSince.of_not_held {since : Instant} (free : s.held id worker = false) : s.HeardSince id worker since := by
  intro m stored held
  have : s.held id worker = true := by simp [Store.held, stored, held]
  rw [free] at this
  cases this

theorem HeardSince.mono {since earlier : Instant} (heard : s.HeardSince id worker since) (le : earlier ≤ since) :
    s.HeardSince id worker earlier := by
  intro m stored held
  obtain ⟨beat, at_, le'⟩ := heard m stored held
  exact ⟨beat, at_, Int.le_trans le le'⟩

/-- No request sets a heartbeat back. -/
theorem HeardSince.after {since : Instant} (heard : s.HeardSince id worker since) (distinct : s.Distinct)
    (spares : asked.all (·.2.spares worker) = true) (later : ∀ now r, asked = some (now, r) → since ≤ now) :
    (s.after asked).HeardSince id worker since := by
  cases asked with
  | none => exact heard
  | some a =>
    intro m' after held
    obtain ⟨m, before, held₀, same⟩ := held_serve distinct spares after held
    rcases same with rfl | rfl
    · exact heard _ before held₀
    · exact ⟨a.1, rfl, later a.1 a.2 rfl⟩

/-- Is the message at work still, in the version that was handed out? -/
def stands (s : Store) (m : Message) : Bool :=
  (s.get? m.id).any fun stored => stored.status == .working && stored.version == m.version

theorem Owns.stands {m : Message} (owns : s.Owns worker m) (held : s.held m.id worker = true) : s.stands m = true := by
  obtain ⟨m', stored, working, owner⟩ := held_iff.mp held
  obtain ⟨beat, rfl⟩ := owns m' stored (by simp [holds, working, owner])
  simpa [Store.stands, stored] using working

theorem distinct_after (distinct : s.Distinct) (asked : Option Asked) : (s.after asked).Distinct := by
  cases asked with
  | none => exact distinct
  | some a => exact distinct_serve distinct a.1 a.2

theorem mem_takenBack (distinct : s.Distinct) (taken : id ∈ s.takenBack asked) :
    ∃ now dead lookback m, asked = some (now, .reclaimDead dead lookback) ∧ s.get? id = some m ∧
      isReclaimable now dead lookback m = true := by
  unfold takenBack at taken
  split at taken
  · rename_i now dead lookback
    obtain ⟨m, stored, reclaimable⟩ := (mem_reclaimDead distinct).mp taken
    exact ⟨now, dead, lookback, m, rfl, stored, reclaimable⟩
  · cases taken

/-! ## Refreshing -/

theorem resetHeartbeat_reply (s : Store) (id : MessageId) (worker : WorkerId) (now : Instant) :
    (s.resetHeartbeat id worker now).1 =
      if s.held id worker then .ok () else .error (.lostClaim id worker.text) := by
  unfold resetHeartbeat held
  split
  · rfl
  · rfl

theorem heardSince_refreshed (s : Store) (id : MessageId) (worker : WorkerId) (now : Instant) :
    (s.resetHeartbeat id worker now).2.HeardSince id worker now := by
  intro m' after held
  rw [get?_resetHeartbeat] at after
  obtain ⟨m, stored, rfl⟩ := Option.map_eq_some_iff.mp after
  by_cases own : holds m worker = true
  · rw [if_pos ⟨get?_id stored, own⟩]
    exact ⟨now, rfl, Int.le_refl _⟩
  · rw [if_neg fun both => own both.2] at held
    exact absurd held own

/-- Refreshing says nothing about who holds what. -/
theorem held_resetHeartbeat (s : Store) (i : MessageId) (claimant : WorkerId) (now : Instant) (id : MessageId)
    (worker : WorkerId) : (s.resetHeartbeat i claimant now).2.held id worker = s.held id worker := by
  unfold held
  rw [get?_resetHeartbeat]
  cases s.get? id with
  | none => rfl
  | some m =>
    simp only [Option.map_some, Option.any_some]
    split
    · rfl
    · rfl

/-! ## Taking back -/

/-- A scan takes a claim back, or leaves it with its holder. -/
theorem held_reclaimDead (distinct : s.Distinct) (now : Instant) (dead : Span) (lookback : Option Span)
    (held : s.held id worker = true) :
    id ∈ (s.reclaimDead now dead lookback).1 ∨ (s.reclaimDead now dead lookback).2.held id worker = true := by
  obtain ⟨m, stored, working, owner⟩ := held_iff.mp held
  by_cases silent : isReclaimable now dead lookback m = true
  · exact Or.inl ((mem_reclaimDead distinct).mpr ⟨m, stored, silent⟩)
  · refine Or.inr (held_iff.mpr ⟨m, ?_, working, owner⟩)
    rw [get?_reclaimDead, stored, Option.map_some, if_neg silent]

/-! ## Claiming -/

/-- What a worker claimed it holds, as it was handed out. -/
theorem get?_claimed {filter : ClaimFilter} {m : Message} (distinct : s.Distinct)
    (claimed : (s.tryClaim worker filter now).1 = some m) :
    (s.tryClaim worker filter now).2.get? m.id = some m ∧ m.status = .working ∧ m.owner = some worker ∧
      m.heartbeatAt = some now := by
  obtain ⟨m₀, _, _, rfl, after⟩ := tryClaim_some distinct claimed
  exact ⟨(after _).trans (if_pos rfl), rfl, rfl, rfl⟩

end Store

end ClaimQueue
