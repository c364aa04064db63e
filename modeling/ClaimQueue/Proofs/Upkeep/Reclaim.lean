/-
  ClaimQueue.Proofs.Upkeep.Reclaim — what the steps of a reclaim do to the store.

  On a calm site a request that is made reaches the store: connections are accepted and no
  fault is scripted. The policy may still make up faults in front of an attempt; the reclaim
  then waits and tries again, and only the attempt that gets through is its scan (`scan?`).
  All other steps leave the store alone (`step_calm`), and after the scan a reclaim ends
  with what the scan took back (`steps_scanned`).
-/

import ClaimQueue.Upkeep.Heartbeat

namespace ClaimQueue

structure Site.Calm (s : Site) : Prop where
  reached : s.backend.refusal = none
  faultless : ∀ operation, ∀ fault ∈ s.backend.faults operation, fault = none

/-! ## Requests -/

theorem Backend.serve_calm {b : Backend} (reached : b.refusal = none)
    (faultless : ∀ operation, ∀ fault ∈ b.faults operation, fault = none) (now : Instant) (r : Request) :
    b.serve now r = ((b.store.serve now r).1, { b.spend r.operation with store := (b.store.serve now r).2 }) := by
  have passes : (b.faults r.operation).head?.join = none := by
    cases hf : b.faults r.operation with
    | nil => rfl
    | cons fault _ => simp [faultless r.operation fault (hf ▸ List.mem_cons_self)]
  have reached' : (b.spend r.operation).refusal = none := reached
  unfold Backend.serve Backend.pass
  rw [passes]
  simp only [reached']
  rfl

/-- A throw of the dice changes nothing else. -/
theorem Site.throw_eq (s : Site) : ∃ n dice, s.throw = (n, { s with dice }) := by
  unfold Site.throw
  generalize s.dice.throw = thrown
  exact ⟨thrown.1, thrown.2, rfl⟩

namespace Site.Calm

variable {s : Site}

theorem serveAt (h : s.Calm) (now : Instant) (r : Request) :
    (s.serveAt now r).1 = (s.backend.store.serve now r).1 ∧
      (s.serveAt now r).2.backend.store = (s.backend.store.serve now r).2 ∧ (s.serveAt now r).2.Calm := by
  simp only [Site.serveAt, Backend.serve_calm h.reached h.faultless]
  refine ⟨trivial, rfl, h.reached, ?_⟩
  intro operation fault hf
  simp only [Site.enter, Backend.spend] at hf
  split at hf
  · exact h.faultless operation fault (List.mem_of_mem_tail hf)
  · exact h.faultless operation fault hf

/-- An attempt gets through, or the policy makes up a fault in front of it. -/
theorem attempt (h : s.Calm) (p : Policy) (n : UInt32) (now : Instant) (r : Request) :
    ∃ s', s'.Calm ∧
      (s.attempt p n now r = ((s.backend.store.serve now r).1, s') ∧
          s'.backend.store = (s.backend.store.serve now r).2 ∨
        s.attempt p n now r = (.error (Chaos.fault p.name), s') ∧ s'.backend.store = s.backend.store) := by
  obtain ⟨throw, dice, thrown⟩ := s.throw_eq
  have calm : Site.Calm { s with dice } := ⟨h.reached, h.faultless⟩
  simp only [Site.attempt, thrown, Policy.attempt]
  split
  · exact ⟨_, calm, Or.inr ⟨rfl, rfl⟩⟩
  · obtain ⟨reply, store, calm'⟩ := calm.serveAt now r
    exact ⟨_, calm', Or.inl ⟨Prod.ext reply rfl, store⟩⟩

end Site.Calm

/-! ## One step of a reclaim -/

namespace Reclaim

variable {s : Scene}

/-- What the next step takes back, if it is an attempt that gets through. -/
def scan? (r : Reclaim) (s : Scene) : Option (List MessageId) :=
  match r, (r.step s).1 with
  | .scanning (.attempting _), .scanning (.done (.ok ids)) => some ids
  | _, _ => none

/-- To revoke a claim is a matter of the desk. -/
theorem revoke_site (s : Scene) (id : MessageId) :
    (revoke s id).site = { s.site with log := (revoke s id).site.log } ∧
      (revoke s id).desk.config = s.desk.config := by
  unfold revoke
  split
  · exact ⟨rfl, rfl⟩
  · exact ⟨rfl, rfl⟩

/-- An attempt of the scan on a calm site. -/
theorem attempt_calm (calm : s.site.Calm) (n : UInt32) :
    ∃ call site, step s (.scanning (.attempting n)) = (.scanning call, { s with site }) ∧ site.Calm ∧
      ((∃ ids, call = .done (.ok ids) ∧ s.site.backend.store.reclaimDead s.site.now s.desk.config.heartbeat.time
          s.desk.config.heartbeat.lookback = (ids, site.backend.store)) ∨
        (∀ ids, call ≠ .done (.ok ids)) ∧ site.backend.store = s.site.backend.store) := by
  simp only [step, Scene.advance, Call.step]
  split
  · refine ⟨_, _, rfl, calm, Or.inr ⟨fun ids done => ?_, rfl⟩⟩
    cases done
  · rename_i p _
    obtain ⟨site, calm', ⟨through, served⟩ | ⟨struck, store⟩⟩ := calm.attempt p n s.site.now
      (.reclaimDead s.desk.config.heartbeat.time s.desk.config.heartbeat.lookback)
    · rw [through]
      exact ⟨_, site, rfl, calm', Or.inl ⟨_, rfl, Prod.ext rfl served.symm⟩⟩
    · rw [struck]
      simp only []
      split
      · rename_i result judged
        refine ⟨_, site, rfl, calm', Or.inr ⟨fun ids done => ?_, store⟩⟩
        -- no policy takes a fault for a success
        cases done
        simp only [Policy.judge] at judged
        split at judged
        · cases judged
        · split at judged <;> cases judged
      · obtain ⟨throw, dice, thrown⟩ := site.throw_eq
        simp only [thrown]
        refine ⟨_, _, rfl, ⟨calm'.reached, calm'.faultless⟩, Or.inr ⟨fun ids done => ?_, store⟩⟩
        cases done

/-- On a calm site the scan is served by the store, and no other step changes the store. -/
theorem step_calm (calm : s.site.Calm) (r : Reclaim) :
    (r.step s).2.site.Calm ∧ (r.step s).2.desk.config = s.desk.config ∧
      match r.scan? s with
      | some ids => s.site.backend.store.reclaimDead s.site.now s.desk.config.heartbeat.time
          s.desk.config.heartbeat.lookback = (ids, (r.step s).2.site.backend.store)
      | none => (r.step s).2.site.backend.store = s.site.backend.store := by
  cases r with
  | done result => exact ⟨calm, rfl, rfl⟩
  | revoking reclaimed rest =>
    cases rest with
    | nil => exact ⟨⟨calm.reached, calm.faultless⟩, rfl, rfl⟩
    | cons id rest =>
      obtain ⟨site, config⟩ := revoke_site s id
      refine ⟨?_, config, ?_⟩
      · show (revoke s id).site.Calm
        rw [site]
        exact ⟨calm.reached, calm.faultless⟩
      · show (revoke s id).site.backend.store = s.site.backend.store
        rw [site]
  | scanning call =>
    cases call with
    | done result => cases result <;> exact ⟨calm, rfl, rfl⟩
    | waiting n e wake =>
      have still : (step s (.scanning (.waiting n e wake))).2 = s := by
        simp only [step, Scene.advance, Call.step, Bool.false_eq_true, if_false]
        split <;> rfl
      rw [still]
      exact ⟨calm, rfl, rfl⟩
    | attempting n =>
      obtain ⟨call, site, stepped, calm', ⟨ids, rfl, scanned⟩ | ⟨missed, store⟩⟩ := attempt_calm calm n
      · simp only [scan?, stepped]
        exact ⟨calm', trivial, scanned⟩
      · have none : scan? (.scanning (.attempting n)) s = none := by
          simp only [scan?, stepped]
          split
          · rename_i ids _ done
            cases done
            exact absurd rfl (missed ids)
          · rfl
        rw [none, stepped]
        exact ⟨calm', rfl, store⟩

/-! ## After the scan -/

/-- A reclaim after `n` more steps, with nothing in between. -/
def steps : Nat → Reclaim → Scene → Reclaim × Scene
  | 0, r, s => (r, s)
  | n + 1, r, s => steps n (r.step s).1 (r.step s).2

theorem steps_revoking (reclaimed rest : List MessageId) (s : Scene) :
    (steps (rest.length + 1) (.revoking reclaimed rest) s).1 = .done (.ok reclaimed) := by
  induction rest generalizing s with
  | nil => rfl
  | cons id rest ih => exact ih (revoke s id)

/-- A reclaim ends with what its scan took back. -/
theorem steps_scanned {r : Reclaim} {ids : List MessageId} (h : r.scan? s = some ids) :
    ∃ n, (steps n r s).1 = .done (.ok ids) := by
  have scanned : (r.step s).1 = .scanning (.done (.ok ids)) := by
    unfold scan? at h
    split at h
    · cases h
      assumption
    · cases h
  cases ids with
  | nil =>
    refine ⟨2, ?_⟩
    rw [steps, steps, scanned]
    rfl
  | cons id ids =>
    refine ⟨(id :: ids).length + 3, ?_⟩
    rw [steps, steps, scanned]
    exact steps_revoking _ _ _

end Reclaim

end ClaimQueue
