/-
  ClaimQueue.Proofs.Work.Charges — from a claim to the answer to its outcome.

  A worker is in charge of the message it claimed until the store answered to its outcome
  (`charge?`); while a claim can be given back every outcome is recorded, so nothing else ends
  a charge. `Turns` is all that a step does to it.

  What a worker holds it is in charge of (`Charged`). An accepted record ends the claim; a
  refused one shows that it had ended before, since nothing but its heartbeat changes in a
  message while it is held.
-/

import ClaimQueue.Proofs.Work.Decisions

namespace ClaimQueue

namespace Worker

/-- The message that the worker claimed, until the store answered to what became of it. -/
def charge? (w : Worker) : Option Message :=
  match w.stage with
  | .recording _ _ (.done _) => none
  | _ => w.hand?

theorem hand_of_charge {w : Worker} {m : Message} (charge : w.charge? = some m) : w.hand? = some m := by
  unfold charge? at charge
  split at charge
  · cases charge
  · exact charge

theorem charge_stopped {w : Worker} (stopped : w.isStopped = true) : w.charge? = none := by
  obtain ⟨index, id, idle, emptyStreak, fatalStreak, stage⟩ := w
  cases stage with
  | stopped => rfl
  | _ => cases stopped

theorem charge_claiming {w : Worker} {call : Call (Option Message)} (claiming : w.stage = .claiming call) :
    w.charge? = w.phase.message? := by
  rw [← hand_claiming claiming, charge?, claiming]

/-- Where a claim can be given back, every outcome comes to a change. -/
theorem outcomeChange_able (config : QueueConfig) (now : Instant) (m : Message) (outcome : Outcome) :
    outcomeChange config true now m outcome ≠ none := by
  intro chosen
  obtain ⟨_, _, _, unable⟩ := outcomeChange_none chosen
  cases unable

theorem outcomeChange_allowed {config : QueueConfig} {rollback : Bool} {now : Instant} {m : Message}
    {outcome : Outcome} {change : Change} (chosen : outcomeChange config rollback now m outcome = some change) :
    change.isAllowed = true := by
  cases outcome with
  | ok done =>
    cases chosen
    rfl
  | error f =>
    simp only [outcomeChange] at chosen
    split at chosen
    · split at chosen
      · cases chosen
        rfl
      · cases chosen
    · cases chosen
      unfold failureChange
      dsimp only
      split <;> rfl

/-- What a step does to the charge of a worker, and the request that is served in it. -/
inductive Turns (w w' : Worker) (s s' : Scene) : Option Asked → Prop
  | keeps {asked : Option Asked} : w'.charge? = w.charge? → asked.all (·.2.spares w.id) = true → Turns w w' s s' asked
  | takes (m : Message) : w.charge? = none → w'.charge? = some m →
      (s.site.store.tryClaim w.id s.desk.filter s.site.now).1 = some m →
      Turns w w' s s' (some (s.site.now, .tryClaim w.id s.desk.filter))
  | records (m : Message) (change : Change) (call : Call Message) : w.stage = .recording m change call →
      w.charge? = some m → w'.charge? = none → Turns w w' s s' (some (s.site.now, .updateStatus m.id change m.version))

variable {w : Worker} {s : Scene}

/-- A step of a worker that is not claiming leaves its charge alone, if it does not record. -/
theorem turns_keeps (h : s.site.Settled) (w : Worker) (same : (w.step s).1.charge? = w.charge?)
    (unclaimed : ∀ m, (w.step s).1.phase = .claimed m → w.phase = .claimed m) :
    ∃ asked, s.site.Leads asked (w.step s).2.site ∧ Turns w (w.step s).1 s (w.step s).2 asked := by
  obtain ⟨asked, step⟩ := step_moves h w
  refine ⟨asked, step.site, .keeps same ?_⟩
  cases step.moves with
  | asks r _ _ plain => exact Request.spares_of_plain plain w.id
  | claims m free claimed =>
    have := unclaimed m claimed
    rw [free] at this
    cases this
  | _ => rfl

theorem turns_claiming (h : s.site.Settled) {call call' : Call (Option Message)} (claiming : w.stage = .claiming call)
    (claiming' : (w.step s).1.stage = .claiming call') :
    ∃ asked, s.site.Leads asked (w.step s).2.site ∧ Turns w (w.step s).1 s (w.step s).2 asked := by
  obtain ⟨asked, step⟩ := step_moves h w
  refine ⟨asked, step.site, ?_⟩
  have charge := charge_claiming claiming
  have charge' := charge_claiming claiming'
  cases step.moves with
  | stays same => exact .keeps (by rw [charge', charge, same]) rfl
  | asks r free free' plain => exact .keeps (by rw [charge', charge, free, free']) (Request.spares_of_plain plain w.id)
  | claims m free claimed made =>
    exact .takes m (by rw [charge, free]; rfl) (by rw [charge', claimed]; rfl) made
  | opens m before after => exact .keeps (by rw [charge', charge, before, after]; rfl) rfl
  | ends m token before after => exact .keeps (by rw [charge', charge, before, after]; rfl) rfl
  | closes m before =>
    rw [phase, claiming] at before
    split at before <;> simp_all

/-- A step of a record: it waits, or the store answers. -/
theorem turns_recording (h : s.site.Settled) (w : Worker) (m : Message) (change : Change) {call : Call Message}
    (undone : call.result? = none) (recording : w.stage = .recording m change call) (scopes : List Scope) :
    let stepped := s.advance (.updateStatus m.id change m.version) false scopes call
    ∃ asked, s.site.Leads asked stepped.2.site ∧ Turns w (w.goTo (.recording m change stepped.1)) s stepped.2 asked := by
  have pending : ∀ {call : Call Message}, call.result? = none → (w.goTo (.recording m change call)).charge? = some m := by
    intro call undone
    cases call with
    | done result => cases undone
    | _ => rfl
  have charge : w.charge? = some m := by
    rw [← pending undone, goTo, ← recording]
  let r : Request := .updateStatus m.id change m.version
  have goes := Call.step_goes (r := r) h rfl false scopes undone
  show ∃ asked, s.site.Leads asked (call.step r false scopes s.site).2 ∧
    Turns w (w.goTo (.recording m change (call.step r false scopes s.site).1)) s
      { s with site := (call.step r false scopes s.site).2 } asked
  generalize call.step r false scopes s.site = stepped at goes
  obtain ⟨call', site⟩ := stepped
  cases goes with
  | waits undone' leads => exact ⟨_, leads, .keeps ((pending undone').trans charge.symm) rfl⟩
  | quits e cancelled => cases cancelled
  | answers ended leads =>
    cases ended
    exact ⟨_, leads, .records m change call recording charge rfl⟩

theorem step_turns (h : s.site.Settled) (able : s.site.backend.capabilities.rollback = true) (w : Worker) :
    ∃ asked, s.site.Leads asked (w.step s).2.site ∧ Turns w (w.step s).1 s (w.step s).2 asked := by
  obtain ⟨index, id, idle, emptyStreak, fatalStreak, stage⟩ := w
  let w : Stage → Worker := fun stage => ⟨index, id, idle, emptyStreak, fatalStreak, stage⟩
  cases stage with
  | claiming call =>
    cases call with
    | done result =>
      refine turns_keeps h _ ?_ fun m same => ?_
      · cases result with
        | ok found => cases found <;> rfl
        | error e =>
          simp only [step, claimed]
          split <;> rfl
      · cases result with
        | ok found => cases found <;> exact same
        | error e =>
          simp only [step, claimed] at same
          split at same <;> cases same
    | _ => exact turns_claiming h rfl rfl
  | settling m outcome =>
    refine turns_keeps h _ ?_ fun m same => ?_
    · simp only [step, able]
      split
      · rfl
      · exact absurd ‹_› (outcomeChange_able _ _ _ _)
    · simp only [step] at same
      split at same <;> cases same
  | recording m change call =>
    cases call with
    | done result =>
      refine turns_keeps h _ ?_ fun m same => ?_
      · cases result with
        | ok updated =>
          simp only [step, recorded]
          split <;> rfl
        | error e => rfl
      · cases result with
        | ok updated =>
          simp only [step, recorded] at same
          split at same <;> cases same
        | error e => cases same
    | attempting n => exact turns_recording h (w (.recording m change (.attempting n))) m change rfl rfl _
    | waiting n e wake => exact turns_recording h (w (.recording m change (.waiting n e wake))) m change rfl rfl []
  | handling m token handler =>
    cases handler with
    | done outcome => exact turns_keeps h _ rfl fun m same => by cases same
    | _ =>
      refine turns_keeps h _ rfl fun m same => ?_
      simp only [step] at same
      rcases phase_handling _ _ _ _ with serving | ended
      · rw [serving] at same
        cases same
      · rw [ended] at same
        cases same
  | purging m change call => cases call <;> exact turns_keeps h _ rfl fun m same => by cases same
  | looking | checking ticket | parked ticket | pausing wake =>
    refine turns_keeps h _ ?_ fun m same => ?_
    · simp only [step]
      repeat' split
      all_goals rfl
    · simp only [step] at same
      repeat' split at same
      all_goals cases same
  | announcing m | found m => exact turns_keeps h _ rfl fun _ same => same
  | _ => exact turns_keeps h _ rfl fun m same => by cases same

/-- What a worker holds it is in charge of, and what it records was worth recording. -/
structure Charged (w : Worker) (s : Store) : Prop where
  held : ∀ id, s.held id w.id = true → ∃ m, w.charge? = some m ∧ m.id = id
  owns : ∀ m, w.charge? = some m → s.Owns w.id m
  chosen : ∀ m change call, w.stage = .recording m change call → change.isAllowed = true ∧ change.src = .working

/-- How a charge ends: the worker records what became of the message, and either the store makes the change,
or the worker did not hold the message any more. -/
inductive Releases (w : Worker) (m : Message) (s s' : Store) : Deed → Prop
  | accepted (change : Change) (call : Call Message) (out : Message) : w.stage = .recording m change call →
      s'.get? m.id = some out → out.status = change.dst → change.dst ≠ .working →
      Releases w m s s' (.served (.updateStatus m.id change m.version) (.ok out))
  | refused (change : Change) (call : Call Message) (e : Error) : w.stage = .recording m change call →
      s.held m.id w.id = false → Releases w m s s' (.served (.updateStatus m.id change m.version) (.error e))

namespace Charged

variable {s : Store} {asked : Option Asked}

/-- A worker that starts under a name that holds nothing. -/
theorem fresh {w : Worker} (starting : w.stage = .starting) (free : ∀ id, s.held id w.id = false) : w.Charged s := by
  refine ⟨fun id held => ?_, fun m charge => ?_, fun m change call recording => ?_⟩
  · rw [free] at held
    cases held
  · rw [charge?, hand?, starting] at charge
    cases charge
  · rw [starting] at recording
    cases recording

/-- The same worker after a request that makes no claim in its name. -/
theorem spared (charged : w.Charged s) (distinct : s.Distinct) (spares : asked.all (·.2.spares w.id) = true) :
    w.Charged (s.after asked) where
  held id held := charged.held id (Store.held_after distinct spares held)
  owns m charge := (charged.owns m charge).after distinct spares
  chosen := charged.chosen

/-- Who holds the message it records has it recorded. -/
theorem accepted (charged : w.Charged s) {m : Message} {change : Change} {call : Call Message}
    (recording : w.stage = .recording m change call) (charge : w.charge? = some m)
    (held : s.held m.id w.id = true) (now : Instant) :
    ∃ stored, (s.updateStatus m.id change m.version now).1 = .ok (change.apply stored now) := by
  obtain ⟨allowed, src⟩ := charged.chosen m change call recording
  obtain ⟨stored, found, working, owner⟩ := Store.held_iff.mp held
  obtain ⟨beat, rfl⟩ := charged.owns m charge stored found (by simp [Store.holds, working, owner])
  exact ⟨_, Store.updateStatus_made (m := { m with heartbeatAt := beat }) found allowed (working.trans src.symm)⟩

theorem releases (charged : w.Charged s) {m : Message} {change : Change} {call : Call Message}
    (recording : w.stage = .recording m change call) (charge : w.charge? = some m) (now : Instant) :
    Releases w m s (s.updateStatus m.id change m.version now).2
      (.served (.updateStatus m.id change m.version) (s.updateStatus m.id change m.version now).1) := by
  cases reply : (s.updateStatus m.id change m.version now).1 with
  | ok out =>
    obtain ⟨stored, _, allowed, _, _, rfl, after⟩ := Store.updateStatus_ok reply
    have moved := (change.isAllowed_iff.mp allowed).1
    exact .accepted change call _ recording ((after m.id).trans (if_pos rfl)) rfl moved
  | error e =>
    refine .refused change call e recording (Bool.eq_false_iff.mpr fun held => ?_)
    obtain ⟨stored, made⟩ := charged.accepted recording charge held now
    cases reply.symm.trans made

/-- Who is in charge of nothing holds nothing but its new claim. -/
theorem holds_claim (charged : w.Charged s) (distinct : s.Distinct) (free : w.charge? = none) {filter : ClaimFilter}
    {now : Instant} {m : Message} (claimed : (s.tryClaim w.id filter now).1 = some m) {id : MessageId}
    (held : (s.tryClaim w.id filter now).2.held id w.id = true) : m.id = id := by
  refine Classical.byContradiction fun other => ?_
  obtain ⟨m₀, _, _, rfl, after⟩ := Store.tryClaim_some distinct claimed
  have before : s.held id w.id = true := by
    rw [Store.held] at held ⊢
    rw [← held]
    exact congrArg _ ((after id).trans (if_neg (Ne.symm other))).symm
  obtain ⟨_, charge, _⟩ := charged.held id before
  rw [free] at charge
  cases charge

/-- Who has recorded what it was in charge of holds nothing. -/
theorem holds_nothing (charged : w.Charged s) (distinct : s.Distinct) {m : Message} {change : Change}
    {call : Call Message} (recording : w.stage = .recording m change call) (charge : w.charge? = some m)
    (now : Instant) (id : MessageId) : (s.updateStatus m.id change m.version now).2.held id w.id = false := by
  refine Bool.eq_false_iff.mpr fun held => ?_
  let asked : Option Asked := some (now, .updateStatus m.id change m.version)
  have before : s.held id w.id = true := Store.held_after distinct (rfl : asked.all (·.2.spares w.id) = true) held
  obtain ⟨m', charge', rfl⟩ := charged.held id before
  obtain rfl : m = m' := Option.some.inj (charge.symm.trans charge')
  obtain ⟨stored, made⟩ := charged.accepted recording charge before now
  obtain ⟨_, _, allowed, _, _, _, after⟩ := Store.updateStatus_ok made
  obtain ⟨out, found, working, _⟩ := Store.held_iff.mp held
  cases found.symm.trans ((after m.id).trans (if_pos rfl))
  exact absurd working (change.isAllowed_iff.mp allowed).1

/-- A worker that moves. -/
theorem moved {scene : Scene} (charged : w.Charged scene.site.store) (distinct : scene.site.store.Distinct)
    (turns : Turns w (w.step scene).1 scene (w.step scene).2 asked) (same : (w.step scene).1.id = w.id) :
    (w.step scene).1.Charged (scene.site.store.after asked) := by
  have chosen : ∀ m change call, (w.step scene).1.stage = .recording m change call →
      change.isAllowed = true ∧ change.src = .working := by
    intro m change call recording
    rcases recording_step recording with ⟨call, recording⟩ | ⟨outcome, _, chosen⟩
    · exact charged.chosen m change call recording
    · exact ⟨outcomeChange_allowed chosen, outcomeChange_src chosen⟩
  cases turns with
  | keeps still spares =>
    refine ⟨fun id held => ?_, fun m charge => ?_, chosen⟩
    · rw [same] at held
      rw [still]
      exact charged.held id (Store.held_after distinct spares held)
    · rw [same]
      exact (charged.owns m (still ▸ charge)).after distinct spares
  | takes m free charge claimed =>
    obtain ⟨stored, _, owner, _⟩ := Store.get?_claimed distinct claimed
    refine ⟨fun id held => ⟨m, charge, ?_⟩, fun m' charge' => ?_, chosen⟩
    · rw [same] at held
      exact charged.holds_claim distinct free claimed held
    · obtain rfl : m = m' := Option.some.inj (charge.symm.trans charge')
      intro m'' after _
      obtain rfl : m = m'' := Option.some.inj (stored.symm.trans after)
      exact ⟨m.heartbeatAt, rfl⟩
  | records m change call recording charge none =>
    refine ⟨fun id held => ?_, fun m' charge' => ?_, chosen⟩
    · rw [same, Store.after, Store.serve, charged.holds_nothing distinct recording charge] at held
      cases held
    · rw [none] at charge'
      cases charge'

end Charged

end Worker

end ClaimQueue
