/-
  ClaimQueue.Proofs.Upkeep.Disposal — which deletions a member still owes.

  Two members end messages, workers with their outcomes and the expiration monitor with its
  scan, and each deletes afterwards what it ended, in a step of its own. In between it owes the
  deletion (`discards`). `Disposes` is what a step of any member does to that: what the
  store is asked in the step and what is owed before and after fit together.
-/

import ClaimQueue.Proofs.Store.Endings
import ClaimQueue.Proofs.Upkeep.Tending

namespace ClaimQueue

/-- Does the request send a message? -/
def Request.isSend : Request → Bool
  | .enqueue _ => true
  | _ => false

/-- A step of a member that owes the deletions `ds`, and `ds'` after it. No member sends. -/
structure Disposes (retention : Retention) (ds ds' : List MessageId) (s : Site) (asked : Option Asked) (s' : Site) :
    Prop where
  site : s.Leads asked s'
  discards : Discards retention ds ds' s.store asked
  silent : asked.any (·.2.isSend) = false

namespace Disposes

variable {retention : Retention} {ds ds' : List MessageId} {s s' : Site} {asked : Option Asked}

theorem quiet (leads : s.Leads none s') (same : ds' = ds) : Disposes retention ds ds' s none s' :=
  ⟨leads, same ▸ .rests rfl, rfl⟩

theorem gentle (leads : s.Leads asked s') (gentle : asked.all (·.2.isGentle) = true)
    (silent : asked.any (·.2.isSend) = false) : Disposes retention ds ds s asked s' :=
  ⟨leads, .rests gentle, silent⟩

theorem frame (d : Disposes retention ds ds' s asked s') (before after : List MessageId) :
    Disposes retention (before ++ (ds ++ after)) (before ++ (ds' ++ after)) s asked s' :=
  ⟨d.site, d.discards.frame before after, d.silent⟩

end Disposes

variable {s : Scene}

/-- A step of a call that cannot be cancelled, by one that owes `ds` until it is answered. -/
theorem Disposes.call (h : s.site.Settled) {r : Request} (command : r.operation.isQuery = false)
    (silent : r.isSend = false) (scopes : List Scope) {call : Call r.Reply} (undone : call.result? = none)
    {retention : Retention} {ds : List MessageId} (owed : Call r.Reply → List MessageId)
    (unanswered : ∀ call, call.result? = none → owed call = ds)
    (answered : Discards retention ds (owed (.done (s.site.store.serve s.site.now r).1)) s.site.store
      (some (s.site.now, r))) :
    let stepped := s.advance r false scopes call
    ∃ asked, Disposes retention ds (owed stepped.1) s.site asked stepped.2.site := by
  intro stepped
  cases Call.step_goes h command false scopes undone with
  | waits undone leads => exact ⟨_, .quiet leads (unanswered _ undone)⟩
  | quits e cancelled => cases cancelled
  | answers ended leads =>
    have ended : stepped.1 = .done (s.site.store.serve s.site.now r).1 := ended
    exact ⟨_, leads, ended ▸ answered, silent⟩

/-! ## Workers -/

namespace Worker

/-- The message that the worker ended and has not deleted yet. -/
def discards (retention : Retention) (w : Worker) : List MessageId :=
  match w.stage with
  | .recording m _ (.done (.ok updated)) => if updated.status.isTerminal && retention == .purge then [m.id] else []
  | .purging _ _ (.done _) => []
  | .purging m _ _ => [m.id]
  | _ => []

theorem discards_recorded (w : Worker) (retention : Retention) (m : Message) (change : Change) (store : Store)
    (now : Instant) :
    (w.goTo (.recording m change (.done (store.serve now (.updateStatus m.id change m.version)).1))).discards retention =
      if retention = .purge then store.finished (some (now, .updateStatus m.id change m.version)) else [] := by
  simp only [Store.serve, Store.finished, goTo]
  cases (store.updateStatus m.id change m.version now).1 with
  | ok out => cases retention <;> simp [discards]
  | error e => cases retention <;> rfl

/-- A step of a claim, which is about no deletion. -/
theorem claim_disposes (h : s.site.Settled) (w : Worker) (retention : Retention) (call : Call (Option Message))
    (undone : call.result? = none) :
    let stepped := s.advance (.tryClaim w.id s.desk.filter) s.desk.tokens.shutdown [] call
    ∃ asked, Disposes retention [] ((w.goTo (.claiming stepped.1)).discards retention) s.site asked stepped.2.site := by
  let r : Request := .tryClaim w.id s.desk.filter
  cases Call.step_goes (r := r) h rfl s.desk.tokens.shutdown [] undone with
  | waits _ leads => exact ⟨_, .quiet leads rfl⟩
  | quits e _ _ leads => exact ⟨_, .quiet leads rfl⟩
  | answers _ leads => exact ⟨_, .gentle leads rfl rfl⟩

/-- A step of the record of an outcome. -/
theorem record_disposes (h : s.site.Settled) (w : Worker) (retention : Retention) (m : Message) (change : Change)
    (call : Call Message) (undone : call.result? = none) (scopes : List Scope) :
    let stepped := s.advance (.updateStatus m.id change m.version) false scopes call
    ∃ asked, Disposes retention [] ((w.goTo (.recording m change stepped.1)).discards retention) s.site asked
      stepped.2.site := by
  refine Disposes.call (r := .updateStatus m.id change m.version) h rfl rfl scopes undone
    (fun call => (w.goTo (.recording m change call)).discards retention) (fun call undone => ?_)
    (.ending (discards_recorded w retention m change _ _) rfl)
  cases call with
  | done result => cases undone
  | _ => rfl

/-- A step of the deletion of what ended. -/
theorem purge_disposes (h : s.site.Settled) (w : Worker) (retention : Retention) (m : Message) (change : Change)
    (call : Call Bool) (undone : call.result? = none) (scopes : List Scope) :
    let stepped := s.advance (.delete m.id) false scopes call
    ∃ asked, Disposes retention [m.id] ((w.goTo (.purging m change stepped.1)).discards retention) s.site asked
      stepped.2.site := by
  refine Disposes.call (r := .delete m.id) h rfl rfl scopes undone
    (fun call => (w.goTo (.purging m change call)).discards retention) (fun call undone => ?_)
    (.deletion retention _ _ m.id [])
  cases call with
  | done result => cases undone
  | _ => rfl

theorem step_disposes (h : s.site.Settled) (w : Worker) :
    ∃ asked, Disposes s.desk.config.retention (w.discards s.desk.config.retention)
      ((w.step s).1.discards s.desk.config.retention) s.site asked (w.step s).2.site := by
  obtain ⟨index, id, idle, emptyStreak, fatalStreak, stage⟩ := w
  let w : Stage → Worker := fun stage => ⟨index, id, idle, emptyStreak, fatalStreak, stage⟩
  cases stage with
  | claiming call =>
    cases call with
    | done result =>
      cases result with
      | ok found => cases found <;> exact ⟨_, .quiet h.refl rfl⟩
      | error e =>
        simp only [step, claimed]
        split
        · exact ⟨_, .quiet (h.note _ _) rfl⟩
        · exact ⟨_, .quiet (h.note _ _) rfl⟩
    | attempting n => exact claim_disposes h (w (.claiming (.attempting n))) _ (.attempting n) rfl
    | waiting n e wake => exact claim_disposes h (w (.claiming (.waiting n e wake))) _ (.waiting n e wake) rfl
  | handling m token handler =>
    cases handler with
    | done outcome => exact ⟨_, .quiet h.refl rfl⟩
    | _ =>
      simp only [step]
      exact ⟨_, .quiet (Handling.step_leads h id m token _) rfl⟩
  | settling m outcome =>
    simp only [step]
    split
    · split
      · exact ⟨_, .quiet (h.note _ _) rfl⟩
      · exact ⟨_, .quiet h.refl rfl⟩
    · split
      · exact ⟨_, .quiet (h.note _ _) rfl⟩
      · exact ⟨_, .quiet h.refl rfl⟩
  | recording m change call =>
    cases call with
    | done result =>
      cases result with
      | ok updated =>
        simp only [step, recorded]
        split
        · exact ⟨_, .quiet (h.note _ _) (if_pos ‹_›).symm⟩
        · exact ⟨_, .quiet (h.note _ _) (if_neg ‹_›).symm⟩
      | error e => exact ⟨_, .quiet (h.note _ _) rfl⟩
    | attempting n => exact record_disposes h (w (.recording m change (.attempting n))) _ m change (.attempting n) rfl _
    | waiting n e wake =>
      exact record_disposes h (w (.recording m change (.waiting n e wake))) _ m change (.waiting n e wake) rfl []
  | purging m change call =>
    cases call with
    | done result =>
      cases result with
      | ok found => exact ⟨_, .quiet h.refl rfl⟩
      | error e => exact ⟨_, .quiet (h.note _ _) rfl⟩
    | attempting n => exact purge_disposes h (w (.purging m change (.attempting n))) _ m change (.attempting n) rfl _
    | waiting n e wake =>
      exact purge_disposes h (w (.purging m change (.waiting n e wake))) _ m change (.waiting n e wake) rfl []
  | looking | checking ticket | parked ticket | pausing wake | found m | emptyHanded | leaving =>
    simp only [step]
    repeat' split
    all_goals first | exact ⟨_, .quiet h.refl rfl⟩ | exact ⟨_, .quiet (h.note _ _) rfl⟩
  | starting | opening m => exact ⟨_, .quiet (h.note _ _) rfl⟩
  | enabling | announcing m | returned m outcome | stopped => exact ⟨_, .quiet h.refl rfl⟩

end Worker

/-! ## Monitors -/

namespace Expiry

/-- The messages that the pass ended and has not deleted yet. -/
def discards (retention : Retention) : Expiry → List MessageId
  | .scanning (.done (.ok ids)) => if retention = .purge then ids else []
  | .purging _ (_ :: rest) (.done _) => rest
  | .purging _ rest _ => rest
  | _ => []

theorem discards_purge (retention : Retention) (expired rest : List MessageId) :
    (purge expired rest).discards retention = rest := by
  cases rest <;> rfl

/-- A step of the scan. -/
theorem scan_disposes (h : s.site.Settled) (retention : Retention) (call : Call (List MessageId))
    (undone : call.result? = none) :
    let stepped := s.advance .expireDue false [] call
    ∃ asked, Disposes retention [] ((scanning stepped.1).discards retention) s.site asked stepped.2.site := by
  refine Disposes.call (r := .expireDue) h rfl rfl [] undone (fun call => (scanning call).discards retention)
    (fun call undone => ?_) (.ending rfl rfl)
  cases call with
  | done result => cases undone
  | _ => rfl

/-- A step of the deletion of the first message. -/
theorem purge_disposes (h : s.site.Settled) (retention : Retention) (expired : List MessageId) (id : MessageId)
    (rest : List MessageId) (call : Call Bool) (undone : call.result? = none) :
    let stepped := s.advance (.delete id) false [] call
    ∃ asked, Disposes retention (id :: rest) ((purging expired (id :: rest) stepped.1).discards retention) s.site asked
      stepped.2.site := by
  refine Disposes.call (r := .delete id) h rfl rfl [] undone
    (fun call => (purging expired (id :: rest) call).discards retention) (fun call undone => ?_)
    (.deletion retention _ _ id rest)
  cases call with
  | done result => cases undone
  | _ => rfl

theorem step_disposes (h : s.site.Settled) (x : Expiry) :
    ∃ asked, Disposes s.desk.config.retention (x.discards s.desk.config.retention)
      ((x.step s).1.discards s.desk.config.retention) s.site asked (x.step s).2.site := by
  cases x with
  | scanning call =>
    cases call with
    | done result =>
      cases result with
      | error e => exact ⟨_, .quiet h.refl rfl⟩
      | ok ids =>
        cases ids with
        | nil => exact ⟨_, .quiet h.refl (ite_self _).symm⟩
        | cons id rest =>
          refine ⟨_, .quiet (h.note _ _) ?_⟩
          show (if s.desk.config.retention = .purge then purge (id :: rest) (id :: rest)
            else .done (.ok (id :: rest))).discards _ = if _ then _ else _
          split
          · exact discards_purge _ _ _
          · rfl
    | attempting n => exact scan_disposes h _ (.attempting n) rfl
    | waiting n e wake => exact scan_disposes h _ (.waiting n e wake) rfl
  | purging expired rest call =>
    cases rest with
    | nil => cases call <;> exact ⟨_, .quiet h.refl rfl⟩
    | cons id rest =>
      cases call with
      | done result =>
        cases result with
        | ok found => exact ⟨_, .quiet h.refl (discards_purge _ expired rest)⟩
        | error e => exact ⟨_, .quiet (h.note _ _) (discards_purge _ expired rest)⟩
      | attempting n => exact purge_disposes h _ expired id rest (.attempting n) rfl
      | waiting n e wake => exact purge_disposes h _ expired id rest (.waiting n e wake) rfl
  | done result => exact ⟨_, .quiet h.refl rfl⟩

end Expiry

namespace Monitor

/-- The messages that the monitor ended and has not deleted yet. -/
def discards (retention : Retention) (m : Monitor) : List MessageId :=
  match m.stage with
  | .passing (.expiration expiry) => expiry.discards retention
  | _ => []

end Monitor

theorem Monitor.discards_ended (duty : Duty) {round : Round} {result : Except Error Nat}
    (ended : round.result? = some result) (retention : Retention) :
    discards retention ⟨duty, .passing round⟩ = [] := by
  cases round with
  | expiration expiry =>
    cases expiry with
    | done result => rfl
    | _ => cases ended
  | _ => rfl

/-- A heartbeat pass takes claims back, and ends and deletes nothing. -/
theorem Pass.step_disposes (h : s.site.Settled) (p : Pass) (retention : Retention) :
    ∃ asked, Disposes retention [] [] s.site asked (p.step s).2.site := by
  by_cases idle : p.tending = .idle
  · -- the pass is over
    cases p with
    | refreshing refresh => cases refresh <;> cases idle
    | reclaiming refreshed lost reclaim =>
      cases reclaim with
      | done result => exact ⟨_, .quiet h.refl rfl⟩
      | revoking reclaimed rest => cases idle
      | scanning call =>
        cases call with
        | done result => cases result <;> cases idle
        | _ => cases idle
    | done result => exact ⟨_, .quiet h.refl rfl⟩
  · obtain ⟨asked, step⟩ := Pass.step_moves h p
    refine ⟨asked, .gentle step.site ?_ ?_⟩
    all_goals
      cases step.moves with
      | asks r before => exact absurd before idle
      | _ => rfl

theorem Promotion.step_disposes (h : s.site.Settled) (p : Promotion) (retention : Retention) :
    ∃ asked, Disposes retention [] [] s.site asked (p.step s).2.site := by
  -- a step of the scan
  have scan : ∀ call : Call Nat, call.result? = none →
      ∃ asked, Disposes retention [] [] s.site asked (s.advance .promoteDelayed false [] call).2.site :=
    fun call undone => Disposes.call (r := .promoteDelayed) h rfl rfl [] undone (fun _ => []) (fun _ _ => rfl) (.rests rfl)
  cases p with
  | scanning call =>
    cases call with
    | done result =>
      cases result with
      | ok n =>
        simp only [step]
        split
        · exact ⟨_, .quiet h.refl rfl⟩
        · exact ⟨_, .quiet (h.note _ _) rfl⟩
      | error e => exact ⟨_, .quiet h.refl rfl⟩
    | attempting n => exact scan (.attempting n) rfl
    | waiting n e wake => exact scan (.waiting n e wake) rfl
  | done result => exact ⟨_, .quiet h.refl rfl⟩

theorem Monitor.step_disposes (h : s.site.Settled) (m : Monitor) :
    ∃ asked, Disposes s.desk.config.retention (m.discards s.desk.config.retention)
      ((m.step s).1.discards s.desk.config.retention) s.site asked (m.step s).2.site := by
  obtain ⟨duty, stage⟩ := m
  cases stage with
  | starting => exact ⟨_, .quiet (h.note _ _) rfl⟩
  | sleeping wake =>
    simp only [step]
    split
    · exact ⟨_, .quiet h.refl rfl⟩
    · split
      · cases duty <;> exact ⟨_, .quiet h.refl rfl⟩
      · exact ⟨_, .quiet h.refl rfl⟩
  | passing round =>
    cases ended : round.result? with
    | some result =>
      have none := discards_ended duty ended s.desk.config.retention
      cases result with
      | error e =>
        simp only [step, ended]
        exact ⟨_, .quiet (h.note _ _) none.symm⟩
      | ok count =>
        cases count with
        | zero =>
          simp only [step, ended]
          exact ⟨_, .quiet h.refl none.symm⟩
        | succ count =>
          simp only [step, ended]
          exact ⟨_, .quiet (h.note _ _) none.symm⟩
    | none =>
      simp only [step, ended]
      cases round with
      | expiration expiry => exact expiry.step_disposes h
      | delayed promotion => exact promotion.step_disposes h _
      | heartbeat pass => exact pass.step_disposes h _
  | stopping =>
    refine ⟨_, .quiet (?_ : s.site.Leads none _) rfl⟩
    simp only [step, leave]
    split <;> exact h.note _ _
  | stopped => exact ⟨_, .quiet h.refl rfl⟩

theorem Runner.step_disposes (h : s.site.Settled) (r : Runner) (retention : Retention) (ds : List MessageId) :
    ∃ asked, Disposes retention ds ds s.site asked (r.step s).2.site := by
  obtain ⟨asked, step⟩ := r.step_moves h
  refine ⟨asked, .gentle step.site ?_ ?_⟩
  all_goals cases step.moves <;> rfl

end ClaimQueue
