/-
  ClaimQueue.Proofs.Crew.Races — what becomes of a lost race.

  The backend reports a lost race as an error (`Error.isStale`), and the refresh and the
  workers know it by that error: the refresh drops the claim and cancels its handler, a
  worker goes on to its next claim. A policy stands in between, and it asks its classifier
  first. `Policy.Recognizes` says what is expected of a lost race: that no call asks again
  after it, and that it is taken for what it is, whatever else the backend answered before
  and whatever the book holds.

  Nothing keeps a classifier from taking a lost race for worth another attempt. Then the
  call asks again, and in the end the error comes wrapped, where nobody knows it. Main
  statement: a policy recognizes a lost race just if its classifier does not take it.
-/

import ClaimQueue.Proofs.Upkeep.Reclaim
import ClaimQueue.Proofs.Work.Book
import ClaimQueue.Upkeep.Heartbeat
import ClaimQueue.Upkeep.Runner
import ClaimQueue.Work.Worker

namespace ClaimQueue

/-- The deeds that the journal has on top of those of an earlier site, in their order. -/
def Site.entered (s s' : Site) : List Deed :=
  ((s'.journal.take (s'.journal.length - s.journal.length)).map (·.2)).reverse

namespace Call

/-- Where and how a call makes a step. Anything may have happened since the step before. -/
structure Setting where
  site : Site
  cancelled : Bool
  scopes : List Scope

/-- The call after a step in each setting, and what the backend served in them. -/
def course (r : Request) (call : Call r.Reply) : List Setting → Call r.Reply × List Deed
  | [] => (call, [])
  | g :: gs =>
    let (next, site) := call.step r g.cancelled g.scopes g.site
    let (last, deeds) := next.course r gs
    (last, g.site.entered site ++ deeds)

end Call

/-- The requests of a crew run under `p`. -/
def Scene.Under (s : Scene) (p : Policy) : Prop := s.site.policies.get Policies.command = .ok p

/-- What is expected of the lost race `e` under the policy `p`. -/
structure Policy.Recognizes (p : Policy) (e : Error) : Prop where
  /-- It is the last answer to its call, and what the call comes back with. -/
  once : ∀ (r : Request) (gs : List Call.Setting),
    (∀ g ∈ gs, g.site.policies.get (Policies.nameFor r.operation) = .ok p) →
    ∀ before after, (Call.start.course r gs).2 = before ++ .served r (.error e) :: after →
      after = [] ∧ (Call.start.course r gs).1 = .done (.error e)
  /-- A runner that hears it reports it in its next step. -/
  reported : ∀ (runner : Runner) (job : Job) (call : Call Unit) (s s' : Scene), s.Under p →
    runner.stage = .working job call →
    s.site.entered (runner.step s).2.site = [.served (.resetHeartbeat job.id job.holding.worker) (.error e)] →
      (runner.step s).1.step s' = (runner.goTo .finishing, s'.setPool (s'.desk.pool.report ⟨job, .error e⟩))
  /-- A refresh that looks at the report counts the claim as lost, drops it and cancels its handler. -/
  dropped : ∀ id worker, e = .lostClaim id worker →
    ∀ (s : Scene) (job : Job) (reports : List Report) (left refreshed : Nat) (lost : List MessageId),
    s.desk.pool.reports = ⟨job, .error e⟩ :: reports →
      ((Refresh.collecting (left + 1) refreshed lost).step s).1 = .collecting left refreshed (lost ++ [job.id]) ∧
      ∀ holding, s.desk.claims.get? job.id = some holding → holding.worker = job.holding.worker →
        ((Refresh.collecting (left + 1) refreshed lost).step s).2.desk.claims = s.desk.claims.without job.id ∧
        ((Refresh.collecting (left + 1) refreshed lost).step s).2.desk.tokens.isCancelled job.holding.token = true
  /-- A worker that hears it of an outcome goes on in its next step, without a pause. -/
  recorded : ∀ (w : Worker) (m : Message) (change : Change) (call : Call Message) (s s' : Scene), s.Under p →
    w.stage = .recording m change call →
    s.site.entered (w.step s).2.site = [.served (.updateStatus m.id change m.version) (.error e)] →
      (w.step s).1.step s' = (w.goTo .looking, s'.note (.outcomeLate m.id e) [w.scope s'.queue m change.src])
  /-- So does a worker that hears it of a claim; its streaks stay as they are. -/
  claimed : ∀ (w : Worker) (call : Call (Option Message)) (s s' : Scene), s.Under p →
    w.stage = .claiming call →
    s.site.entered (w.step s).2.site = [.served (.tryClaim w.id s.desk.filter) (.error e)] →
      (w.step s).1.step s' = (w.goTo .looking, s'.note (.claimRaceLost w.id e))

/-! ## Calls -/

namespace Call

variable {s : Site} {r : Request} {p : Policy} {call : Call r.Reply} {e : Error}

theorem entered_self (s : Site) : s.entered s = [] := by
  unfold Site.entered
  rw [Nat.sub_self]
  rfl

/-- An attempt has the backend answer, and the policy judges the answer. -/
theorem step_attempt (found : s.policies.get (Policies.nameFor r.operation) = .ok p) (sure : p.chaos = none)
    (cancelled : Bool) (scopes : List Scope) (n : UInt32) :
    s.entered ((attempting n).step r cancelled scopes s).2 = [.served r (s.serveAt s.now r).1] ∧
      match p.judge n (s.serveAt s.now r).1 with
      | .done result => ((attempting n).step r cancelled scopes s).1 = .done result
      | .again error next => ∃ wake, ((attempting n).step r cancelled scopes s).1 = .waiting next error wake := by
  obtain ⟨throw, dice, thrown⟩ := s.throw_eq
  have spared : p.strikes n throw = false := by rw [Policy.strikes, sure]; rfl
  have served : s.attempt p n s.now r = ({ s with dice } : Site).serveAt s.now r := by
    simp only [Site.attempt, thrown, Policy.attempt, spared]
    rfl
  have answer : (({ s with dice } : Site).serveAt s.now r).1 = (s.serveAt s.now r).1 := rfl
  have journal : (({ s with dice } : Site).serveAt s.now r).2.journal =
      (s.time, .served r (s.serveAt s.now r).1) :: s.journal := rfl
  have one : ∀ {s' : Site}, s'.journal = (s.time, .served r (s.serveAt s.now r).1) :: s.journal →
      s.entered s' = [.served r (s.serveAt s.now r).1] := by
    intro s' grown
    simp [Site.entered, grown]
  simp only [step, found, served, answer]
  cases p.judge n (s.serveAt s.now r).1 with
  | done result => exact ⟨one journal, rfl⟩
  | again error next => exact ⟨one journal, _, rfl⟩

/-- Only an attempt has the backend serve anything. -/
theorem step_silent (cancelled : Bool) (scopes : List Scope) (idle : ∀ n, call ≠ .attempting n) :
    s.entered (call.step r cancelled scopes s).2 = [] := by
  cases call with
  | attempting n => exact absurd rfl (idle n)
  | done result => exact entered_self s
  | waiting n error wake =>
    simp only [step]
    repeat' split
    all_goals exact entered_self s

/-- An error that is not worth another attempt ends the call with it. -/
theorem step_final (found : s.policies.get (Policies.nameFor r.operation) = .ok p) (sure : p.chaos = none)
    (final : p.retry.worth e = false) {cancelled : Bool} {scopes : List Scope}
    (heard : s.entered (call.step r cancelled scopes s).2 = [.served r (.error e)]) :
    (call.step r cancelled scopes s).1 = .done (.error e) := by
  by_cases idle : ∀ n, call ≠ .attempting n
  · rw [step_silent cancelled scopes idle] at heard
    cases heard
  · obtain ⟨n, rfl⟩ : ∃ n, call = .attempting n := by simpa using idle
    obtain ⟨entered, judged⟩ := step_attempt found sure cancelled scopes n
    rw [entered] at heard
    have answer : (s.serveAt s.now r).1 = .error e := by simpa using heard
    rw [answer] at judged
    simpa [Policy.judge, final] using judged

theorem course_done (result : Except Error r.Reply) (gs : List Setting) :
    (done result).course r gs = (.done result, []) := by
  induction gs with
  | nil => rfl
  | cons g gs ih => simp only [course, step, ih, entered_self, List.append_nil]

/-- So it is the last answer of the call, wherever it comes. -/
theorem course_final (sure : p.chaos = none) (final : p.retry.worth e = false) {gs : List Setting}
    (found : ∀ g ∈ gs, g.site.policies.get (Policies.nameFor r.operation) = .ok p) {before after : List Deed}
    (heard : (call.course r gs).2 = before ++ .served r (.error e) :: after) :
    after = [] ∧ (call.course r gs).1 = .done (.error e) := by
  induction gs generalizing call before with
  | nil =>
    rw [course] at heard
    simp at heard
  | cons g gs ih =>
    have later := fun g hg => found g (List.mem_cons_of_mem _ hg)
    have here := found g List.mem_cons_self
    rw [course] at heard ⊢
    by_cases idle : ∀ n, call ≠ .attempting n
    · simp only [step_silent g.cancelled g.scopes idle, List.nil_append] at heard ⊢
      exact ih later heard
    · obtain ⟨n, rfl⟩ : ∃ n, call = .attempting n := by simpa using idle
      have entered := (step_attempt here sure g.cancelled g.scopes n).1
      simp only [entered, List.singleton_append] at heard ⊢
      cases before with
      | nil =>
        obtain ⟨answer, rest⟩ := List.cons.inj heard
        rw [step_final here sure final (entered.trans (congrArg ([·]) answer)), course_done] at rest ⊢
        exact ⟨rest.symm, rfl⟩
      | cons first before => exact ih later (List.cons.inj heard).2

end Call

/-! ## Members -/

section

variable {p : Policy} {e : Error} {s : Scene}

theorem Scene.advance_final {r : Request} (command : r.operation.isQuery = false) (under : s.Under p)
    (sure : p.chaos = none) (final : p.retry.worth e = false) {cancelled : Bool} {scopes : List Scope}
    {call : Call r.Reply}
    (heard : s.site.entered (s.advance r cancelled scopes call).2.site = [.served r (.error e)]) :
    (s.advance r cancelled scopes call).1 = .done (.error e) := by
  have found : s.site.policies.get (Policies.nameFor r.operation) = .ok p := by
    rw [Policies.nameFor, command]
    exact under
  exact Call.step_final found sure final heard

theorem Runner.step_final (under : s.Under p) (sure : p.chaos = none) (final : p.retry.worth e = false)
    {runner : Runner} {job : Job} {call : Call Unit} (stage : runner.stage = .working job call)
    (heard : s.site.entered (runner.step s).2.site =
      [.served (.resetHeartbeat job.id job.holding.worker) (.error e)]) :
    (runner.step s).1 = runner.goTo (.working job (.done (.error e))) := by
  cases call with
  | done result =>
    simp only [Runner.step, stage, Scene.setPool, Call.entered_self] at heard
    cases heard
  | _ =>
    simp only [Runner.step, stage] at heard ⊢
    rw [Scene.advance_final rfl under sure final heard]

theorem Worker.claiming_final (under : s.Under p) (sure : p.chaos = none) (final : p.retry.worth e = false)
    {w : Worker} {call : Call (Option Message)} (stage : w.stage = .claiming call)
    (heard : s.site.entered (w.step s).2.site = [.served (.tryClaim w.id s.desk.filter) (.error e)]) :
    (w.step s).1 = w.goTo (.claiming (.done (.error e))) := by
  cases call with
  | done result =>
    have silent : (w.step s).2.site.journal = s.site.journal := by
      simp only [Worker.step, stage, Worker.claimed]
      repeat' split
      all_goals rfl
    simp [Site.entered, silent] at heard
  | _ =>
    simp only [Worker.step, stage] at heard ⊢
    rw [Scene.advance_final rfl under sure final heard]

theorem Worker.recording_final (under : s.Under p) (sure : p.chaos = none) (final : p.retry.worth e = false)
    {w : Worker} {m : Message} {change : Change} {call : Call Message} (stage : w.stage = .recording m change call)
    (heard : s.site.entered (w.step s).2.site = [.served (.updateStatus m.id change m.version) (.error e)]) :
    (w.step s).1 = w.goTo (.recording m change (.done (.error e))) := by
  cases call with
  | done result =>
    have silent : (w.step s).2.site.journal = s.site.journal := by
      simp only [Worker.step, stage, Worker.recorded]
      repeat' split
      all_goals rfl
    simp [Site.entered, silent] at heard
  | _ =>
    simp only [Worker.step, stage] at heard ⊢
    rw [Scene.advance_final rfl under sure final heard]

/-- A refresh drops a claim that was called lost, and cancels the handler if the claim is still on the book. -/
theorem Refresh.step_lost {job : Job} {id : MessageId} {worker : String} {reports : List Report}
    (reported : s.desk.pool.reports = ⟨job, .error (.lostClaim id worker)⟩ :: reports) (left refreshed : Nat)
    (lost : List MessageId) :
    ((Refresh.collecting (left + 1) refreshed lost).step s).1 = .collecting left refreshed (lost ++ [job.id]) ∧
      ∀ holding, s.desk.claims.get? job.id = some holding → holding.worker = job.holding.worker →
        ((Refresh.collecting (left + 1) refreshed lost).step s).2.desk.claims = s.desk.claims.without job.id ∧
        ((Refresh.collecting (left + 1) refreshed lost).step s).2.desk.tokens.isCancelled job.holding.token = true := by
  simp only [Refresh.step, reported, Refresh.settle, true_and]
  intro holding held own
  have removed : s.desk.claims.remove job.id job.holding.worker = (some holding, s.desk.claims.without job.id) := by
    simp only [ClaimBook.remove, held, if_pos own]
  simp only [Scene.setPool, removed]
  exact ⟨rfl, (Tokens.isCancelled_cancel _ _ _).mpr (Or.inl rfl)⟩

end

/-! ## Lost races -/

namespace Policy

variable {p : Policy} {e : Error}

theorem recognizes_of_final (sure : p.chaos = none) (lost : e.isStale = true) (final : p.retry.worth e = false) :
    p.Recognizes e := by
  constructor
  · intro r gs found before after heard
    exact Call.course_final sure final found heard
  · intro runner job call s s' under stage heard
    rw [Runner.step_final under sure final stage heard]
    rfl
  · rintro id worker rfl s job reports left refreshed lost reported
    exact Refresh.step_lost reported left refreshed lost
  · intro w m change call s s' under stage heard
    rw [Worker.recording_final under sure final stage heard]
    simp only [Worker.step, Worker.goTo, Worker.recorded, lost, if_true]
    rfl
  · intro w call s s' under stage heard
    rw [Worker.claiming_final under sure final stage heard]
    simp only [Worker.step, Worker.goTo, Worker.claimed, lost, if_true]

/-- A site with the policy `p` for claims, whose backend answers the next of them with `e`. -/
def refusing (p : Policy) (e : Error) : Site where
  backend := { name := "jobs", faults := fun _ => [some { error := e }] }
  policies := Policies.empty.register Policies.command p
  clock := .manual .epoch

/-- A lost race that is worth another attempt is not the end of its call, or comes wrapped. -/
theorem final_of_recognizes (sure : p.chaos = none) (lost : e.isStale = true) (recognizes : p.Recognizes e) :
    p.retry.worth e = false := by
  refine Bool.eq_false_iff.mpr fun worth => ?_
  let r : Request := .tryClaim ⟨"worker"⟩ {}
  let g : Call.Setting := ⟨p.refusing e, false, []⟩
  have found : g.site.policies.get (Policies.nameFor r.operation) = .ok p := rfl
  obtain ⟨entered, judged⟩ := Call.step_attempt found sure g.cancelled g.scopes 0
  have heard : (Call.start.course r [g]).2 = [] ++ .served r (.error e) :: [] := (List.append_nil _).trans entered
  have ended : ((Call.attempting 0).step r g.cancelled g.scopes g.site).1 = .done (.error e) :=
    (recognizes.once r [g] (by simpa using found) [] [] heard).2
  have answer : (g.site.serveAt g.site.now r).1 = .error e := rfl
  rw [answer, ended] at judged
  by_cases retried : 0 < p.retry.count
  · simp [judge, worth, retried] at judged
  · simp only [judge, worth, retried, Bool.not_true, Bool.false_eq_true, if_false, Call.done.injEq,
      Except.error.injEq] at judged
    rw [judged] at lost
    cases lost

end Policy

/-- A policy recognizes a lost race just if its classifier does not take it for worth another
attempt, however often the policy tries. -/
theorem lost_race_recognized_iff {p : Policy} {e : Error} (sure : p.chaos = none) (lost : e.isStale = true) :
    p.Recognizes e ↔ p.retry.worth e = false :=
  ⟨Policy.final_of_recognizes sure lost, Policy.recognizes_of_final sure lost⟩

/-- The classifier that policies have by default takes no lost race. -/
theorem lost_race_recognized_by_default :
    let p : Policy := { name := Policies.command, retry := .ofWaits 3 (.ofMillis 10) (.ofMillis 20) }
    p.chaos = none ∧ (Error.lostClaim .nil "worker").isStale = true ∧ p.Recognizes (.lostClaim .nil "worker") :=
  ⟨rfl, rfl, (lost_race_recognized_iff rfl rfl).mpr rfl⟩

/-- A classifier that takes every error makes its policy miss the lost races, even if it tries once. -/
theorem lost_races_missed :
    ¬ ∀ (p : Policy) (e : Error), p.chaos = none → e.isStale = true → p.Recognizes e := by
  intro recognized
  let eager : Policy := { name := Policies.command, retry := .ofWaits 0 .zero .zero fun _ => true }
  have final : eager.retry.worth (.lostClaim .nil "worker") = false :=
    Policy.final_of_recognizes rfl rfl (recognized eager _ rfl rfl)
  cases final

end ClaimQueue
