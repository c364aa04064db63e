/-
  ClaimQueue.Proofs.Work.Phases — the life of a claim in the hands of its worker.

  Seen from outside a worker is free, has claimed a message that is not on the book yet,
  serves it (the handler is at work under its token), or the handler ended and the claim is
  still on the book. `Worker.Moves` is all that a step can do to the phase, to the book and
  to the tokens; each step serves one request at most (`Worker.step_moves`).
-/

import ClaimQueue.Proofs.Site.Calls
import ClaimQueue.Work.Worker

namespace ClaimQueue

/-- A handler does not touch the desk. -/
theorem Handling.step_desk (handler : Handling) (worker : WorkerId) (m : Message) (token : Token) (s : Scene) :
    (handler.step worker m token s).2.desk = s.desk := by
  cases handler with
  | busy plan wake =>
    simp only [Handling.step]
    split
    · rfl
    · split <;> rfl
  | _ => rfl

/-- A handler changes the journal and its script, and nothing else outside itself. -/
theorem Handling.step_leads {s : Scene} (h : s.site.Settled) (worker : WorkerId) (m : Message) (token : Token)
    (handler : Handling) : s.site.Leads none (handler.step worker m token s).2.site := by
  cases handler with
  | arriving =>
    let deed := Deed.handlerStarted worker m s.site.backend.capabilities.rollback (s.desk.tokens.isCancelled token)
    have entered : s.site.Leads none (s.site.enter deed) := h.enter rfl
    exact entered.trans (entered.settled.quiet rfl rfl rfl rfl rfl)
  | busy plan wake =>
    simp only [Handling.step]
    split
    · exact h.refl
    · split
      · exact h.refl
      · exact h.refl
  | ending how => exact h.enter rfl
  | minding plan => exact h.refl
  | done outcome => exact h.refl

inductive Phase where
  | free
  /-- The claim on `m` came back and is not registered yet. -/
  | claimed (m : Message)
  /-- The handler is at work. -/
  | serving (m : Message) (token : Token)
  /-- The handler ended, the claim is not taken off the book yet. -/
  | ended (m : Message)

/-- The message that the worker claimed and has not taken off the book. -/
def Phase.message? : Phase → Option Message
  | .free => none
  | .claimed m => some m
  | .serving m _ => some m
  | .ended m => some m

namespace Worker

def phase (w : Worker) : Phase :=
  match w.stage with
  | .claiming (.done (.ok (some m))) => .claimed m
  | .found m => .claimed m
  | .announcing m => .claimed m
  | .opening m => .claimed m
  | .handling m _ (.done _) => .ended m
  | .handling m token _ => .serving m token
  | .returned m _ => .ended m
  | _ => .free

/-- Is a handler of the worker at work, on a claim and under a token that `p` holds of? -/
def serves (w : Worker) (p : Message → Token → Bool) : Bool :=
  match w.phase with
  | .serving m token => p m token
  | _ => false

theorem serves_iff {w : Worker} {p : Message → Token → Bool} :
    w.serves p = true ↔ ∃ m token, w.phase = .serving m token ∧ p m token = true := by
  unfold serves
  cases w.phase with
  | serving m token =>
    constructor
    · exact fun holds => ⟨m, token, rfl, holds⟩
    · rintro ⟨_, _, ⟨⟩, holds⟩
      exact holds
  | _ => simp

/-- Is the worker about to record a change by `r`? -/
def records (w : Worker) (r : Request) : Prop :=
  ∃ m change call, w.stage = .recording m change call ∧ r = .updateStatus m.id change m.version

/-- What a step from `w` to `w'` does to the phase and the claims of the desk. -/
inductive Moves (w w' : Worker) (s s' : Scene) : Option Asked → Prop
  | stays : w'.phase = w.phase → s'.desk.claims = s.desk.claims → s'.desk.tokens = s.desk.tokens → Moves w w' s s' none
  | asks (r : Request) : w.phase = .free → w'.phase = .free → r.isPlain = true → s'.desk.claims = s.desk.claims →
      s'.desk.tokens = s.desk.tokens → (r.isOutcome = true → w.records r) → Moves w w' s s' (some (s.site.now, r))
  | claims (m : Message) : w.phase = .free → w'.phase = .claimed m →
      (s.site.store.tryClaim w.id s.desk.filter s.site.now).1 = some m → s'.desk.claims = s.desk.claims →
      s'.desk.tokens = s.desk.tokens → Moves w w' s s' (some (s.site.now, .tryClaim w.id s.desk.filter))
  | opens (m : Message) : w.phase = .claimed m → w'.phase = .serving m s.desk.tokens.issue.1 →
      s'.desk.claims = s.desk.claims.register m.id ⟨w.id, s.desk.tokens.issue.1⟩ →
      s'.desk.tokens = s.desk.tokens.issue.2 → Moves w w' s s' none
  | ends (m : Message) (token : Token) : w.phase = .serving m token → w'.phase = .ended m →
      s'.desk.claims = s.desk.claims → s'.desk.tokens = s.desk.tokens → Moves w w' s s' none
  | closes (m : Message) : w.phase = .ended m → w'.phase = .free →
      s'.desk.claims = (s.desk.claims.remove m.id w.id).2 → s'.desk.tokens = s.desk.tokens → Moves w w' s s' none

/-- A step of a worker: what changed, and what it kept. -/
structure Step (w w' : Worker) (s s' : Scene) (asked : Option Asked) : Prop where
  moves : Moves w w' s s' asked
  site : s.site.Leads asked s'.site
  id : w'.id = w.id
  config : s'.desk.config = s.desk.config
  filter : s'.desk.filter = s.desk.filter
  pool : s'.desk.pool = s.desk.pool

variable {w w' : Worker} {s s' : Scene}

/-- A worker claims under its own name alone. -/
theorem Step.spares {asked : Option Asked} (step : Step w w' s s' asked) {worker : WorkerId} (other : w.id ≠ worker) :
    asked.all (·.2.spares worker) = true := by
  cases step.moves with
  | asks r _ _ plain => exact Request.spares_of_plain plain worker
  | claims m => simpa [Request.spares] using other
  | _ => rfl

/-- A step that changes neither the phase nor the claims. -/
theorem Step.still (phase : w'.phase = w.phase) (id : w'.id = w.id) (site : s.site.Leads none s'.site)
    (desk : s'.desk = { s.desk with bench := s'.desk.bench }) : Step w w' s s' none where
  moves := .stays phase (by rw [desk]) (by rw [desk])
  site := site
  id := id
  config := by rw [desk]
  filter := by rw [desk]
  pool := by rw [desk]

theorem phase_handling (w : Worker) (m : Message) (token : Token) (handler : Handling) :
    (w.goTo (.handling m token handler)).phase = .serving m token ∨
      (w.goTo (.handling m token handler)).phase = .ended m := by
  cases handler with
  | done outcome => exact Or.inr rfl
  | _ => exact Or.inl rfl

/-- A step of a call that changes the phase in no case. -/
theorem step_call (h : s.site.Settled) (w : Worker) (r : Request) (plain : r.isPlain = true)
    (command : r.operation.isQuery = false) (scopes : List Scope) (call : Call r.Reply) (undone : call.result? = none)
    (stage : Call r.Reply → Stage) (free : w.phase = .free) (free' : ∀ call, (w.goTo (stage call)).phase = .free)
    (records : r.isOutcome = true → w.records r) :
    ∃ asked, Step w (w.goTo (stage (s.advance r false scopes call).1)) s (s.advance r false scopes call).2 asked := by
  have same : (w.goTo (stage (s.advance r false scopes call).1)).phase = w.phase := (free' _).trans free.symm
  cases Call.step_goes h command false scopes undone with
  | waits _ leads => exact ⟨_, Step.still same rfl leads rfl⟩
  | quits e cancelled => cases cancelled
  | answers _ leads => exact ⟨_, .asks r free (free' _) plain rfl rfl records, leads, rfl, rfl, rfl, rfl⟩

/-- A step of a claim. -/
theorem step_claim (h : s.site.Settled) (w : Worker) (call : Call (Option Message)) (undone : call.result? = none)
    (free : w.phase = .free) :
    ∃ asked, Step w
      (w.goTo (.claiming (s.advance (.tryClaim w.id s.desk.filter) s.desk.tokens.shutdown [] call).1)) s
      (s.advance (.tryClaim w.id s.desk.filter) s.desk.tokens.shutdown [] call).2 asked := by
  let r : Request := .tryClaim w.id s.desk.filter
  have goes := Call.step_goes (r := r) h rfl s.desk.tokens.shutdown [] undone
  show ∃ asked, Step w (w.goTo (.claiming (call.step r s.desk.tokens.shutdown [] s.site).1)) s
    { s with site := (call.step r s.desk.tokens.shutdown [] s.site).2 } asked
  generalize call.step r s.desk.tokens.shutdown [] s.site = stepped at goes
  obtain ⟨call', site⟩ := stepped
  cases goes with
  | waits undone' leads =>
    cases call' with
    | done result => cases undone'
    | _ => exact ⟨_, Step.still free.symm rfl leads rfl⟩
  | quits e _ ended leads =>
    cases ended
    exact ⟨_, Step.still free.symm rfl leads rfl⟩
  | answers ended leads =>
    cases ended
    cases claimed : (s.site.store.tryClaim w.id s.desk.filter s.site.now).1 with
    | some m =>
      refine ⟨_, .claims m free ?_ claimed rfl rfl, leads, rfl, rfl, rfl, rfl⟩
      simp [goTo, phase, r, Store.serve, claimed]
    | none =>
      -- nothing was claimed, and the store is as before
      have store : site.store = s.site.store := leads.store.trans (Store.tryClaim_none claimed)
      have leads' : s.site.Leads none site :=
        ⟨⟨store, leads.answers, leads.capabilities⟩, leads.settled, leads.clock, leads.time⟩
      refine ⟨none, Step.still ?_ rfl leads' rfl⟩
      rw [free]
      simp [goTo, phase, r, Store.serve, claimed]

/-- A step of a handler that did not end yet. -/
theorem step_handler (h : s.site.Settled) (w : Worker) (m : Message) (token : Token) (handler : Handling)
    (serving : w.phase = .serving m token) :
    ∃ asked, Step w (w.goTo (.handling m token (handler.step w.id m token s).1)) s (handler.step w.id m token s).2
      asked := by
  have leads := handler.step_leads h w.id m token
  have desk := handler.step_desk w.id m token s
  rcases w.phase_handling m token (handler.step w.id m token s).1 with still | ended
  · refine ⟨_, .still (still.trans serving.symm) rfl leads ?_⟩
    rw [desk]
  · refine ⟨_, .ends m token serving ended ?_ ?_, leads, rfl, ?_, ?_, ?_⟩
    all_goals rw [desk]

theorem step_moves (h : s.site.Settled) (w : Worker) : ∃ asked, Step w (w.step s).1 s (w.step s).2 asked := by
  obtain ⟨index, id, idle, emptyStreak, fatalStreak, stage⟩ := w
  let w : Stage → Worker := fun stage => ⟨index, id, idle, emptyStreak, fatalStreak, stage⟩
  cases stage with
  | starting => exact ⟨_, .still rfl rfl (h.note _ _) rfl⟩
  | looking =>
    simp only [step]
    repeat' split
    all_goals exact ⟨_, .still rfl rfl h.refl rfl⟩
  | enabling => exact ⟨_, .still rfl rfl h.refl rfl⟩
  | checking ticket =>
    simp only [step]
    split
    · exact ⟨_, .still rfl rfl (h.note _ _) rfl⟩
    · exact ⟨_, .still rfl rfl h.refl rfl⟩
  | parked ticket =>
    simp only [step]
    repeat' split
    all_goals exact ⟨_, .still rfl rfl h.refl rfl⟩
  | claiming call =>
    cases call with
    | done result =>
      cases result with
      | ok m => cases m <;> exact ⟨_, .still rfl rfl h.refl rfl⟩
      | error e =>
        simp only [step, claimed]
        split
        · exact ⟨_, .still rfl rfl (h.note _ _) rfl⟩
        · exact ⟨_, .still rfl rfl (h.note _ _) rfl⟩
    | attempting n => exact step_claim h (w (.claiming (.attempting n))) (.attempting n) rfl rfl
    | waiting n e wake => exact step_claim h (w (.claiming (.waiting n e wake))) (.waiting n e wake) rfl rfl
  | found m =>
    simp only [step]
    split
    · exact ⟨_, .still rfl rfl h.refl rfl⟩
    · exact ⟨_, .still rfl rfl h.refl rfl⟩
  | announcing m => exact ⟨_, .still rfl rfl h.refl rfl⟩
  | opening m => exact ⟨_, .opens m rfl rfl rfl rfl, h.note _ _, rfl, rfl, rfl, rfl⟩
  | handling m token handler =>
    cases handler with
    | done outcome => exact ⟨_, .still rfl rfl h.refl rfl⟩
    | arriving => exact step_handler h (w (.handling m token .arriving)) m token .arriving rfl
    | minding plan => exact step_handler h (w (.handling m token (.minding plan))) m token (.minding plan) rfl
    | busy plan wake => exact step_handler h (w (.handling m token (.busy plan wake))) m token (.busy plan wake) rfl
    | ending how => exact step_handler h (w (.handling m token (.ending how))) m token (.ending how) rfl
  | returned m outcome => exact ⟨_, .closes m rfl rfl rfl rfl, h.refl, rfl, rfl, rfl, rfl⟩
  | settling m outcome =>
    simp only [step]
    split
    · split
      · exact ⟨_, .still rfl rfl (h.note _ _) rfl⟩
      · exact ⟨_, .still rfl rfl h.refl rfl⟩
    · split
      · exact ⟨_, .still rfl rfl (h.note _ _) rfl⟩
      · exact ⟨_, .still rfl rfl h.refl rfl⟩
  | recording m change call =>
    cases call with
    | done result =>
      cases result with
      | ok updated =>
        simp only [step, recorded]
        split
        · exact ⟨_, .still rfl rfl (h.note _ _) rfl⟩
        · exact ⟨_, .still rfl rfl (h.note _ _) rfl⟩
      | error e => exact ⟨_, .still rfl rfl (h.note _ _) rfl⟩
    | attempting n =>
      exact step_call h (w (.recording m change (.attempting n))) (.updateStatus m.id change m.version) rfl rfl _
        (.attempting n) rfl (.recording m change) rfl (fun _ => rfl) fun _ => ⟨m, change, _, rfl, rfl⟩
    | waiting n e wake =>
      exact step_call h (w (.recording m change (.waiting n e wake))) (.updateStatus m.id change m.version) rfl rfl []
        (.waiting n e wake) rfl (.recording m change) rfl (fun _ => rfl) fun _ => ⟨m, change, _, rfl, rfl⟩
  | purging m change call =>
    cases call with
    | done result =>
      cases result with
      | ok found => exact ⟨_, .still rfl rfl h.refl rfl⟩
      | error e => exact ⟨_, .still rfl rfl (h.note _ _) rfl⟩
    | attempting n =>
      exact step_call h (w (.purging m change (.attempting n))) (.delete m.id) rfl rfl _ (.attempting n) rfl
        (.purging m change) rfl (fun _ => rfl) nofun
    | waiting n e wake =>
      exact step_call h (w (.purging m change (.waiting n e wake))) (.delete m.id) rfl rfl [] (.waiting n e wake) rfl
        (.purging m change) rfl (fun _ => rfl) nofun
  | emptyHanded =>
    simp only [step]
    split
    · exact ⟨_, .still rfl rfl h.refl rfl⟩
    · exact ⟨_, .still rfl rfl h.refl rfl⟩
  | pausing wake =>
    simp only [step]
    repeat' split
    all_goals exact ⟨_, .still rfl rfl h.refl rfl⟩
  | leaving =>
    simp only [step]
    split
    · exact ⟨_, .still rfl rfl (h.note _ _) rfl⟩
    · exact ⟨_, .still rfl rfl (h.note _ _) rfl⟩
  | stopped => exact ⟨_, .still rfl rfl h.refl rfl⟩

end Worker

end ClaimQueue
