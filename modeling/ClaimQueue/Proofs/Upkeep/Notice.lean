/-
  ClaimQueue.Proofs.Upkeep.Notice — who learns in a pass that its claim is lost.

  A pass that nobody interrupts begins with the claims on the book as its jobs. Each of them
  is unsent, waiting or answered until its report is looked at; then the claim is held, or
  its entry is dropped and the handler cancelled. What the scan takes back after that is
  revoked before the pass is over. So a handler whose own entry is on the book when the pass
  begins learns of the loss (`Engine.Reached.notified`).

  A handler without an entry learns nothing. The book has one entry per message: if a second
  worker of the crew claims a message that the first one lost, its entry replaces that of the
  first, whose handler stays in the dark (`overwritten_claim_unnoticed`).
-/

import ClaimQueue.Proofs.Crew.Accounts

namespace ClaimQueue

/-- The claims still to be revoked. -/
def Tending.rest : Tending → List MessageId
  | .revoking rest => rest
  | _ => []

namespace Crew

/-- The pass has not come to an end with the job. -/
inductive Pending (c : Crew) (job : Job) : Prop
  | beginning : c.tending = .beginning → Pending c job
  | unsent : job ∈ c.tending.unsent → Pending c job
  | waiting : job ∈ c.waiting → Pending c job
  | lost (r : Report) : r ∈ c.answered → r.isLost = true → r.job = job → Pending c job
  | revoking : job.id ∈ c.tending.rest → Pending c job

/-- The handler of the claim is cancelled, or the claim is on the book and either held or
the pass will come to it. -/
inductive Tracked (c : Crew) (s : Site) (job : Job) : Prop
  | cancelled : c.desk.tokens.isCancelled job.holding.token = true → Tracked c s job
  | listed : (job.id, job.holding) ∈ c.desk.claims.entries → (∀ j ∈ c.jobs, j.id = job.id → j = job) →
      (s.store.held job.id job.holding.worker = true ∨ c.Pending job) → Tracked c s job

variable {c c' : Crew} {s s' : Site} {asked : Option Asked} {job : Job}

/-- Where no job is under way and no claim to be revoked, the pass has come to an end with
every job. -/
theorem Balanced.not_pending (balanced : c.Balanced) (none : c.tending.due = 0) (begun : c.tending ≠ .beginning)
    (rest : c.tending.rest = []) : ¬c.Pending job := by
  have nil := balanced.no_jobs none
  have absent : job ∉ c.jobs := by
    rw [nil]
    exact List.not_mem_nil
  rw [mem_jobs] at absent
  rintro (beginning | unsent | waiting | ⟨r, answered, _, same⟩ | revoking)
  · exact begun beginning
  · exact absent (Or.inl unsent)
  · exact absent (Or.inr (Or.inl waiting))
  · exact absent (Or.inr (Or.inr ⟨r, answered, same⟩))
  · rw [rest] at revoking
    cases revoking

/-- Nobody but a reclaim takes a claim away in a pass. -/
theorem Tends.held (tends : Tends c c' s asked) (distinct : s.store.Distinct) {id : MessageId} {worker : WorkerId}
    (held : s.store.held id worker = true) :
    (s.store.after asked).held id worker = true ∨ id ∈ c'.tending.rest := by
  cases tends with
  | serves job =>
    refine Or.inl ?_
    show (s.store.resetHeartbeat job.id job.holding.worker s.now).2.held id worker = true
    rw [Store.held_resetHeartbeat]
    exact held
  | scans ids before after scanned =>
    rcases Store.held_reclaimDead distinct s.now c.desk.config.heartbeat.time c.desk.config.heartbeat.lookback held
      with taken | held
    · refine Or.inr ?_
      rw [after, ← scanned]
      exact taken
    · exact Or.inl held
  | _ => exact Or.inl held

theorem pending_refreshing {unsent : List Job} {due : Nat} (refreshing : c.tending = .refreshing unsent due) :
    c.Pending job ↔ job ∈ unsent ∨ job ∈ c.waiting ∨ ∃ r ∈ c.answered, r.isLost = true ∧ r.job = job := by
  constructor
  · rintro (beginning | unsent | waiting | ⟨r, answered, lost, same⟩ | revoking)
    · rw [refreshing] at beginning
      cases beginning
    · rw [refreshing] at unsent
      exact Or.inl unsent
    · exact Or.inr (Or.inl waiting)
    · exact Or.inr (Or.inr ⟨r, answered, lost, same⟩)
    · rw [refreshing] at revoking
      cases revoking
  · rintro (unsent | waiting | ⟨r, answered, lost, same⟩)
    · exact .unsent (by rw [refreshing]; exact unsent)
    · exact .waiting waiting
    · exact .lost r answered lost same

/-- While its entry stands, the pass will come to the job, or the store just said that the
claim is held. -/
theorem Pending.tends (pending : c.Pending job) (keyed : c.desk.claims.Keyed)
    (entry : (job.id, job.holding) ∈ c.desk.claims.entries) (balanced : c.Balanced) (busy : c.tending ≠ .idle)
    (tends : Tends c c' s asked) (entry' : (job.id, job.holding) ∈ c'.desk.claims.entries) :
    (s.store.after asked).held job.id job.holding.worker = true ∨ c'.Pending job := by
  cases tends with
  | stays same jobs =>
    refine Or.inr ?_
    rcases pending with beginning | unsent | waiting | ⟨r, answered, lost, own⟩ | revoking
    · exact .beginning (same.trans beginning)
    · exact .unsent (same ▸ unsent)
    · exact .waiting (jobs.waiting.mem_iff.mpr waiting)
    · exact .lost r (jobs.answered.mem_iff.mpr answered) lost own
    · exact .revoking (same ▸ revoking)
  | turns turned =>
    refine absurd pending ?_
    rcases turned with ⟨before, _⟩ | ⟨before | before, _⟩
    · exact absurd before busy
    · exact balanced.not_pending (by rw [before]; rfl) (by rw [before]; nofun) (by rw [before]; rfl)
    · exact balanced.not_pending (by rw [before]; rfl) (by rw [before]; nofun) (by rw [before]; rfl)
  | takes before after =>
    have listed : job ∈ c.desk.claims.jobs := ClaimBook.mem_jobs.mpr entry
    have some : c.desk.claims.jobs.isEmpty = false := List.isEmpty_eq_false_iff_exists_mem.mpr ⟨job, listed⟩
    rw [some] at after
    exact Or.inr ((pending_refreshing after).mpr (Or.inl listed))
  | sends sent rest due before after waiting answered =>
    rw [pending_refreshing before] at pending
    refine Or.inr ((pending_refreshing after).mpr ?_)
    rcases pending with unsent | waits | ⟨r, reported, lost, own⟩
    · rcases List.mem_cons.mp unsent with rfl | unsent
      · exact Or.inr (Or.inl (waiting.mem_iff.mpr List.mem_cons_self))
      · exact Or.inl unsent
    · exact Or.inr (Or.inl (waiting.mem_iff.mpr (List.mem_cons_of_mem _ waits)))
    · exact Or.inr (Or.inr ⟨r, answered.mem_iff.mpr reported, lost, own⟩)
  | serves served same waiting answered =>
    rcases pending with beginning | unsent | waits | ⟨r, reported, lost, own⟩ | revoking
    · exact Or.inr (.beginning (same.trans beginning))
    · exact Or.inr (.unsent (same ▸ unsent))
    · rcases List.mem_cons.mp (waiting.mem_iff.mp waits) with rfl | waits
      · -- the store is asked about this very job
        cases held : s.store.held job.id job.holding.worker with
        | true => exact Or.inl ((Store.held_resetHeartbeat ..).trans held)
        | false =>
          refine Or.inr (.lost _ (answered.mem_iff.mpr List.mem_cons_self) ?_ rfl)
          rw [Report.isLost_reply, held]
          rfl
      · exact Or.inr (.waiting waits)
    · exact Or.inr (.lost r (answered.mem_iff.mpr (List.mem_cons_of_mem _ reported)) lost own)
    · exact Or.inr (.revoking (same ▸ revoking))
  | looks report left before after kept waiting answered =>
    rw [pending_refreshing before] at pending
    refine Or.inr ((pending_refreshing after).mpr ?_)
    rcases pending with unsent | waits | ⟨r, reported, lost, own⟩
    · cases unsent
    · exact Or.inr (Or.inl (waiting.mem_iff.mpr waits))
    · rcases List.mem_cons.mp (answered.mem_iff.mp reported) with rfl | reported
      · rw [kept] at lost
        cases lost
      · exact Or.inr (Or.inr ⟨r, reported, lost, own⟩)
  | drops report left before after _ waiting answered claims =>
    rw [pending_refreshing before] at pending
    refine Or.inr ((pending_refreshing after).mpr ?_)
    rcases pending with unsent | waits | ⟨r, reported, lost, own⟩
    · cases unsent
    · exact Or.inr (Or.inl (waiting.mem_iff.mpr waits))
    · rcases List.mem_cons.mp (answered.mem_iff.mp reported) with rfl | reported
      · rw [claims, own] at entry'
        exact absurd entry' (keyed.not_mem_remove rfl)
      · exact Or.inr (Or.inr ⟨r, reported, lost, own⟩)
  | completes before =>
    exact absurd pending (balanced.not_pending (by rw [before]; rfl) (by rw [before]; nofun) (by rw [before]; rfl))
  | scans ids before =>
    exact absurd pending (balanced.not_pending (by rw [before]; rfl) (by rw [before]; nofun) (by rw [before]; rfl))
  | revokes id rest before after jobs claims =>
    refine Or.inr ?_
    rcases pending with beginning | unsent | waits | ⟨r, reported, lost, own⟩ | revoking
    · rw [before] at beginning
      cases beginning
    · rw [before] at unsent
      cases unsent
    · exact .waiting (jobs.waiting.mem_iff.mpr waits)
    · exact .lost r (jobs.answered.mem_iff.mpr reported) lost own
    · rw [before] at revoking
      rcases List.mem_cons.mp revoking with same | revoking
      · rw [claims, same] at entry'
        exact absurd entry' keyed.not_mem_revoke
      · exact .revoking (by rw [after]; exact revoking)

/-- The entry of the job stands, or its handler was cancelled. -/
theorem Tends.listed (tends : Tends c c' s asked) (keyed : c.desk.claims.Keyed)
    (entry : (job.id, job.holding) ∈ c.desk.claims.entries) (only : ∀ j ∈ c.jobs, j.id = job.id → j = job) :
    c'.desk.tokens.isCancelled job.holding.token = true ∨ (job.id, job.holding) ∈ c'.desk.claims.entries := by
  rcases tends.book with ⟨claims, _⟩ | ⟨r, reported, _, claims, tokens⟩ | ⟨id, _, _, _, claims, tokens⟩
  · exact Or.inr (claims ▸ entry)
  · by_cases same : r.job.id = job.id
    · have own : r.job = job := only r.job (mem_jobs.mpr (Or.inr (Or.inr ⟨r, reported, rfl⟩))) same
      rw [own, keyed.removed entry] at tokens
      rw [tokens]
      exact Or.inl ((Tokens.isCancelled_cancel _ _ _).mpr (Or.inl rfl))
    · exact Or.inr (claims ▸ ClaimBook.mem_remove_of_ne entry (Ne.symm same))
  · by_cases same : id = job.id
    · rw [same, keyed.revoked entry] at tokens
      rw [tokens]
      exact Or.inl ((Tokens.isCancelled_cancel _ _ _).mpr (Or.inl rfl))
    · exact Or.inr (claims ▸ ClaimBook.mem_revoke_of_ne entry (Ne.symm same))

theorem Tracked.tends (tracked : c.Tracked s job) (keyed : c.desk.claims.Keyed) (balanced : c.Balanced)
    (distinct : s.store.Distinct) (busy : c.tending ≠ .idle) (store : s'.store = s.store.after asked)
    (tends : Tends c c' s asked) : c'.Tracked s' job := by
  cases tracked with
  | cancelled cancelled => exact .cancelled (tends.tokens.2 _ cancelled)
  | listed entry only state =>
    rcases tends.listed keyed entry only with cancelled | entry'
    · exact .cancelled cancelled
    · refine .listed entry' (fun j mem same => ?_) ?_
      · rcases tends.jobs j mem with old | new
        · exact only j old same
        · have found := keyed.get?_of_mem (ClaimBook.mem_jobs.mp new)
          rw [same, keyed.get?_of_mem entry] at found
          obtain ⟨id, holding⟩ := j
          cases same
          cases found
          rfl
      · rw [store]
        rcases state with held | pending
        · rcases tends.held distinct held with held | taken
          · exact Or.inl held
          · exact Or.inr (.revoking taken)
        · exact pending.tends keyed entry balanced busy tends entry'

end Crew

namespace Engine

/-- Is the act a step of a pass of crew `i`, or a wait in it? -/
def inPass (e : Engine) (i : Nat) : Happening → Bool
  | .move t => t.crew == i && (e.crew i).isPulse t.member
  | .wait _ _ => true
  | _ => false

/-- Are these acts what is left of a pass of crew `i`, and nothing else? -/
def isPass (e : Engine) (i : Nat) : List Happening → Bool
  | [] => (e.crew i).tending == .idle
  | a :: as => (e.crew i).tending != .idle && e.inPass i a && (e.act a).isPass i as

/-- A whole pass of crew `i` that nobody interrupts. -/
structure Pass (e : Engine) (i : Nat) (as : List Happening) : Prop where
  begins : (e.crew i).tending = .beginning
  alone : e.isPass i as = true

variable {e : Engine} {i : Nat} {job : Job}

/-- An act of a pass is a step of the pass. -/
theorem Reached.tends (reached : e.Reached) {a : Happening} (busy : (e.crew i).tending ≠ .idle)
    (passing : e.inPass i a = true) :
    (e.act a).Reached ∧
      ∃ asked, (e.act a).store = e.store.after asked ∧ Crew.Tends (e.crew i) ((e.act a).crew i) e.site asked := by
  cases a with
  | move t =>
    obtain ⟨crew, m⟩ := t
    obtain ⟨own, pulse⟩ := Bool.and_eq_true_iff.mp passing
    obtain rfl : crew = i := eq_of_beq own
    have found := crew_of_busy busy
    obtain ⟨asked, step, tends⟩ :=
      Crew.step_tends reached.sound.settled (reached.sound.staffed _ (List.mem_of_getElem? found)) pulse busy
    rw [crew_move found, store, site_move found]
    exact ⟨.act e _ reached rfl, asked, step.site.store, tends⟩
  | wait clock time =>
    exact ⟨.act e _ reached rfl, none, rfl, .stays rfl ⟨.refl _, .refl _⟩ ⟨rfl, rfl⟩⟩
  | request | join | dismiss => cases passing

/-- The rest of a pass. -/
theorem Reached.tracked {as : List Happening} (reached : e.Reached) (alone : e.isPass i as = true)
    (tracked : (e.crew i).Tracked e.site job) :
    (e.acts as).Reached ∧ ((e.acts as).crew i).Tracked (e.acts as).site job ∧
      ((e.acts as).crew i).tending = .idle := by
  induction as generalizing e with
  | nil => exact ⟨reached, tracked, eq_of_beq alone⟩
  | cons a as ih =>
    simp only [isPass, Bool.and_eq_true, bne_iff_ne] at alone
    obtain ⟨⟨busy, passing⟩, rest⟩ := alone
    obtain ⟨reached', asked, store, tends⟩ := reached.tends busy passing
    have mem := List.mem_of_getElem? (crew_of_busy busy)
    exact ih reached' rest (tracked.tends (reached.kept _ mem).keyed (reached.balanced _ mem) reached.sound.distinct
      busy store tends)

/-- After a pass that nobody interrupts every handler whose own entry was on the book when
the pass began is cancelled, or its claim stands. -/
theorem Reached.notified {as : List Happening} (reached : e.Reached) (pass : e.Pass i as) {w : Worker}
    (mem : w ∈ ((e.acts as).crew i).workers) {m : Message} {token : Token} (serving : w.phase = .serving m token)
    (entry : (m.id, ⟨w.id, token⟩) ∈ (e.crew i).desk.claims.entries) :
    (e.acts as).store.stands m = true ∨ ((e.acts as).crew i).desk.tokens.isCancelled token = true := by
  obtain ⟨begins, alone⟩ := pass
  have busy : (e.crew i).tending ≠ .idle := by
    rw [begins]
    nofun
  have balanced := reached.balanced _ (List.mem_of_getElem? (crew_of_busy busy))
  -- when the pass begins it has no jobs of the pass before
  have none : (e.crew i).jobs = [] := balanced.no_jobs (by rw [begins]; rfl)
  have tracked : (e.crew i).Tracked e.site ⟨m.id, ⟨w.id, token⟩⟩ := by
    refine .listed entry (fun j mem => ?_) (Or.inr (.beginning begins))
    rw [none] at mem
    cases mem
  obtain ⟨reached', tracked', idle⟩ := reached.tracked alone tracked
  cases tracked' with
  | cancelled cancelled => exact Or.inr cancelled
  | listed _ _ state =>
    have found : (e.acts as).crews[i]? = some ((e.acts as).crew i) := crew_of_worker mem
    have mem' := List.mem_of_getElem? found
    rcases state with held | pending
    · exact Or.inl ((reached'.owned _ mem' w mem m (by rw [serving]; rfl)).stands held)
    · exact absurd pending ((reached'.balanced _ mem').not_pending (by rw [idle]; rfl) (by rw [idle]; nofun)
        (by rw [idle]; rfl))

end Engine

/-! ## An entry that is overwritten -/

namespace Overwritten

open Happening (moves)
open Engine (patient)

def second : Instant := (Instant.ofMillis? 1000).getD .epoch

/-- The first worker serves the message, and somebody else takes it back after a second. -/
def taken : List Happening :=
  [.join {} {} [⟨"first"⟩, ⟨"second"⟩] [.heartbeat], .request .epoch (.enqueue (.blank .nil))] ++ moves (.worker 0) 7 ++
    moves (.monitor 0) 1 ++ [.wait (.manual second) 1000, .request second (.reclaimDead (.ofMillis 1) none)]

/-- The next pass begins. -/
def next : List Happening := [.wait (.manual second) 150000] ++ moves (.monitor 0) 1

/-- Then the second worker serves it. -/
def claimed : List Happening := taken ++ moves (.worker 1) 7

/-- A pass over one entry. -/
def pass : List Happening := moves (.monitor 0) 9 ++ moves (.runner 0) 7 ++ moves (.monitor 0) 5

theorem reached : ∀ as ∈ [taken ++ next, claimed ++ next], (patient.acts as).Reached := by
  have allowed : ∀ as ∈ [taken ++ next, claimed ++ next], patient.allowsAll as = true := by decide +kernel
  exact fun as mem => (Engine.Reached.blank _ _).acts (allowed as mem)

theorem passes : ∀ as ∈ [taken ++ next, claimed ++ next], (patient.acts as).Pass 0 pass := by
  have begins : ∀ as ∈ [taken ++ next, claimed ++ next], ((patient.acts as).crew 0).tending = .beginning := by
    decide +kernel
  have alone : ∀ as ∈ [taken ++ next, claimed ++ next], (patient.acts as).isPass 0 pass = true := by decide +kernel
  exact fun as mem => ⟨begins as mem, alone as mem⟩

end Overwritten

/-- The first worker alone is told that its claim is lost. -/
theorem notified_taken :
    let e := Engine.patient.acts (Overwritten.taken ++ Overwritten.next)
    e.Reached ∧ e.Pass 0 Overwritten.pass ∧
      ∃ w ∈ ((e.acts Overwritten.pass).crew 0).workers, ∃ m token, w.phase = .serving m token ∧
        (m.id, ⟨w.id, token⟩) ∈ (e.crew 0).desk.claims.entries ∧
        ((e.acts Overwritten.pass).crew 0).desk.tokens.isCancelled token = true := by
  intro e
  have reached : e.Reached := Overwritten.reached _ (by simp)
  have pass : e.Pass 0 Overwritten.pass := Overwritten.passes _ (by simp)
  have lost : ((e.acts Overwritten.pass).crew 0).workers.any (fun w => w.serves fun m token =>
      !(e.acts Overwritten.pass).store.stands m &&
        (e.crew 0).desk.claims.entries.contains (m.id, ⟨w.id, token⟩)) = true := by
    decide +kernel
  obtain ⟨w, mem, serves⟩ := List.any_eq_true.mp lost
  obtain ⟨m, token, serving, facts⟩ := Worker.serves_iff.mp serves
  obtain ⟨fallen, listed⟩ := Bool.and_eq_true_iff.mp facts
  have entry := List.contains_iff_mem.mp listed
  refine ⟨reached, pass, w, mem, m, token, serving, entry, ?_⟩
  rcases reached.notified pass mem serving entry with stands | cancelled
  · rw [stands] at fallen
    cases fallen
  · exact cancelled

/-- Where the second worker serves the message by then, its entry took the place of the
first one's, and the pass tells neither. -/
theorem overwritten_claim_unnoticed :
    ¬ ∀ (e : Engine) (i : Nat) (as : List Happening), e.Reached → e.Pass i as →
      ∀ w ∈ ((e.acts as).crew i).workers, ∀ m token, w.phase = .serving m token →
        (e.acts as).store.stands m = true ∨ ((e.acts as).crew i).desk.tokens.isCancelled token = true := by
  intro told
  let e := Engine.patient.acts (Overwritten.claimed ++ Overwritten.next)
  have lost : ((e.acts Overwritten.pass).crew 0).workers.any (fun w => w.serves fun m token =>
      !(e.acts Overwritten.pass).store.stands m &&
        !((e.acts Overwritten.pass).crew 0).desk.tokens.isCancelled token) = true := by
    decide +kernel
  obtain ⟨w, mem, serves⟩ := List.any_eq_true.mp lost
  obtain ⟨m, token, serving, facts⟩ := Worker.serves_iff.mp serves
  have told := told e 0 Overwritten.pass (Overwritten.reached _ (by simp)) (Overwritten.passes _ (by simp)) w mem m
    token serving
  rcases told with stands | cancelled
  · simp [stands] at facts
  · simp [cancelled] at facts

end ClaimQueue
