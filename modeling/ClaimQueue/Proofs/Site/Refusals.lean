/-
  ClaimQueue.Proofs.Site.Refusals — requests to a database that refuses connections.

  A request first checks its arguments, then asks for a connection. While the database refuses
  (`Site.Down`) a request comes back with the same error each time, and the store stays as it
  is. A policy that tries again just what is transient makes of that either one call with the
  bare error, or all the attempts it has, with the error wrapped at the end (`Site.GivesUp`,
  `Down.gives_up`), whatever faults it makes up in between.

  Which of the two it is depends on the fault, but for two requests. Creating the tables reports
  any fault as one of the migration, and those are never transient (`refusals_classified`). The
  scan for dead claims is refused for its arguments alone if its dead-time leads before the first
  instant, where a store without a database finds no claim with a heartbeat dead
  (`dead_time_exact`).
-/

import ClaimQueue.Config.Queue
import ClaimQueue.Proofs.Site.Asking
import ClaimQueue.Proofs.Store.Overdue

namespace ClaimQueue

/-! ## Attempts that all fail alike -/

namespace Policy

variable {σ α : Type} {p : Policy} {op : σ → Except Error α × σ} {n : UInt32} {s : σ} {trials : List (Trial α)}
  {x : Execution σ α} {e : Error}

section Failing

variable {I : Nat → σ → Prop} {k : Nat} (fails : ∀ k s, I k s → (op s).1 = .error e ∧ I (k + 1) (op s).2)

include fails

/-- If every call fails with `e` and counts as one more, an attempt is such a call or a made-up fault. -/
theorem Tries.failing {s' : σ} {trial : Trial α} (tries : p.Tries op n s trial s') (start : I k s) :
    (trial = .struck ∧ ¬p.Calm ∨ trial = .called (.error e)) ∧ I (k + if trial.isCall then 1 else 0) s' := by
  cases tries with
  | struck throw hit =>
    refine ⟨Or.inl ⟨rfl, fun calm => ?_⟩, start⟩
    rw [calm n throw] at hit
    cases hit
  | called throw _ =>
    obtain ⟨failed, more⟩ := fails k s start
    exact ⟨Or.inr (by rw [failed]), more⟩

theorem Runs.failing (run : p.Runs op n s trials x) (start : I k s) :
    (∀ trial ∈ trials, trial = .struck ∧ ¬p.Calm ∨ trial = .called (.error e)) ∧
      I (k + trials.countP (·.isCall)) x.state := by
  induction run generalizing k with
  | last tries _ =>
    obtain ⟨made, more⟩ := tries.failing fails start
    refine ⟨List.forall_mem_singleton.mpr made, ?_⟩
    rw [List.countP_singleton]
    exact more
  | again tries _ _ ih =>
    obtain ⟨made, more⟩ := tries.failing fails start
    obtain ⟨rest, all⟩ := ih more
    refine ⟨List.forall_mem_cons.mpr ⟨made, rest⟩, ?_⟩
    rw [List.countP_cons, Nat.add_comm (List.countP _ _), ← Nat.add_assoc]
    exact all

end Failing

section Ends

variable {init : List (Trial α)} {last : Trial α} (course : p.Course 0 init last x)
  (made : ∀ trial ∈ init ++ [last], trial = .struck ∧ ¬p.Calm ∨ trial = .called (.error e))
  (worth : p.retry.worth = Error.isTransient)

include worth

theorem settles_transient (e : Error) : p.settles (.error e : Except Error α) = !e.isTransient := by
  rw [settles, worth]

include course made

/-- An error that is not transient ends the attempts at the first call. -/
theorem Course.bare (final : e.isTransient = false) :
    x.result = .error e ∧ (init ++ [last]).countP (·.isCall) = 1 := by
  have settled : p.settles (.error e : Except Error α) = true := by
    rw [settles_transient worth, final]
    rfl
  have struck : init.countP (·.isCall) = 0 := by
    refine List.countP_eq_zero.mpr fun trial mem => ?_
    rcases made trial (List.mem_append_left _ mem) with ⟨rfl, _⟩ | rfl
    · exact Bool.false_ne_true
    · have retried := course.retried _ mem
      exact absurd (settled.symm.trans retried) nofun
  rw [List.countP_append, struck, List.countP_singleton]
  rcases made last (List.mem_append_right _ List.mem_cons_self) with ⟨rfl, _⟩ | rfl
  · -- a made-up fault is transient and has a retry left
    have left := course.spared rfl
    rcases course.ends with ⟨ends, _⟩ | ⟨_, _, _, all, _⟩
    · rw [Trial.result, settles_transient worth] at ends
      cases ends
    · omega
  · rcases course.ends with ⟨_, result⟩ | ⟨_, _, unsettled, _⟩
    · exact ⟨result, rfl⟩
    · exact absurd (settled.symm.trans unsettled) nofun

/-- A transient error takes all the attempts there are. -/
theorem Course.wrapped (again : e.isTransient = true) :
    x.result = .error (.retriesExhausted p.name (p.retry.count + 1) e) ∧
      (p.Calm → (init ++ [last]).countP (·.isCall) = p.retry.count.toNat + 1) := by
  have unsettled : p.settles (last.result p.name) = false := by
    rcases made last (List.mem_append_right _ List.mem_cons_self) with ⟨rfl, _⟩ | rfl
    · exact settles_transient worth _
    · rw [Trial.result, settles_transient worth, again]
      rfl
  rcases course.ends with ⟨settled, _⟩ | ⟨e', failed, _, all, result⟩
  · exact absurd (settled.symm.trans unsettled) nofun
  · rw [show (0 : UInt32).toNat = 0 from rfl, Nat.zero_add] at all
    refine ⟨?_, fun calm => ?_⟩
    · rcases made last (List.mem_append_right _ List.mem_cons_self) with ⟨rfl, _⟩ | rfl
      · have left := course.spared rfl
        rw [show (0 : UInt32).toNat = 0 from rfl, Nat.zero_add] at left
        omega
      · cases failed
        exact result
    · have called : (init ++ [last]).countP (·.isCall) = (init ++ [last]).length := by
        refine List.countP_eq_length.mpr fun trial mem => ?_
        rcases made trial mem with ⟨_, wild⟩ | rfl
        · exact absurd calm wild
        · rfl
      rw [called, List.length_append, all]
      rfl

end Ends

end Policy

/-! ## A database that is down -/

namespace Site

/-- The database behind the site refuses connections with `fault`, and no other fault is scripted. -/
structure Down (fault : DatabaseFault) (s : Site) : Prop where
  refusal : s.backend.refusal = some fault
  faultless : ∀ operation, ∀ f ∈ s.backend.faults operation, f = none

/-- What becomes of a request whose every attempt fails with `e`. -/
structure GivesUp (s : Site) (p : Policy) (now : Instant) (r : Request) (e : Error) : Prop where
  answer : (s.serveAt now r).1 = .error e
  store : (s.ask now r).2.store = s.store
  bare : e.isTransient = false → (s.ask now r).1 = .error e ∧ (s.ask now r).2.calls = s.calls + 1
  wrapped : e.isTransient = true →
    (s.ask now r).1 = .error (.retriesExhausted p.name p.retry.maxAttempts e) ∧
      (p.Calm → (s.ask now r).2.calls = s.calls + p.retry.maxAttempts.toNat)

namespace Down

variable {fault : DatabaseFault} {s : Site} {p : Policy}

theorem serveAt (down : s.Down fault) (now : Instant) (r : Request) :
    (s.serveAt now r).1 = .error (r.refused fault now) ∧ (s.serveAt now r).2.Down fault ∧
      (s.serveAt now r).2.store = s.store := by
  have passes : (s.backend.faults r.operation).head?.join = none := by
    cases listed : s.backend.faults r.operation with
    | nil => rfl
    | cons f rest =>
      rw [List.head?_cons, down.faultless r.operation f (listed ▸ List.mem_cons_self)]
      rfl
  have refusal : (s.backend.spend r.operation).refusal = some fault := down.refusal
  have served : s.backend.serve now r = (.error (r.refused fault now), s.backend.spend r.operation) := by
    simp only [Backend.serve, passes, Backend.pass, refusal]
  refine ⟨?_, ⟨?_, fun operation f mem => ?_⟩, ?_⟩
  · simp only [Site.serveAt, served]
  · simp only [Site.serveAt, served, Site.enter]
    exact refusal
  · simp only [Site.serveAt, served, Site.enter, Backend.spend] at mem
    split at mem
    · exact down.faultless operation f (List.mem_of_mem_tail mem)
    · exact down.faultless operation f mem
  · simp only [Site.serveAt, served, Site.enter, Site.store]
    rfl

theorem gives_up (down : s.Down fault) (now : Instant) (r : Request) (found : s.policies.get r.key = .ok p)
    (worth : p.retry.worth = Error.isTransient) (few : p.retry.count ≠ 0xffffffff) :
    s.GivesUp p now r (r.refused fault now) := by
  have fails : ∀ k (t : Site), (t.Down fault ∧ t.store = s.store ∧ t.calls = k) →
      (t.serveAt now r).1 = .error (r.refused fault now) ∧ ((t.serveAt now r).2.Down fault ∧
        (t.serveAt now r).2.store = s.store ∧ (t.serveAt now r).2.calls = k + 1) := by
    rintro _ t ⟨down, store, rfl⟩
    obtain ⟨answer, down', store'⟩ := down.serveAt now r
    have counted := congrArg (fun x => x.2.calls) (t.serveAt_tally now r)
    exact ⟨answer, down', store'.trans store, counted.symm⟩
  obtain ⟨attempts, count⟩ := Retry.maxAttempts_eq few
  obtain ⟨trials, run⟩ := p.runs_executeBlocking (fun t : Site => t.serveAt now r) s s.dice
  obtain ⟨made, _, store, calls⟩ := run.failing fails ⟨down, rfl, rfl⟩
  obtain ⟨init, last, rfl, course⟩ := run.course (Nat.zero_le _)
  rcases s.ask_cases now r with ⟨e, missing, _⟩ | ⟨p', dice, log, found', asked⟩
  · rw [r.key_eq, found] at missing
    cases missing
  · rw [r.key_eq, found] at found'
    cases found'
    have calls : (s.ask now r).2.calls = s.calls + (init ++ [last]).countP (·.isCall) := by
      rw [asked]
      exact calls
    refine ⟨(down.serveAt now r).1, ?_, fun final => ?_, fun again => ?_⟩
    · rw [asked]
      exact store
    · obtain ⟨result, one⟩ := course.bare made worth final
      rw [one] at calls
      rw [asked] at calls ⊢
      exact ⟨result, calls⟩
    · obtain ⟨result, all⟩ := course.wrapped made worth again
      rw [← attempts] at result
      rw [asked]
      refine ⟨result, fun calm => ?_⟩
      rw [all calm, ← count] at calls
      rw [← calls, asked]

end Down

end Site

/-! ## What is refused how -/

theorem DatabaseFault.toError_isTransient (fault : DatabaseFault) : fault.toError.isTransient = fault.isTransient := by
  unfold toError
  split
  · rename_i transient
    exact transient.symm
  · rename_i lasting
    rw [Bool.not_eq_true] at lasting
    rw [lasting]
    cases fault with
    | poolTimedOut | io => cases lasting
    | _ => rfl

theorem Request.refused_of_check {r : Request} {now : Instant} (passes : r.check now = .ok ()) (fault : DatabaseFault) :
    r.refused fault now = if r.operation = .create then .migration (.execute fault) else fault.toError := by
  unfold refused
  rw [passes]
  cases r <;> rfl

/-- A request that passes its own check is refused with the error that classifies the fault, and a transient one is tried
again as long as the policy has attempts. To create the tables is not: whatever the fault, it is reported as one of the
migration, and nobody tries again. -/
theorem refusals_classified (s : Site) (fault : DatabaseFault) (down : s.Down fault) (now : Instant) (r : Request)
    (passes : r.check now = .ok ()) (p : Policy) (found : s.policies.get r.key = .ok p)
    (worth : p.retry.worth = Error.isTransient) (few : p.retry.count ≠ 0xffffffff) :
    fault.toError.isTransient = fault.isTransient ∧
      (r.operation ≠ .create → s.GivesUp p now r fault.toError) ∧
      (r.operation = .create →
        s.GivesUp p now r (.migration (.execute fault)) ∧ (s.ask now r).1 = .error (.migration (.execute fault))) := by
  have gives_up := down.gives_up now r found worth few
  rw [Request.refused_of_check passes] at gives_up
  refine ⟨fault.toError_isTransient, fun other => ?_, fun create => ?_⟩
  · rw [if_neg other] at gives_up
    exact gives_up
  · rw [if_pos create] at gives_up
    exact ⟨gives_up, (gives_up.bare rfl).1⟩

/-! A pool without a connection to spare, under the policies that a queue has if nothing is set. -/

namespace Busy

def site : Site where
  backend := { name := "jobs", refusal := some .poolTimedOut }
  policies := Policies.empty.withDefaults {}
  clock := .manual .epoch

def policy : Policy := ⟨Policies.command, .ofWaits 3 (.ofMillis 5) (.ofMillis 50), none⟩

theorem down : site.Down .poolTimedOut := ⟨rfl, fun _ _ mem => nomatch mem⟩

end Busy

theorem refusals_classified_busy :
    (Busy.site.ask .epoch .remove).1 =
        .error (.retriesExhausted "command-retry" 4 (.transient "pool timed out while waiting for an open connection")) ∧
      (Busy.site.ask .epoch .remove).2.calls = 4 ∧
      (Busy.site.ask .epoch .create).1 = .error (.migration (.execute .poolTimedOut)) ∧
      (Busy.site.ask .epoch .create).2.calls = 1 := by
  obtain ⟨_, others, _⟩ := refusals_classified Busy.site .poolTimedOut Busy.down .epoch .remove rfl Busy.policy rfl rfl
    (by decide)
  obtain ⟨_, _, creating⟩ := refusals_classified Busy.site .poolTimedOut Busy.down .epoch .create rfl Busy.policy rfl rfl
    (by decide)
  obtain ⟨wrapped, calls⟩ := (others nofun).wrapped rfl
  obtain ⟨bare, call⟩ := (creating rfl).1.bare rfl
  exact ⟨wrapped, calls (Policy.calm_of_none rfl), bare, call⟩

/-- To create the tables is refused with no more than the fault of the migration, which is not tried again. -/
theorem creating_not_classified :
    ¬∀ (s : Site) (fault : DatabaseFault) (now : Instant) (r : Request), s.Down fault → r.check now = .ok () →
      (s.serveAt now r).1 = .error fault.toError := by
  intro classified
  have answer := classified Busy.site .poolTimedOut .epoch .create Busy.down rfl
  rw [(Busy.down.serveAt .epoch .create).1] at answer
  cases answer

/-! ## Dead-times that lead before the first instant -/

theorem Instant.sub?_eq_none_iff (t : Instant) (d : Span) :
    t.sub? d = none ↔ t.nanos - d.nanos < -8_334_601_228_800_000_000_000 := by
  have := t.upper
  unfold sub? ofNanos? Span.measurable Span.reach
  split
  · split <;> simp <;> omega
  · rename_i long
    rw [decide_eq_true_eq] at long
    exact iff_of_true rfl (by omega)

/-- The dead-time leads before the first instant. -/
def Span.Outlasts (dead : Span) (now : Instant) : Prop := now.nanos - dead.nanos < -8_334_601_228_800_000_000_000

instance (dead : Span) (now : Instant) : Decidable (dead.Outlasts now) :=
  inferInstanceAs (Decidable (_ < _))

theorem Request.refused_reclaimDead (fault : DatabaseFault) (now : Instant) (dead : Span) (lookback : Option Span) :
    (reclaimDead dead lookback).refused fault now =
      if dead.Outlasts now then .config ("duration out of range: " ++ dead.toText) else fault.toError := by
  have outlasts : dead.Outlasts now ↔ now.sub? dead = none := (now.sub?_eq_none_iff dead).symm
  simp only [outlasts, refused, check]
  cases now.sub? dead <;> rfl

/-- No claim with a heartbeat has been silent for so long. -/
theorem Message.overdue_of_outlasts {m : Message} {now : Instant} {dead : Span} {lookback : Option Span}
    (outlasts : dead.Outlasts now) : m.Overdue now dead lookback ↔ m.status = .working ∧ m.heartbeatAt = none := by
  refine and_congr_right fun _ => ⟨fun overdue => ?_, fun silent beat heard => ?_⟩
  · refine Option.eq_none_iff_forall_not_mem.mpr fun beat heard => ?_
    have late := (overdue beat heard).1
    have := beat.lower
    unfold Instant.since at late
    unfold Span.Outlasts at outlasts
    omega
  · rw [silent] at heard
    cases heard

/-- A store never refuses the scan for dead claims that a configuration asks for. If the dead-time leads before the first
instant, only a claim without a heartbeat is dead, and a database refuses just that scan for its arguments, before it is
asked for a connection, and each time it is tried. Else a database that is down refuses it as any other request. -/
theorem dead_time_exact (c : QueueConfig) (now : Instant) :
    let r := Request.reclaimDead c.heartbeat.time c.heartbeat.lookback
    (∀ s : Store, ∃ ids, (s.serve now r).1 = .ok ids ∧ (c.heartbeat.time.Outlasts now →
      ids = (s.messages.filter fun m => m.status == .working && m.heartbeatAt == none).map (·.id))) ∧
    ∀ (fault : DatabaseFault) (s : Site) (p : Policy), s.Down fault → s.policies.get r.key = .ok p →
      p.retry.worth = Error.isTransient → p.retry.count ≠ 0xffffffff →
      s.GivesUp p now r (if c.heartbeat.time.Outlasts now
        then .config ("duration out of range: " ++ c.heartbeat.time.toText) else fault.toError) := by
  intro r
  refine ⟨fun s => ⟨(s.reclaimDead now c.heartbeat.time c.heartbeat.lookback).1, rfl, fun outlasts => ?_⟩, ?_⟩
  · rw [s.reclaimDead_exact]
    refine congrArg (List.map fun m : Message => m.id) (List.filter_congr fun m _ => ?_)
    rw [Bool.eq_iff_iff, decide_eq_true_eq, Message.overdue_of_outlasts outlasts, Bool.and_eq_true, beq_iff_eq, beq_iff_eq]
  · intro fault s p down found worth few
    rw [← Request.refused_reclaimDead fault now c.heartbeat.time c.heartbeat.lookback]
    exact down.gives_up now r found worth few

/-- The longest time that can be set, which the check lets pass. -/
def Busy.endless : QueueConfig := { heartbeat := { time := .ofMillis 0xffffffffffffffff } }

theorem dead_time_exact_endless :
    Busy.endless.check = .ok () ∧
      (Busy.site.ask .epoch (.reclaimDead Busy.endless.heartbeat.time none)).1 =
        .error (.config "duration out of range: 18446744073709551.615s") ∧
      (Busy.site.ask .epoch (.reclaimDead Busy.endless.heartbeat.time none)).2.calls = 1 := by
  obtain ⟨_, refused⟩ := dead_time_exact Busy.endless .epoch
  have gives_up := refused .poolTimedOut Busy.site Busy.policy Busy.down rfl rfl (by decide)
  have outlasts : Busy.endless.heartbeat.time.Outlasts .epoch := by decide
  rw [if_pos outlasts] at gives_up
  obtain ⟨bare, calls⟩ := gives_up.bare rfl
  have text : "duration out of range: " ++ Busy.endless.heartbeat.time.toText =
    "duration out of range: 18446744073709551.615s" := by decide
  rw [text] at bare
  exact ⟨rfl, bare, calls⟩

/-- The check lets a dead-time pass that a database refuses. -/
theorem dead_time_refused :
    ¬∀ (c : QueueConfig) (now : Instant) (fault : DatabaseFault), c.check = .ok () → ∀ text,
      (Request.reclaimDead c.heartbeat.time c.heartbeat.lookback).refused fault now ≠ .config text := by
  intro accepted
  have outlasts : Busy.endless.heartbeat.time.Outlasts .epoch := by decide
  have refused := Request.refused_reclaimDead .poolTimedOut .epoch Busy.endless.heartbeat.time none
  rw [if_pos outlasts] at refused
  exact accepted Busy.endless .epoch .poolTimedOut rfl _ refused

end ClaimQueue
