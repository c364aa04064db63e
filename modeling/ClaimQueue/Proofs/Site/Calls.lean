/-
  ClaimQueue.Proofs.Site.Calls — what a step of a call does to its site.

  On a settled site every command gets through in the end: the backend refuses nothing, the
  commands have a policy, and that policy tries again just what is transient. No store
  answers with a transient error, and made-up faults spare the last attempt. So a step of a
  call either waits, or ends the call with what the store says to the request; only a call
  that is cancelled in a wait ends without it (`Call.step_goes`).

  `Leads` is all that later proofs know of the site after a step: the request that was
  served in it, if any, and what followed from that.
-/

import ClaimQueue.Proofs.Store.Held
import ClaimQueue.Proofs.Upkeep.Reclaim
import ClaimQueue.Queue.Basic

namespace ClaimQueue

/-- The messages that were taken back in a deed. -/
def Deed.takenBack : Deed → List MessageId
  | .served (.reclaimDead _ _) (.ok ids) => ids
  | _ => []

/-- Is it an answer of the store to anything but a claim? -/
def Deed.isAnswer : Deed → Bool
  | .served (.tryClaim _ _) _ => false
  | .served _ _ => true
  | _ => false

/-- What a store answers to a request that is no claim. -/
def Store.answers (s : Store) (asked : Option Asked) : List Deed :=
  (asked.toList.map fun (now, r) => Deed.served r (s.serve now r).1).filter (·.isAnswer)

namespace Site

/-- The messages taken back so far, those of the latest reclaim first. -/
def takenBack (s : Site) : List MessageId := s.journal.flatMap fun entry => entry.2.takenBack

/-- The answers of the store in the journal, claims apart, the latest first. -/
def answers (s : Site) : List Deed := (s.journal.map (·.2)).filter (·.isAnswer)

def store (s : Site) : Store := s.backend.store

/-- What was taken back is in the answers. -/
theorem takenBack_eq (s : Site) : s.takenBack = s.answers.flatMap (·.takenBack) := by
  have silent : ∀ deed : Deed, deed.isAnswer = false → deed.takenBack = [] := by
    intro deed
    cases deed with
    | served r result => cases r <;> first | exact fun _ => rfl | exact nofun
    | _ => exact fun _ => rfl
  unfold takenBack answers
  induction s.journal with
  | nil => rfl
  | cons entry journal ih =>
    rw [List.flatMap_cons, List.map_cons, ih]
    cases answer : entry.2.isAnswer with
    | true => rw [List.filter_cons_of_pos answer, List.flatMap_cons]
    | false => rw [List.filter_cons_of_neg (by simp [answer]), silent entry.2 answer, List.nil_append]

/-- A calm site whose commands are tried again just after transient errors. -/
structure Settled (s : Site) : Prop extends s.Calm where
  policy : ∃ p, s.policies.get Policies.command = .ok p ∧ p.retry.worth = Error.isTransient

/-- From `s` to `s'` the store served `asked`, if anything, and the journal has its answer. -/
structure Follows (s : Site) (asked : Option Asked) (s' : Site) : Prop where
  store : s'.store = s.store.after asked
  answers : s'.answers = s.store.answers asked ++ s.answers
  capabilities : s'.backend.capabilities = s.backend.capabilities

theorem Follows.takenBack {s s' : Site} {asked : Option Asked} (follows : s.Follows asked s') :
    s'.takenBack = s.store.takenBack asked ++ s.takenBack := by
  have answered : (s.store.answers asked).flatMap (·.takenBack) = s.store.takenBack asked := by
    rcases asked with _ | ⟨now, r⟩
    · rfl
    · cases r with
      | reclaimDead dead lookback => exact List.append_nil _
      | _ => rfl
  rw [takenBack_eq, takenBack_eq, follows.answers, List.flatMap_append, answered]

/-- A step takes the site on from `s` to `s'`, with `asked` served in it. -/
structure Leads (s : Site) (asked : Option Asked) (s' : Site) : Prop extends s.Follows asked s' where
  settled : s'.Settled
  clock : s'.clock = s.clock
  time : s'.time = s.time

namespace Leads

variable {s s' s'' : Site} {asked : Option Asked}

theorem now (h : s.Leads asked s') : s'.now = s.now := by
  unfold Site.now
  rw [h.clock, h.time]

theorem trans (h : s.Leads none s') (h' : s'.Leads asked s'') : s.Leads asked s'' := by
  have same : s'.store = s.store := h.store
  have none : s'.answers = s.answers := h.answers
  refine ⟨⟨?_, ?_, h'.capabilities.trans h.capabilities⟩, h'.settled, h'.clock.trans h.clock, h'.time.trans h.time⟩
  · rw [h'.store, same]
  · rw [h'.answers, same, none]

end Leads

namespace Settled

variable {s s' : Site}

/-- A step that leaves the backend, the policies and the clock alone, with no answer in it. -/
theorem quiet (h : s.Settled) (backend : s'.backend = s.backend) (policies : s'.policies = s.policies)
    (clock : s'.clock = s.clock) (time : s'.time = s.time) (kept : s'.answers = s.answers) :
    s.Leads none s' := by
  refine ⟨⟨congrArg Backend.store backend, kept, congrArg Backend.capabilities backend⟩, ⟨⟨?_, ?_⟩, ?_⟩, clock, time⟩
  · rw [backend]
    exact h.reached
  · rw [backend]
    exact h.faultless
  · rw [policies]
    exact h.policy

theorem refl (h : s.Settled) : s.Leads none s := h.quiet rfl rfl rfl rfl rfl

theorem note (h : s.Settled) (event : Event) (scopes : List Scope) : s.Leads none (s.note event scopes) :=
  h.quiet rfl rfl rfl rfl rfl

theorem enter (h : s.Settled) {deed : Deed} (silent : deed.isAnswer = false) : s.Leads none (s.enter deed) := by
  refine h.quiet rfl rfl rfl rfl ?_
  simp [Site.answers, Site.enter, silent]

theorem serveAt (h : s.Settled) (now : Instant) (r : Request) : s.Leads (some (now, r)) (s.serveAt now r).2 := by
  obtain ⟨reply, store, calm⟩ := h.toCalm.serveAt now r
  have served : (s.serveAt now r).2.journal = (s.time, .served r (s.serveAt now r).1) :: s.journal := rfl
  refine ⟨⟨store, ?_, ?_⟩, ⟨calm, h.policy⟩, rfl, rfl⟩
  · rw [answers, served, reply, List.map_cons, ← List.singleton_append, List.filter_append]
    rfl
  · simp only [Site.serveAt, Backend.serve_calm h.reached h.faultless]
    rfl

end Settled

end Site

/-! ## Policies -/

/-- What a store says is final: another try would not mend it. -/
theorem Store.serve_final {s : Store} {now : Instant} {r : Request} {e : Error} (h : (s.serve now r).1 = .error e) :
    e.isTransient = false := by
  cases r with
  | updateStatus id change version =>
    simp only [serve, updateStatus, Change.check] at h
    split at h
    · rename_i refused
      split at refused
      · cases refused
      · cases refused
        cases h
        rfl
    · split at h
      · cases h
        rfl
      · split at h
        · cases h
        · cases h
          rfl
  | resetHeartbeat id worker =>
    simp only [serve, resetHeartbeat] at h
    split at h
    · cases h
    · cases h
      rfl
  | _ => cases h

theorem Policy.judge_final {α : Type} {p : Policy} (worth : p.retry.worth = Error.isTransient) (n : UInt32)
    {result : Except Error α} (final : ∀ e, result = .error e → e.isTransient = false) :
    p.judge n result = .done result := by
  cases result with
  | ok a => rfl
  | error e =>
    have : (!p.retry.worth e) = true := by rw [worth, final e rfl]; rfl
    simp only [judge, this, if_true]

/-- Chaos strikes only where a retry is left, so what it makes up is tried again. -/
theorem Policy.judge_struck {α : Type} {p : Policy} (worth : p.retry.worth = Error.isTransient) {n : UInt32}
    {throw : UInt64} (struck : p.strikes n throw = true) :
    p.judge n (.error (Chaos.fault p.name) : Except Error α) = .again (Chaos.fault p.name) (n + 1) := by
  have left : n < p.retry.count := by
    obtain ⟨c, _, hit⟩ := (Option.any_eq_true _ _).mp struck
    simp only [Chaos.strikes, Bool.and_eq_true, decide_eq_true_eq] at hit
    exact hit.1.2
  have again : (!p.retry.worth (Chaos.fault p.name)) = false := by rw [worth]; rfl
  simp [judge, again, left]

/-- The policies of a configuration. -/
theorem Policies.get_withDefaults (ps : Policies) (c : PolicyConfig) :
    ∃ p, (ps.withDefaults c).get command = .ok p ∧ p.retry.worth = Error.isTransient := by
  let chaos := if c.chaos then some (Chaos.ofRate true c.chaosRate) else none
  refine ⟨⟨command, Retry.ofWaits c.retryCount c.minWait c.maxWait, chaos⟩, ?_, rfl⟩
  simp [withDefaults, register, get, chaos, show ¬command = query by decide]

theorem Backend.serve_capabilities (b : Backend) (now : Instant) (r : Request) :
    (b.serve now r).2.capabilities = b.capabilities := by
  unfold serve pass spend
  dsimp only
  repeat' split
  all_goals rfl

theorem Backend.serve_store (b : Backend) (now : Instant) (r : Request) :
    (b.serve now r).2.store = b.store ∨ (b.serve now r).2.store = (b.store.serve now r).2 := by
  unfold serve pass spend
  dsimp only
  repeat' split
  all_goals first | exact Or.inl rfl | exact Or.inr rfl

/-- How often a request may be tried again. -/
def Site.retries (s : Site) (r : Request) : Nat :=
  match s.policies.get (Policies.nameFor r.operation) with
  | .ok p => p.retry.count.toNat
  | .error _ => 0

/-! ## Calls -/

namespace Call

variable {s : Site} {r : Request}

/-- What a step makes of a call that is under way. -/
inductive Goes (cancelled : Bool) (s : Site) (call : Call r.Reply) (s' : Site) : Prop
  | waits : call.result? = none → s.Leads none s' → Goes cancelled s call s'
  | quits (e : Error) : cancelled = true → call = .done (.error e) → s.Leads none s' → Goes cancelled s call s'
  | answers : call = .done (s.store.serve s.now r).1 → s.Leads (some (s.now, r)) s' → Goes cancelled s call s'

theorem step_goes (h : s.Settled) (command : r.operation.isQuery = false) (cancelled : Bool) (scopes : List Scope)
    {call : Call r.Reply} (undone : call.result? = none) :
    Goes cancelled s (call.step r cancelled scopes s).1 (call.step r cancelled scopes s).2 := by
  cases call with
  | done result => cases undone
  | waiting n e wake =>
    simp only [step]
    split
    · exact .quits e ‹_› rfl h.refl
    · split
      · exact .waits rfl h.refl
      · exact .waits rfl h.refl
  | attempting n =>
    obtain ⟨p, found, worth⟩ := h.policy
    have named : Policies.nameFor r.operation = Policies.command := by simp [Policies.nameFor, command]
    obtain ⟨throw, dice, thrown⟩ := s.throw_eq
    have thrownOn : s.Leads none { s with dice } := h.quiet rfl rfl rfl rfl rfl
    simp only [step, named, found, Site.attempt, thrown, Policy.attempt]
    by_cases struck : p.strikes n throw = true
    · -- the policy makes up a fault, and tries again
      obtain ⟨throw', dice', thrown'⟩ := Site.throw_eq { s with dice }
      simp only [if_pos struck, Policy.judge_struck worth struck, thrown']
      exact .waits rfl (h.quiet rfl rfl rfl rfl rfl)
    · have served := thrownOn.settled.serveAt s.now r
      have reply : ({ s with dice }.serveAt s.now r).1 = (s.store.serve s.now r).1 :=
        (thrownOn.settled.toCalm.serveAt s.now r).1
      have final := Policy.judge_final worth n fun e (he : ({ s with dice }.serveAt s.now r).1 = .error e) =>
        Store.serve_final (reply.symm.trans he)
      simp only [if_neg struck, final]
      exact .answers (by rw [reply]) (thrownOn.trans served)

/-! ### On any site -/

/-- A step throws the dice, writes to the log, and has the backend serve the request once at most. -/
theorem step_site (r : Request) (cancelled : Bool) (scopes : List Scope) (s : Site) (call : Call r.Reply) :
    ∃ s₁ : Site, (s₁ = s ∨ ∃ dice, s₁ = ({ s with dice }.serveAt s.now r).2) ∧
      ∃ dice log, (call.step r cancelled scopes s).2 = { s₁ with dice, log } := by
  cases call with
  | done result => exact ⟨s, Or.inl rfl, s.dice, s.log, rfl⟩
  | waiting n e wake =>
    simp only [step]
    repeat' split
    all_goals exact ⟨s, Or.inl rfl, s.dice, s.log, rfl⟩
  | attempting n =>
    simp only [step]
    split
    · exact ⟨s, Or.inl rfl, s.dice, s.log, rfl⟩
    · rename_i p _
      -- the attempt first, then what the policy makes of it
      have attempted : ∃ s₁ : Site, (s₁ = s ∨ ∃ dice, s₁ = ({ s with dice }.serveAt s.now r).2) ∧
          ∃ dice log, (s.attempt p n s.now r).2 = { s₁ with dice, log } := by
        obtain ⟨throw, dice, thrown⟩ := s.throw_eq
        simp only [Site.attempt, thrown, Policy.attempt]
        split
        · exact ⟨s, Or.inl rfl, dice, s.log, rfl⟩
        · exact ⟨_, Or.inr ⟨dice, rfl⟩, _, _, rfl⟩
      obtain ⟨s₁, origin, dice, log, site⟩ := attempted
      generalize s.attempt p n s.now r = attempt at site
      obtain ⟨result, site'⟩ := attempt
      obtain rfl : site' = { s₁ with dice, log } := site
      dsimp only
      split
      · exact ⟨s₁, origin, dice, log, rfl⟩
      · obtain ⟨throw, dice', thrown⟩ := Site.throw_eq { s₁ with dice, log }
        rw [thrown]
        exact ⟨s₁, origin, dice', _, rfl⟩

theorem step_policies (cancelled : Bool) (scopes : List Scope) (call : Call r.Reply) :
    (call.step r cancelled scopes s).2.policies = s.policies := by
  obtain ⟨s₁, rfl | ⟨_, rfl⟩, _, _, site⟩ := step_site r cancelled scopes s call
  · rw [site]
  · rw [site]
    rfl

theorem step_capabilities (cancelled : Bool) (scopes : List Scope) (call : Call r.Reply) :
    (call.step r cancelled scopes s).2.backend.capabilities = s.backend.capabilities := by
  obtain ⟨s₁, rfl | ⟨_, rfl⟩, _, _, site⟩ := step_site r cancelled scopes s call
  · rw [site]
  · rw [site]
    exact s.backend.serve_capabilities s.now r

/-- The store serves the request as it is, if at all. -/
theorem step_store (cancelled : Bool) (scopes : List Scope) (call : Call r.Reply) :
    (call.step r cancelled scopes s).2.store = s.store ∨
      (call.step r cancelled scopes s).2.store = (s.store.serve s.now r).2 := by
  obtain ⟨s₁, rfl | ⟨_, rfl⟩, _, _, site⟩ := step_site r cancelled scopes s call
  · rw [site]
    exact Or.inl rfl
  · rw [site]
    exact s.backend.serve_store s.now r

/-! ### The end of a call -/

/-- How many steps and waits are left of a call that may be tried again `retries` times. -/
def left {α : Type} (retries : Nat) : Call α → Nat
  | .attempting n => 2 * (retries - n.toNat) + 1
  | .waiting n _ _ => 2 * (retries - n.toNat) + 2
  | .done _ => 0

/-- A step of a call that need not wait brings its end nearer, whatever is taken for enough retries. -/
theorem step_left {call : Call r.Reply} {retries : Nat} (enough : s.retries r ≤ retries) (undone : call.result? = none)
    (ready : call.isReady false s.time = true) (scopes : List Scope) :
    (call.step r false scopes s).1.left retries < call.left retries := by
  cases call with
  | done result => cases undone
  | waiting n e wake =>
    have due : wake ≤ s.time := by simpa [isReady] using ready
    simp only [step, if_pos due]
    exact Nat.lt_succ_self _
  | attempting n =>
    cases policy : s.policies.get (Policies.nameFor r.operation) with
    | error e =>
      simp only [step, policy]
      exact Nat.succ_pos _
    | ok p =>
      simp only [Site.retries, policy] at enough
      simp only [step, policy]
      split
      · exact Nat.succ_pos _
      · rename_i judged
        obtain ⟨less, next⟩ := Policy.judge_again judged
        simp only [left]
        omega

/-- A call that nobody cancels ends, if only time passes: what holds of it when it is done, and before each wait and
each step after which it holds, holds of it from the beginning. -/
theorem ends {P : Call r.Reply → Site → Prop} (done : ∀ result s, P (.done result) s)
    (waits : ∀ call s time, s.time ≤ time → P call { s with time } → P call s)
    (steps : ∀ call s, call.result? = none →
      (∀ scopes, P (call.step r false scopes s).1 (call.step r false scopes s).2) → P call s)
    (call : Call r.Reply) (s : Site) : P call s := by
  induction less : call.left (s.retries r) using Nat.strongRecOn generalizing call s with
  | ind n ih =>
    cases undone : call.result? with
    | some result =>
      cases call with
      | done result => exact done result s
      | _ => cases undone
    | none =>
      -- time passes until the call need not wait
      let time := max s.time (call.alarm?.getD s.time)
      have ready : call.isReady false time = true := by
        cases call with
        | waiting n e wake => exact decide_eq_true (Nat.le_max_right s.time wake)
        | _ => rfl
      refine waits call s time (Nat.le_max_left ..) (steps call _ undone fun scopes => ?_)
      have nearer := step_left (s := { s with time }) (Nat.le_refl _) undone ready scopes
      have kept := step_policies (s := { s with time }) false scopes call
      refine ih _ ?_ _ _ rfl
      rw [Site.retries, kept]
      exact less ▸ nearer

end Call

end ClaimQueue
