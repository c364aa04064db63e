/-
  ClaimQueue.Proofs.Site.Asking — a call that is left alone, and the same request in one go.

  A call makes its attempts in steps of its own, `Site.ask` makes them all at once, asleep in
  the waits. What a request reads and changes is the backend, and what counts is how often
  that was called (`Tally`). While two backends answer alike, attempt after attempt comes out
  alike, for the policy judges results alone. So a call that is under way has the outcome
  before it that the other loop comes to (`Call.Bound`, kept by every step: `Bound.step`), and
  has come to it when it is done (`ask_alike`).

  The dice decide the waits only, as long as the policy makes up no faults at random
  (`Policy.Sure`); so the two may throw different dice.
-/

import ClaimQueue.Proofs.Policy.Retrying
import ClaimQueue.Proofs.Site.Calls

namespace ClaimQueue

/-- Which attempts fail before they are made does not depend on the dice. -/
def Policy.Sure (p : Policy) : Prop := ∀ n throw throw', p.strikes n throw = p.strikes n throw'

theorem Policy.sure_of_none {p : Policy} (none : p.chaos = none) : p.Sure := by
  intro n throw throw'
  rw [calm_of_none none n throw, calm_of_none none n throw']

/-! ## Left alone -/

/-- Something under way at a site makes steps, and time passes. -/
inductive Site.Alone {α : Type} (step : Site → α → α × Site) : α → Site → α → Site → Prop
  | rest (x : α) (s : Site) : Alone step x s x s
  | step {x x' : α} {s s' : Site} : Alone step (step s x).1 (step s x).2 x' s' → Alone step x s x' s'
  | waits {x x' : α} {s s' : Site} (time : Nat) : s.time ≤ time → Alone step x { s with time } x' s' →
      Alone step x s x' s'

namespace Site.Alone

variable {α : Type} {step : Site → α → α × Site} {x x' : α} {s s' : Site}

theorem keeps {P : α → Site → Prop} (alone : Alone step x s x' s')
    (steps : ∀ x s, P x s → P (step s x).1 (step s x).2)
    (waits : ∀ x s time, s.time ≤ time → P x s → P x { s with time }) (start : P x s) : P x' s' := by
  induction alone with
  | rest => exact start
  | step _ ih => exact ih (steps _ _ start)
  | waits time later _ ih => exact ih (waits _ _ time later start)

end Site.Alone

/-- Left alone, `x` can get to where `fin` holds. -/
def Site.Ends {α : Type} (step : Site → α → α × Site) (fin : α → Prop) (x : α) (s : Site) : Prop :=
  ∃ x' s', Alone step x s x' s' ∧ fin x'

namespace Site.Ends

variable {α : Type} {step : Site → α → α × Site} {fin : α → Prop} {x : α} {s : Site}

theorem now (ended : fin x) : Ends step fin x s := ⟨x, s, .rest x s, ended⟩

theorem step_ends (ends : Ends step fin (step s x).1 (step s x).2) : Ends step fin x s := by
  obtain ⟨x', s', alone, ended⟩ := ends
  exact ⟨x', s', .step alone, ended⟩

/-- What is in a call ends if it does when the call is done. -/
theorem call {r : Request} (wrap : Call r.Reply → α)
    (steps : ∀ call s, call.result? = none → ∃ scopes,
      step s (wrap call) = (wrap (call.step r false scopes s).1, (call.step r false scopes s).2))
    (done : ∀ result s, Ends step fin (wrap (.done result)) s) (call : Call r.Reply) (s : Site) :
    Ends step fin (wrap call) s := by
  refine Call.ends (P := fun call s => Ends step fin (wrap call) s) done ?_ ?_ call s
  · rintro call s time later ⟨x', s', alone, ended⟩
    exact ⟨x', s', .waits time later alone, ended⟩
  · intro call s undone ends
    obtain ⟨scopes, stepped⟩ := steps call s undone
    refine step_ends ?_
    rw [stepped]
    exact ends scopes

end Site.Ends

/-! ## What requests work on -/

def Deed.isCall : Deed → Bool
  | .served .. => true
  | _ => false

/-- A backend, and how often it was called. -/
structure Tally where
  backend : Backend
  calls : Nat

namespace Tally

def serve (a : Tally) (now : Instant) (r : Request) : Except Error r.Reply × Tally :=
  ((a.backend.serve now r).1, ⟨(a.backend.serve now r).2, a.calls + 1⟩)

variable {α : Type}

/-- In the relation `Q` after a reply, in `R` after an error. -/
def Lands (R : Tally → Tally → Prop) (Q : α → Tally → Tally → Prop) : Except Error α → Tally → Tally → Prop
  | .ok reply => Q reply
  | .error _ => R

/-- Backends in the relation `R` answer the two requests alike. -/
def Answers (now : Instant) (r r' : Request) (g : r.Reply → r'.Reply) (R : Tally → Tally → Prop)
    (Q : r.Reply → Tally → Tally → Prop) : Prop :=
  ∀ a b, R a b → (b.serve now r').1 = (a.serve now r).1.map g ∧
    Lands R Q (a.serve now r).1 (a.serve now r).2 (b.serve now r').2

end Tally

namespace Site

/-- How often the backend was called. -/
def calls (s : Site) : Nat := s.journal.countP (·.2.isCall)

def tally (s : Site) : Tally := ⟨s.backend, s.calls⟩

theorem serveAt_tally (s : Site) (now : Instant) (r : Request) :
    s.tally.serve now r = ((s.serveAt now r).1, (s.serveAt now r).2.tally) := by
  have more : (s.serveAt now r).2.calls = s.calls + 1 := List.countP_cons_of_pos rfl
  simp only [Tally.serve, tally, more]
  rfl

end Site

/-! ## One attempt -/

section

open Tally (Lands Answers)

variable {p : Policy} {r r' : Request} {now : Instant} {g : r.Reply → r'.Reply} {R : Tally → Tally → Prop}
  {Q : r.Reply → Tally → Tally → Prop} {s t : Site}

/-- Attempts at sites alike come out alike, whatever the dice. -/
theorem Policy.attempt_alike (sure : p.Sure) (alike : Answers now r r' g R Q) (related : R s.tally t.tally)
    (n : UInt32) (throw : UInt64) :
    (p.attempt n throw (fun t : Site => t.serveAt now r') t).1 = (s.attempt p n now r).1.map g ∧
      Lands R Q (s.attempt p n now r).1 (s.attempt p n now r).2.tally
        (p.attempt n throw (fun t : Site => t.serveAt now r') t).2.tally := by
  obtain ⟨throw', dice, thrown⟩ := s.throw_eq
  have same : ({ s with dice } : Site).tally = s.tally := rfl
  simp only [Site.attempt, thrown, Policy.attempt, sure n throw throw']
  split
  · exact ⟨rfl, same ▸ related⟩
  · obtain ⟨answer, lands⟩ := alike s.tally t.tally related
    rw [← same] at answer lands
    rw [Site.serveAt_tally, Site.serveAt_tally] at answer lands
    exact ⟨answer, lands⟩

theorem Policy.judge_map {α β : Type} (p : Policy) (n : UInt32) (g : α → β) (result : Except Error α) :
    p.judge n (result.map g) = match p.judge n result with
      | .done result => .done (result.map g)
      | .again e next => .again e next := by
  cases result with
  | ok a => rfl
  | error e =>
    simp only [judge, Except.map]
    repeat' split
    all_goals simp_all

theorem Policy.lands_done {α : Type} {Q : α → Tally → Tally → Prop} {n : UInt32} {result result' : Except Error α}
    {a b : Tally} (judged : p.judge n result = .done result') (lands : Lands R Q result a b) : Lands R Q result' a b := by
  cases settled : p.settles result with
  | true =>
    rw [judge_settled settled] at judged
    cases judged
    exact lands
  | false =>
    obtain ⟨e, rfl, ⟨_, again⟩ | ⟨_, exhausted⟩⟩ := judge_unsettled settled n
    · rw [again] at judged
      cases judged
    · rw [exhausted] at judged
      cases judged
      exact lands

theorem Policy.lands_again {α : Type} {Q : α → Tally → Tally → Prop} {n next : UInt32} {result : Except Error α}
    {e : Error} {a b : Tally} (judged : p.judge n result = .again e next) (lands : Lands R Q result a b) : R a b := by
  obtain ⟨_, rfl⟩ := judge_again_error judged
  exact lands

/-! ## A call on its way -/

namespace Call

/-- The outcome `x` of attempts made in one go is before a call, or reached by it. -/
def Bound (p : Policy) (now : Instant) (r r' : Request) (g : r.Reply → r'.Reply) (R : Tally → Tally → Prop)
    (Q : r.Reply → Tally → Tally → Prop) (x : Policy.Execution Site r'.Reply) : Call r.Reply → Site → Prop
  | .attempting n, s | .waiting n _ _, s => ∃ t dice, R s.tally t.tally ∧
      (p.executeBlockingFrom (fun t : Site => t.serveAt now r') n t dice).result = x.result ∧
      (p.executeBlockingFrom (fun t : Site => t.serveAt now r') n t dice).state = x.state
  | .done result, s => x.result = result.map g ∧ Lands R Q result s.tally x.state.tally

variable {x : Policy.Execution Site r'.Reply} {call : Call r.Reply} {scopes : List Scope}

theorem Bound.step (sure : p.Sure) (alike : Answers now r r' g R Q)
    (found : s.policies.get (Policies.nameFor r.operation) = .ok p) (present : s.now = now)
    (bound : Bound p now r r' g R Q x call s) :
    Bound p now r r' g R Q x (call.step r false scopes s).1 (call.step r false scopes s).2 := by
  cases call with
  | done result => exact bound
  | waiting n e wake =>
    simp only [Call.step, Bool.false_eq_true, if_false]
    split
    · exact bound
    · exact bound
  | attempting n =>
    obtain ⟨t, dice, related, result, state⟩ := bound
    obtain ⟨same, lands⟩ := Policy.attempt_alike sure alike related n dice.throw.1
    rw [Policy.executeBlockingFrom_eq] at result state
    dsimp only at result state
    rw [same, Policy.judge_map] at result state
    simp only [Call.step, found, present]
    -- what the policy makes of the attempt here, it makes of it there
    cases judged : p.judge n (s.attempt p n now r).1 with
    | done ended =>
      rw [judged] at result state
      refine ⟨result.symm, ?_⟩
      rw [← state]
      exact Policy.lands_done judged lands
    | again e next =>
      rw [judged] at result state
      obtain ⟨throw, dice', thrown⟩ := (s.attempt p n now r).2.throw_eq
      simp only [thrown]
      exact ⟨_, dice.throw.2.throw.2, Policy.lands_again judged lands, result, state⟩

end Call

/-! ## Requests in one go -/

/-- Sites with the same instant on the clock and the same policy under `name`. -/
structure Site.Twins (name : String) (now : Instant) (s t : Site) : Prop where
  clock : s.clock = .manual now
  clock' : t.clock = .manual now
  policy : t.policies.get name = s.policies.get name
  sure : ∀ p, s.policies.get name = .ok p → p.Sure

namespace Site

theorem noteRetries_eq (s : Site) (notes : List RetryNote) : ∃ log, s.noteRetries notes = { s with log } := by
  induction notes generalizing s with
  | nil => exact ⟨s.log, rfl⟩
  | cons note notes ih =>
    obtain ⟨log, rest⟩ := ih (s.note (.retrying note) [.retry note])
    exact ⟨log, rest⟩

/-- What attempts in one go leave of a site but for the backend and the journal. -/
theorem execute_keeps (p : Policy) (now : Instant) (r : Request) (n : UInt32) (s : Site) (dice : Dice) :
    (p.executeBlockingFrom (fun s : Site => s.serveAt now r) n s dice).state.clock = s.clock ∧
      (p.executeBlockingFrom (fun s : Site => s.serveAt now r) n s dice).state.policies = s.policies := by
  have attempted : ∀ n throw (s : Site), (p.attempt n throw (fun s : Site => s.serveAt now r) s).2.clock = s.clock ∧
      (p.attempt n throw (fun s : Site => s.serveAt now r) s).2.policies = s.policies := by
    intro n throw s
    unfold Policy.attempt
    split
    · exact ⟨rfl, rfl⟩
    · exact ⟨rfl, rfl⟩
  induction n, s, dice using Policy.attempts_induct p (fun s : Site => s.serveAt now r) with
  | done n s dice result judged =>
    rw [Policy.executeBlockingFrom_done judged]
    exact attempted n _ s
  | again n s dice e next judged ih =>
    rw [Policy.executeBlockingFrom_again judged]
    exact ⟨ih.1.trans (attempted n _ s).1, ih.2.trans (attempted n _ s).2⟩

/-- Asking is a run of attempts, if there is a policy. -/
theorem ask_cases (t : Site) (now : Instant) (r : Request) :
    (∃ e, t.policies.get (Policies.nameFor r.operation) = .error e ∧ t.ask now r = (.error e, t)) ∨
      ∃ p dice log, t.policies.get (Policies.nameFor r.operation) = .ok p ∧
        t.ask now r = ((p.executeBlocking (fun t : Site => t.serveAt now r) t t.dice).result,
          { (p.executeBlocking (fun t : Site => t.serveAt now r) t t.dice).state with dice, log }) := by
  cases found : t.policies.get (Policies.nameFor r.operation) with
  | error e => exact Or.inl ⟨e, rfl, by simp only [ask, found]⟩
  | ok p =>
    let run := p.executeBlocking (fun t : Site => t.serveAt now r) t t.dice
    obtain ⟨log, noted⟩ := noteRetries_eq { run.state with dice := run.dice } run.notes
    refine Or.inr ⟨p, run.dice, log, rfl, ?_⟩
    simp only [ask, found]
    exact Prod.ext rfl noted

end Site

namespace Call

/-- The call is on its way to what `t` comes to when it makes the other request in one go. -/
structure Heads (now : Instant) (r r' : Request) (g : r.Reply → r'.Reply) (R : Tally → Tally → Prop)
    (Q : r.Reply → Tally → Tally → Prop) (t : Site) (call : Call r.Reply) (s : Site) : Prop where
  twins : s.Twins (Policies.nameFor r.operation) now t
  bound : ∀ p, s.policies.get (Policies.nameFor r.operation) = .ok p →
    Bound p now r r' g R Q (p.executeBlocking (fun t : Site => t.serveAt now r') t t.dice) call s
  refused : ∀ e, s.policies.get (Policies.nameFor r.operation) = .error e →
    R s.tally t.tally ∧ (call = .start ∨ call = .done (.error e))

theorem step_clock (cancelled : Bool) (scopes : List Scope) (s : Site) (call : Call r.Reply) :
    (call.step r cancelled scopes s).2.clock = s.clock := by
  obtain ⟨s₁, rfl | ⟨_, rfl⟩, _, _, site⟩ := step_site r cancelled scopes s call
  · rw [site]
  · rw [site]
    rfl

variable {call : Call r.Reply}

theorem Heads.start (twins : s.Twins (Policies.nameFor r.operation) now t) (related : R s.tally t.tally) :
    Heads now r r' g R Q t .start s :=
  ⟨twins, fun _ _ => ⟨t, t.dice, related, rfl, rfl⟩, fun _ _ => ⟨related, Or.inl rfl⟩⟩

theorem Heads.step (heads : Heads now r r' g R Q t call s) (alike : Answers now r r' g R Q) (scopes : List Scope) :
    Heads now r r' g R Q t (call.step r false scopes s).1 (call.step r false scopes s).2 := by
  obtain ⟨⟨clock, clock', policy, sure⟩, bound, refused⟩ := heads
  have present : s.now = now := by rw [Site.now, clock]; rfl
  have policies := step_policies (s := s) false scopes call
  refine ⟨⟨(step_clock false scopes s call).trans clock, clock', ?_, ?_⟩, ?_, ?_⟩
  · rw [policies]
    exact policy
  · rw [policies]
    exact sure
  · rw [policies]
    exact fun p found => (bound p found).step (sure p found) alike found present
  · rw [policies]
    intro e missing
    obtain ⟨related, rfl | rfl⟩ := refused e missing
    · have refusal : Call.step r false scopes s Call.start = (.done (.error e), s) := by
        simp only [Call.start, Call.step, missing]
      rw [refusal]
      exact ⟨related, Or.inr rfl⟩
    · exact ⟨related, Or.inr rfl⟩

theorem Heads.waits (heads : Heads now r r' g R Q t call s) (time : Nat) :
    Heads now r r' g R Q t call { s with time } := by
  obtain ⟨⟨clock, clock', policy, sure⟩, bound, refused⟩ := heads
  refine ⟨⟨clock, clock', policy, sure⟩, fun p found => ?_, refused⟩
  have before := bound p found
  cases call <;> exact before

/-- A call that is done has come to it. -/
theorem Heads.ask {result : Except Error r.Reply} (heads : Heads now r r' g R Q t (.done result) s)
    (named : Policies.nameFor r'.operation = Policies.nameFor r.operation) :
    (t.ask now r').1 = result.map g ∧ Lands R Q result s.tally (t.ask now r').2.tally ∧
      s.Twins (Policies.nameFor r.operation) now (t.ask now r').2 := by
  obtain ⟨⟨clock, clock', policy, sure⟩, bound, refused⟩ := heads
  rcases t.ask_cases now r' with ⟨e, missing, asked⟩ | ⟨p, dice, log, found, asked⟩
  · rw [named, policy] at missing
    obtain ⟨related, start | ended⟩ := refused e missing
    · cases start
    · cases ended
      rw [asked]
      exact ⟨rfl, related, clock, clock', policy, sure⟩
  · rw [named, policy] at found
    obtain ⟨result, lands⟩ := bound p found
    obtain ⟨kept, kept'⟩ := Site.execute_keeps p now r' 0 t t.dice
    rw [asked]
    refine ⟨result, lands, clock, kept.trans clock', ?_, sure⟩
    exact (congrArg (fun policies : Policies => policies.get _) kept').trans policy

end Call

end

/-! ## The same request -/

/-- The policy that a request runs under. -/
def Request.key : Request → String
  | .get _ | .count _ => Policies.query
  | _ => Policies.command

theorem Request.key_eq (r : Request) : Policies.nameFor r.operation = r.key := by
  cases r <;> rfl

theorem Tally.same_answers (now : Instant) (r : Request) :
    Answers now r r id (fun a b => a = b) (fun _ a b => a = b) := by
  rintro a _ rfl
  cases (a.serve now r).1 with
  | ok reply => exact ⟨rfl, rfl⟩
  | error e => exact ⟨rfl, rfl⟩

namespace Call

variable {r : Request} {now : Instant} {scopes : List Scope} {s s' t : Site} {result : Except Error r.Reply}

/-- A call and the same request in one go come to the same. -/
theorem same_ask (twins : s.Twins r.key now t) (tally : s.tally = t.tally)
    (alone : Site.Alone (Call.step r false scopes) .start s (.done result) s') :
    (t.ask now r).1 = result ∧ (t.ask now r).2.tally = s'.tally := by
  rw [← r.key_eq] at twins
  have heads := alone.keeps (P := Heads now r r id (fun a b => a = b) (fun _ a b => a = b) t)
    (fun call s heads => heads.step (Tally.same_answers now r) scopes)
    (fun call s time _ heads => heads.waits time) (Heads.start twins tally)
  obtain ⟨answer, lands, _⟩ := heads.ask rfl
  cases result with
  | ok reply => exact ⟨answer, lands.symm⟩
  | error e => exact ⟨answer, lands.symm⟩

end Call

end ClaimQueue
