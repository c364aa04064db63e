/-
  ClaimQueue.Proofs.Work.Decisions — what a worker makes of an outcome.

  A worker decides from the message as it was handed out, and the change it decided on it
  records in the end: between its claim and the record it has one message in hand (`hand?`),
  and the only way to a record is the decision (`recording_step`).

  The failure that follows `n` others of its kind goes back to pending with step `n` of the
  delays, or ends the message (`failureChange_cases`).
-/

import ClaimQueue.Proofs.Site.Outcomes
import ClaimQueue.Proofs.Work.Phases

namespace ClaimQueue

namespace RetryDelays

/-- Step `n` of the delays of a kind, counted from 0. -/
def step? (r : RetryDelays) (kind : String) (n : Nat) : Option Span := (r.delays? kind).bind (·.step? n)

/-- The number of steps of a kind. -/
def steps (r : RetryDelays) (kind : String) : Nat := ((r.delays? kind).map (·.size)).getD 0

theorem lt_steps {r : RetryDelays} {kind : String} {n : Nat} {delay : Span} (found : r.step? kind n = some delay) :
    n < r.steps kind := by
  unfold step? at found
  unfold steps
  cases delays : r.delays? kind with
  | none =>
    rw [delays] at found
    cases found
  | some d =>
    rw [delays] at found
    exact (List.getElem?_eq_some_iff.mp found).1

theorem delayFor?_succ (r : RetryDelays) (kind : String) {n : UInt32} (few : n.toNat + 1 < 2 ^ 32) :
    r.delayFor? kind (n + 1) = r.step? kind n.toNat := by
  have more : (n + 1).toNat = n.toNat + 1 := toNat_succ few
  have some : ¬n + 1 = 0 := by
    intro zero
    have : (n + 1).toNat = 0 := congrArg UInt32.toNat zero
    omega
  rw [delayFor?, if_neg some, more]
  rfl

end RetryDelays

/-- Does the failure that follows `n` others of its kind end the message? -/
def QueueConfig.givesUp (config : QueueConfig) (rollback : Bool) (kind : String) (n : Nat) : Prop :=
  config.errorPolicy = .terminal ∨ rollback = false ∨ config.retryDelays.step? kind n = none

/-- The kind of the failure that an outcome is; a cancelled handler did not fail. -/
def Outcome.failure? : Outcome → Option String
  | .ok () => none
  | .error f => if f.cancelled then none else some f.kind

namespace Worker

theorem failureChange_failure (config : QueueConfig) (rollback : Bool) (now : Instant) (m : Message) (f : HandlerFault) :
    (failureChange config rollback now m f).failure = some f.kind := by
  unfold failureChange
  dsimp only
  split <;> rfl

/-- A failure is sent back with the step of its count, or given up on. -/
theorem failureChange_cases (config : QueueConfig) (rollback : Bool) (now : Instant) (m : Message) (f : HandlerFault)
    (few : (m.failuresOf f.kind).toNat + 1 < 2 ^ 32) :
    (∃ delay, ¬config.givesUp rollback f.kind (m.failuresOf f.kind).toNat ∧
        config.retryDelays.step? f.kind (m.failuresOf f.kind).toNat = some delay ∧
        failureChange config rollback now m f =
          (Change.requeue f.toText (if delay.isZero then none else now.add? delay)).counting f.kind) ∨
      (config.givesUp rollback f.kind (m.failuresOf f.kind).toNat ∧
        failureChange config rollback now m f = (Change.fail f.toText).counting f.kind) := by
  have most : ¬m.failuresOf f.kind = 0xffffffff := by
    intro all
    rw [all] at few
    exact absurd few (by decide)
  unfold failureChange QueueConfig.givesUp
  simp only [if_neg most, RetryDelays.delayFor?_succ _ _ few]
  by_cases back : config.errorPolicy = .requeue ∧ rollback = true
  · obtain ⟨requeue, able⟩ := back
    rw [requeue, able]
    cases found : config.retryDelays.step? f.kind (m.failuresOf f.kind).toNat with
    | none => exact Or.inr ⟨Or.inr (Or.inr rfl), rfl⟩
    | some delay => exact Or.inl ⟨delay, by simp, rfl, rfl⟩
  · rw [if_neg back]
    refine Or.inr ⟨?_, rfl⟩
    cases policy : config.errorPolicy with
    | terminal => exact Or.inl rfl
    | requeue => exact Or.inr (Or.inl (by simpa [policy] using back))

theorem outcomeChange_src {config : QueueConfig} {rollback : Bool} {now : Instant} {m : Message} {outcome : Outcome}
    {change : Change} (chosen : outcomeChange config rollback now m outcome = some change) : change.src = .working := by
  cases outcome with
  | ok done =>
    cases chosen
    rfl
  | error f =>
    simp only [outcomeChange] at chosen
    split at chosen
    · split at chosen
      · cases chosen
        rfl
      · cases chosen
    · cases chosen
      unfold failureChange
      dsimp only
      split <;> rfl

/-- No change is chosen only for a cancelled handler whose claim cannot be given back. -/
theorem outcomeChange_none {config : QueueConfig} {rollback : Bool} {now : Instant} {m : Message} {outcome : Outcome}
    (chosen : outcomeChange config rollback now m outcome = none) :
    ∃ f, outcome = .error f ∧ f.cancelled = true ∧ rollback = false := by
  cases outcome with
  | ok done => cases chosen
  | error f =>
    simp only [outcomeChange] at chosen
    split at chosen
    · rename_i cancelled
      split at chosen
      · cases chosen
      · rename_i unable
        exact ⟨f, rfl, cancelled, by simpa using unable⟩
    · cases chosen

/-- A change counts the failure that the outcome is. -/
theorem outcomeChange_failure {config : QueueConfig} {rollback : Bool} {now : Instant} {m : Message}
    {outcome : Outcome} {change : Change} (chosen : outcomeChange config rollback now m outcome = some change) :
    change.failure = outcome.failure? := by
  cases outcome with
  | ok done =>
    cases chosen
    rfl
  | error f =>
    simp only [outcomeChange] at chosen
    simp only [Outcome.failure?]
    split at chosen
    · rename_i cancelled
      rw [if_pos cancelled]
      split at chosen
      · cases chosen
        rfl
      · cases chosen
    · rename_i failed
      rw [if_neg failed]
      cases chosen
      exact failureChange_failure config rollback now m f

/-- A failure that goes back to pending waits for the step of its count. -/
theorem outcomeChange_requeue {config : QueueConfig} {rollback : Bool} {now : Instant} {m : Message} {outcome : Outcome}
    {change : Change} {kind : String} (chosen : outcomeChange config rollback now m outcome = some change)
    (counts : change.failure = some kind) (back : change.dst = .pending)
    (few : (m.failuresOf kind).toNat + 1 < 2 ^ 32) :
    ∃ delay, config.retryDelays.step? kind (m.failuresOf kind).toNat = some delay ∧
      change.visibleAt = if delay.isZero then none else now.add? delay := by
  cases outcome with
  | ok done =>
    cases chosen
    cases counts
  | error f =>
    simp only [outcomeChange] at chosen
    split at chosen
    · split at chosen
      · cases chosen
        cases counts
      · cases chosen
    · cases chosen
      rw [failureChange_failure] at counts
      cases counts
      rcases failureChange_cases config rollback now m f few with ⟨delay, _, found, change⟩ | ⟨_, change⟩
      · exact ⟨delay, found, by rw [change]; rfl⟩
      · rw [change] at back
        cases back

/-- The message that the worker claimed and has not recorded an outcome of. -/
def hand? (w : Worker) : Option Message :=
  match w.stage with
  | .claiming (.done (.ok m)) => m
  | .found m => some m
  | .announcing m => some m
  | .opening m => some m
  | .handling m _ _ => some m
  | .returned m _ => some m
  | .settling m _ => some m
  | .recording m _ _ => some m
  | _ => none

variable {w : Worker} {s : Scene}

theorem hand_claiming {call : Call (Option Message)} (claiming : w.stage = .claiming call) :
    w.hand? = w.phase.message? := by
  rw [hand?, phase, claiming]
  cases call with
  | done result =>
    cases result with
    | ok m => cases m <;> rfl
    | error e => rfl
  | _ => rfl

/-- What a worker has in hand it had before, unless its claim has just returned it. -/
theorem hand_new (h : s.site.Settled) (w : Worker) {m : Message} (hand : (w.step s).1.hand? = some m) :
    w.hand? = some m ∨
      s.site.store.tryClaim w.id s.desk.filter s.site.now = (some m, (w.step s).2.site.store) := by
  obtain ⟨asked, step⟩ := step_moves h w
  obtain ⟨index, id, idle, emptyStreak, fatalStreak, stage⟩ := w
  cases stage with
  | claiming call =>
    cases call with
    | done result =>
      cases result with
      | ok m => cases m <;> exact Or.inl hand
      | error e =>
        simp only [Worker.step, claimed] at hand
        split at hand <;> cases hand
    | _ =>
      rw [hand_claiming (w := (Worker.step _ s).1) rfl] at hand
      cases step.moves with
      | stays same =>
        rw [same] at hand
        cases hand
      | asks r _ free =>
        rw [free] at hand
        cases hand
      | claims m' _ claimed found =>
        rw [claimed] at hand
        cases hand
        exact Or.inr (Prod.ext found step.site.store.symm)
      | opens m' serving | ends m' token serving | closes m' serving => cases serving
  | handling m' token handler => cases handler <;> exact Or.inl hand
  | settling m' outcome =>
    simp only [Worker.step] at hand
    split at hand
    · exact Or.inl hand
    · cases hand
  | recording m' change call =>
    cases call with
    | done result =>
      cases result with
      | ok updated =>
        simp only [Worker.step, recorded] at hand
        split at hand <;> cases hand
      | error e => cases hand
    | _ => exact Or.inl hand
  | purging m' change call => cases call <;> cases hand
  | looking | checking ticket | parked ticket | pausing wake =>
    simp only [Worker.step] at hand
    repeat' split at hand
    all_goals cases hand
  | _ => exact Or.inl hand

/-- A worker keeps its message in hand until it lets go of it; what it has just claimed is what is stored. -/
theorem hand_step (h : s.site.Settled) (distinct : s.site.store.Distinct) (w : Worker) :
    (w.step s).1.hand? = w.hand? ∨ (w.step s).1.hand? = none ∨
      ∃ m, (w.step s).1.hand? = some m ∧ (w.step s).2.site.store.get? m.id = some m := by
  cases hand : (w.step s).1.hand? with
  | none => exact Or.inr (Or.inl rfl)
  | some m =>
    rcases hand_new h w hand with had | claimed
    · exact Or.inl had.symm
    · obtain ⟨m₀, _, _, rfl, after⟩ := Store.tryClaim_some distinct (congrArg Prod.fst claimed)
      have stored := (after m₀.id).trans (if_pos rfl)
      rw [claimed] at stored
      exact Or.inr (Or.inr ⟨_, rfl, stored⟩)

/-- What a worker records it has decided on. -/
theorem recording_step {m : Message} {change : Change} {call : Call Message}
    (recording : (w.step s).1.stage = .recording m change call) :
    (∃ call, w.stage = .recording m change call) ∨
      ∃ outcome, w.stage = .settling m outcome ∧
        outcomeChange s.desk.config s.site.backend.capabilities.rollback s.site.now m outcome = some change := by
  obtain ⟨index, id, idle, emptyStreak, fatalStreak, stage⟩ := w
  cases stage with
  | settling m' outcome =>
    simp only [step] at recording
    split at recording
    · rename_i decided
      cases recording
      exact Or.inr ⟨outcome, rfl, decided⟩
    · cases recording
  | recording m' change' call' =>
    cases call' with
    | done result =>
      cases result with
      | ok updated =>
        simp only [step, recorded] at recording
        split at recording <;> cases recording
      | error e => cases recording
    | _ =>
      cases recording
      exact Or.inl ⟨_, rfl⟩
  | claiming call' =>
    cases call' with
    | done result =>
      cases result with
      | ok found => cases found <;> cases recording
      | error e =>
        simp only [step, claimed] at recording
        split at recording <;> cases recording
    | _ => cases recording
  | handling m' token handler => cases handler <;> cases recording
  | purging m' change' call' => cases call' <;> cases recording
  | looking | checking ticket | parked ticket | pausing wake =>
    simp only [step] at recording
    repeat' split at recording
    all_goals cases recording
  | _ => cases recording

end Worker

/-! ## The account of a message -/

/-- Did one of the changes count a failure that ended the message? -/
def Change.GaveUp (config : QueueConfig) (rollback : Bool) (cs : List Change) : Prop :=
  ∃ newer change older kind, cs = newer ++ change :: older ∧ change.failure = some kind ∧
    config.givesUp rollback kind (failures older kind)

namespace Change

variable {config : QueueConfig} {rollback : Bool} {change : Change} {cs : List Change} {kind : String}

theorem failures_cons (change : Change) (cs : List Change) (kind : String) :
    failures (change :: cs) kind = failures cs kind + (if change.failure = some kind then 1 else 0) := by
  simp [failures, List.countP_cons]

theorem gaveUp_cons : GaveUp config rollback (change :: cs) ↔
    (∃ kind, change.failure = some kind ∧ config.givesUp rollback kind (failures cs kind)) ∨
      GaveUp config rollback cs := by
  constructor
  · rintro ⟨newer, last, older, kind, split, counts, gives⟩
    cases newer with
    | nil =>
      cases split
      exact Or.inl ⟨kind, counts, gives⟩
    | cons first newer =>
      cases split
      exact Or.inr ⟨newer, last, older, kind, rfl, counts, gives⟩
  · rintro (⟨kind, counts, gives⟩ | ⟨newer, last, older, kind, rfl, counts, gives⟩)
    · exact ⟨[], change, cs, kind, rfl, counts, gives⟩
    · exact ⟨change :: newer, last, older, kind, rfl, counts, gives⟩

theorem not_gaveUp_nil : ¬GaveUp config rollback [] := by
  rintro ⟨newer, last, older, kind, split, _⟩
  simp at split

theorem failuresOf_apply (change : Change) (m : Message) (now : Instant) (kind : String) :
    (change.apply m now).failuresOf kind =
      if change.failure = some kind then m.failuresOf kind + 1 else m.failuresOf kind := by
  cases counts : change.failure with
  | none => simp [apply, Message.failuresOf, counts]
  | some k =>
    by_cases same : kind = k
    · simp [apply, Message.failuresOf, counts, same]
    · simp [apply, Message.failuresOf, counts, same, Ne.symm same]

end Change

/-- What the changes made to a message say of it. -/
structure Message.Accounted (config : QueueConfig) (rollback : Bool) (cs : List Change) (m : Message) : Prop where
  counted : ∀ kind, (m.failuresOf kind).toNat = Change.failures cs kind
  bounded : m.status.isTerminal = false → ∀ kind, (m.failuresOf kind).toNat ≤ config.retryDelays.steps kind
  ended : m.status = .error ↔ Change.GaveUp config rollback cs

namespace Message.Accounted

variable {config : QueueConfig} {rollback : Bool} {cs : List Change} {m m' : Message}

/-- A message that was never worked on. -/
theorem unworked (waits : m.status.isWaiting = true) (none : m.failures = .empty) : m.Accounted config rollback [] := by
  have zero : ∀ kind, m.failuresOf kind = 0 := by
    intro kind
    rw [failuresOf, none]
    rfl
  refine ⟨fun kind => ?_, fun _ kind => ?_, fun error => ?_, fun gave => absurd gave Change.not_gaveUp_nil⟩
  · rw [zero]
    rfl
  · rw [zero]
    exact Nat.zero_le _
  · rw [error] at waits
    cases waits

theorem ages (accounted : m.Accounted config rollback cs) (ages : m.Ages m') : m'.Accounted config rollback cs := by
  have same : ∀ kind, m'.failuresOf kind = m.failuresOf kind := by
    intro kind
    rw [Message.failuresOf, ages.failures]
    rfl
  refine ⟨fun kind => ?_, fun waits kind => ?_, ages.error.trans accounted.ended⟩
  · rw [same]
    exact accounted.counted kind
  · rw [same]
    exact accounted.bounded (ages.terminal waits) kind

/-- The store counts the failure that a change counts. -/
theorem count (accounted : m.Accounted config rollback cs) {change : Change} (now : Instant)
    (few : ∀ kind, Change.failures (change :: cs) kind < 2 ^ 32) (kind : String) :
    ((change.apply m now).failuresOf kind).toNat = Change.failures (change :: cs) kind := by
  have few := few kind
  rw [Change.failures_cons] at few ⊢
  rw [Change.failuresOf_apply]
  split
  · rename_i counts
    rw [if_pos counts, ← accounted.counted kind] at few
    rw [toNat_succ few, accounted.counted kind]
  · exact accounted.counted kind

theorem not_gaveUp (accounted : m.Accounted config rollback cs) (working : m.status = .working) :
    ¬Change.GaveUp config rollback cs := by
  rw [← accounted.ended, working]
  nofun

/-- A change that counts no failure. -/
theorem spared (accounted : m.Accounted config rollback cs) (working : m.status = .working) {change : Change}
    (silent : change.failure = none) (fair : change.dst ≠ .error) (now : Instant)
    (few : ∀ kind, Change.failures (change :: cs) kind < 2 ^ 32) :
    (change.apply m now).Accounted config rollback (change :: cs) := by
  refine ⟨accounted.count now few, fun _ kind => ?_, ?_⟩
  · rw [Change.failuresOf_apply, silent, if_neg nofun]
    exact accounted.bounded (by rw [working]; rfl) kind
  · rw [Change.gaveUp_cons, silent]
    refine ⟨fun error => absurd error fair, ?_⟩
    rintro (⟨_, counts, _⟩ | gave)
    · cases counts
    · exact absurd gave (accounted.not_gaveUp working)

/-- A failure that a worker decided on from the message as it is, but for the heartbeat. -/
theorem failed (accounted : m.Accounted config rollback cs) (working : m.status = .working) {seen : Message}
    (same : m.failures = seen.failures) (f : HandlerFault) (decided now : Instant)
    (few : ∀ kind, Change.failures (Worker.failureChange config rollback decided seen f :: cs) kind < 2 ^ 32) :
    ((Worker.failureChange config rollback decided seen f).apply m now).Accounted config rollback
      (Worker.failureChange config rollback decided seen f :: cs) := by
  have count : ∀ kind, (seen.failuresOf kind).toNat = Change.failures cs kind := by
    intro kind
    rw [Message.failuresOf, ← same]
    exact accounted.counted kind
  have room : (seen.failuresOf f.kind).toNat + 1 < 2 ^ 32 := by
    have few := few f.kind
    rw [Change.failures_cons, Worker.failureChange_failure, if_pos rfl] at few
    rw [count]
    exact few
  have counted := accounted.count now few
  rcases Worker.failureChange_cases config rollback decided seen f room with
    ⟨delay, goesOn, found, change⟩ | ⟨gives, change⟩
  · rw [count] at goesOn found
    rw [change] at counted ⊢
    generalize (if delay.isZero then none else decided.add? delay) = visibleAt at counted ⊢
    refine ⟨counted, fun _ kind => ?_, ?_⟩
    · rw [counted, Change.failures_cons]
      split
      · rename_i counts
        cases counts
        exact RetryDelays.lt_steps found
      · rw [← accounted.counted]
        exact accounted.bounded (by rw [working]; rfl) kind
    · rw [Change.gaveUp_cons]
      refine ⟨nofun, ?_⟩
      rintro (⟨_, counts, gives⟩ | gave)
      · cases counts
        exact absurd gives goesOn
      · exact absurd gave (accounted.not_gaveUp working)
  · rw [count] at gives
    rw [change] at counted ⊢
    refine ⟨counted, nofun, ?_⟩
    rw [Change.gaveUp_cons]
    exact ⟨fun _ => Or.inl ⟨f.kind, rfl, gives⟩, fun _ => rfl⟩

/-- An accepted change that a worker decided on keeps the account, with the failure it counts. -/
theorem made (accounted : m.Accounted config rollback cs) (working : m.status = .working) {seen : Message}
    (same : m.failures = seen.failures) {decided : Instant} {outcome : Outcome} {change : Change}
    (chosen : Worker.outcomeChange config rollback decided seen outcome = some change) (now : Instant)
    (few : ∀ kind, Change.failures (change :: cs) kind < 2 ^ 32) :
    (change.apply m now).Accounted config rollback (change :: cs) := by
  cases outcome with
  | ok done =>
    cases chosen
    exact accounted.spared working rfl (by decide) now few
  | error f =>
    simp only [Worker.outcomeChange] at chosen
    split at chosen
    · split at chosen
      · cases chosen
        exact accounted.spared working rfl (by decide) now few
      · cases chosen
    · cases chosen
      exact accounted.failed working same f decided now few

end Message.Accounted

end ClaimQueue
