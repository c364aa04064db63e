/-
  ClaimQueue.Proofs.Work.Deferral — for how long a message is put off.

  A delay, an expiration and a step of the retry delays are each added to the present instant.
  The sum is exact, or there is none, and then it lies past the last instant (`Instant.add?_cases`).
  A message whose expiration lies there never expires, as no instant is late enough. But one whose
  delay leads there has no visibility at all: nothing is left of the delay, and the message can be
  claimed at once (`delay_dropped`).

  Main statement: `put_off_exactly`.
-/

import ClaimQueue.Proofs.Store.Visibility
import ClaimQueue.Send.Draft
import ClaimQueue.Work.Worker

namespace ClaimQueue

/-! ## Sums -/

namespace Instant

/-- What comes `d` after `t` lies past the last instant. -/
def OutrunBy (t : Instant) (d : Span) : Prop := ∀ u : Instant, u.nanos < t.nanos + d.nanos

theorem ofNanos?_some {n : Int} {t : Instant} (h : ofNanos? n = some t) : t.nanos = n := by
  unfold ofNanos? at h
  split at h
  · cases h
    rfl
  · cases h

theorem ofNanos?_none {n : Int} (h : ofNanos? n = none) :
    n < -8_334_601_228_800_000_000_000 ∨ 8_210_266_876_800_000_000_000 ≤ n := by
  unfold ofNanos? at h
  split at h
  · cases h
  · omega

/-- A sum is exact, or lies past the last instant. -/
theorem add?_cases (t : Instant) (d : Span) :
    (∃ v, t.add? d = some v ∧ v.nanos = t.nanos + d.nanos) ∨ t.add? d = none ∧ t.OutrunBy d := by
  have early := t.lower
  unfold add?
  by_cases measured : d.measurable = true
  · rw [if_pos measured]
    cases sum : ofNanos? (t.nanos + d.nanos) with
    | some v => exact Or.inl ⟨v, rfl, ofNanos?_some sum⟩
    | none =>
      refine Or.inr ⟨rfl, fun u => ?_⟩
      have late := u.upper
      have out := ofNanos?_none sum
      omega
  · -- a span that cannot be measured is longer than any two instants are apart
    rw [if_neg measured]
    refine Or.inr ⟨rfl, fun u => ?_⟩
    have apart := u.since_lt_reach t
    have long : ¬d.nanos ≤ Span.reach := by simpa [Span.measurable] using measured
    unfold since at apart
    omega

/-- A visibility that is a sum lets through what is no earlier, and everything if there is no such sum. -/
theorem add?_all_le (t u : Instant) (d : Span) :
    (t.add? d).all (· ≤ u) = true ↔ t.nanos + d.nanos ≤ u.nanos ∨ t.OutrunBy d := by
  rcases t.add?_cases d with ⟨v, sum, exact⟩ | ⟨none, out⟩
  · have there : ¬t.OutrunBy d := by
      intro out
      have := out v
      omega
    rw [sum, Option.all_some, decide_eq_true_eq, ← exact]
    exact ⟨Or.inl, fun h => h.resolve_right there⟩
  · rw [none]
    exact ⟨fun _ => Or.inr out, fun _ => rfl⟩

/-- An end that is a sum is reached by what is no earlier, and by nothing if there is no such sum. -/
theorem add?_any_le (t u : Instant) (d : Span) : (t.add? d).any (· ≤ u) = true ↔ t.nanos + d.nanos ≤ u.nanos := by
  rcases t.add?_cases d with ⟨v, sum, exact⟩ | ⟨none, out⟩
  · rw [sum, Option.any_some, decide_eq_true_eq, ← exact]
    exact Iff.rfl
  · have := out u
    rw [none]
    constructor
    · intro h
      cases h
    · intro h
      omega

end Instant

/-! ## Messages -/

namespace Message

variable {m : Message} {t : Instant}

theorem isClaimable_iff (waits : m.status.isWaiting = true) :
    m.isClaimable t = true ↔ m.isVisible t = true ∧ ¬m.isExpired t = true := by
  simp [isClaimable, waits]

theorem not_isExpired_iff : ¬m.isExpired t = true ↔ ∀ x, m.expiresAt = some x → t < x := by
  unfold isExpired
  cases m.expiresAt with
  | none => simp
  | some x =>
    simp only [Option.any_some, decide_eq_true_eq, Option.some.injEq, forall_eq']
    exact Int.not_le

/-- From its sending on, a message can be claimed when its delay is over and its expiration is not. -/
theorem isClaimable_ofDraft (id : MessageId) (draft : Draft) {now t : Instant} (later : now ≤ t) :
    (ofDraft id draft now).isClaimable t = true ↔
      (now.nanos + (draft.delay.getD .zero).nanos ≤ t.nanos ∨ now.OutrunBy (draft.delay.getD .zero)) ∧
      ∀ x, draft.expiration = some x → t.nanos < now.nanos + x.nanos := by
  rw [isClaimable_iff (ofDraft_waits id draft now)]
  refine and_congr ?_ ?_
  · show (draft.delay.bind now.add?).all (· ≤ t) = true ↔ _
    cases draft.delay with
    | some d => exact now.add?_all_le t d
    | none =>
      have later : now.nanos ≤ t.nanos := later
      refine iff_of_true rfl (Or.inl ?_)
      show now.nanos + (0 : Nat) ≤ t.nanos
      omega
  · show ¬(draft.expiration.bind now.add?).any (· ≤ t) = true ↔ _
    cases draft.expiration with
    | none => simp
    | some x =>
      rw [Option.bind_some, now.add?_any_le t x]
      simp

end Message

namespace Worker

/-- The step of the retry delays with which a failure is sent round again. -/
def retryStep? (config : QueueConfig) (rollback : Bool) (m : Message) (f : HandlerFault) : Option Span :=
  if config.errorPolicy = .requeue ∧ rollback then
    config.retryDelays.delayFor? f.kind
      (if m.failuresOf f.kind = 0xffffffff then 0xffffffff else m.failuresOf f.kind + 1)
  else none

theorem failureChange_step {config : QueueConfig} {rollback : Bool} {m : Message} {f : HandlerFault} {d : Span}
    (step : retryStep? config rollback m f = some d) (now : Instant) :
    failureChange config rollback now m f =
      (Change.requeue f.toText (if d.isZero then none else now.add? d)).counting f.kind := by
  unfold retryStep? at step
  simp only [failureChange, step]

/-- A failed message is pending again if its retry delays have a step for it. -/
theorem failureChange_pending {config : QueueConfig} {rollback : Bool} {now : Instant} {m : Message} {f : HandlerFault} :
    (failureChange config rollback now m f).dst = .pending ↔ ∃ d, retryStep? config rollback m f = some d := by
  cases step : retryStep? config rollback m f with
  | some d =>
    rw [failureChange_step step]
    exact iff_of_true rfl ⟨d, rfl⟩
  | none =>
    have given : failureChange config rollback now m f = (Change.fail f.toText).counting f.kind := by
      unfold retryStep? at step
      simp only [failureChange, step]
    rw [given]
    exact iff_of_false nofun nofun

/-- A failed message can be claimed again when its step is over, or at once after a step of no length. -/
theorem isClaimable_requeued {config : QueueConfig} {rollback : Bool} {m : Message} {f : HandlerFault} {d : Span}
    (step : retryStep? config rollback m f = some d) (now done t : Instant) :
    ((failureChange config rollback now m f).apply m done).isClaimable t = true ↔
      (d.nanos = 0 ∨ now.nanos + d.nanos ≤ t.nanos ∨ now.OutrunBy d) ∧ ∀ x, m.expiresAt = some x → t < x := by
  rw [failureChange_step step]
  rw [Message.isClaimable_iff rfl]
  refine and_congr ?_ Message.not_isExpired_iff
  show (if d.isZero then none else now.add? d).all (· ≤ t) = true ↔ _
  by_cases zero : d.nanos = 0
  · have none : d.isZero = true := by simpa [Span.isZero] using zero
    rw [if_pos none]
    exact iff_of_true rfl (Or.inl zero)
  · have some : ¬d.isZero = true := by simpa [Span.isZero] using zero
    rw [if_neg some, now.add?_all_le t d]
    exact ⟨Or.inr, fun h => h.resolve_left zero⟩

end Worker

/-- From its sending on a message can be claimed at exactly those instants that come no earlier than its delay says and
before its expiration, in exact arithmetic, unless the delay leads past the last instant: then it counts as none. A
message whose handler failed is pending again if its retry delays have a step for it, and can be claimed at exactly those
instants before its end that come no earlier than that step says, with the same exception; a step of no length sets no
instant. -/
theorem put_off_exactly (now t : Instant) :
    (∀ (id : MessageId) (draft : Draft), now ≤ t →
      ((Message.ofDraft id draft now).isClaimable t = true ↔
        (now.nanos + (draft.delay.getD .zero).nanos ≤ t.nanos ∨ now.OutrunBy (draft.delay.getD .zero)) ∧
        ∀ x, draft.expiration = some x → t.nanos < now.nanos + x.nanos)) ∧
    ∀ (config : QueueConfig) (rollback : Bool) (m : Message) (f : HandlerFault),
      let change := Worker.failureChange config rollback now m f
      (change.dst = .pending ↔ ∃ d, Worker.retryStep? config rollback m f = some d) ∧
      ∀ d, Worker.retryStep? config rollback m f = some d → ∀ done : Instant,
        ((change.apply m done).isClaimable t = true ↔
          (d.nanos = 0 ∨ now.nanos + d.nanos ≤ t.nanos ∨ now.OutrunBy d) ∧ ∀ x, m.expiresAt = some x → t < x) := by
  constructor
  · intro id draft later
    exact Message.isClaimable_ofDraft id draft later
  · intro config rollback m f change
    exact ⟨Worker.failureChange_pending, fun d step done => Worker.isClaimable_requeued step now done t⟩

/-- Put off by a second and given a minute, a message can be claimed after a second and not before; when its handler
fails then, it is put off by another second. -/
theorem put_off_exactly_second :
    let draft : Draft := { type := "job", body := [], delay := some (.ofMillis 1000), expiration := some (.ofMillis 60000) }
    let early : Instant := ⟨999_999_999, false, by decide, by decide⟩
    let due : Instant := ⟨1_000_000_000, false, by decide, by decide⟩
    let again : Instant := ⟨2_000_000_000, false, by decide, by decide⟩
    let m := Message.ofDraft .nil draft .epoch
    let failed := (Worker.failureChange {} true due (m.claim ⟨"worker"⟩ due) (.ofMessage "broken")).apply m due
    (Instant.epoch ≤ due ∧ m.isClaimable due = true ∧ ¬m.isClaimable early = true) ∧
      Worker.retryStep? {} true (m.claim ⟨"worker"⟩ due) (.ofMessage "broken") = some (.ofMillis 1000) ∧
      failed.isClaimable again = true := by
  intro draft early due again m failed
  have step : Worker.retryStep? {} true (m.claim ⟨"worker"⟩ due) (.ofMessage "broken") = some (.ofMillis 1000) := rfl
  refine ⟨⟨by decide, ?_, fun tooEarly => ?_⟩, step, ?_⟩
  · refine ((put_off_exactly .epoch due).1 .nil draft (by decide)).mpr ⟨Or.inl (by decide), ?_⟩
    rintro _ ⟨⟩
    decide
  · rcases (((put_off_exactly .epoch early).1 .nil draft (by decide)).mp tooEarly).1 with past | out
    · exact absurd past (by decide)
    · exact absurd (out due) (by decide)
  · refine (((put_off_exactly due again).2 {} true _ _).2 _ step due).mpr ⟨Or.inr (Or.inl (by decide)), ?_⟩
    rintro _ ⟨⟩
    decide

/-- A delay of some 285 thousand years. -/
def distant : Draft := { type := "job", body := [], delay := some (.ofMillis 9_000_000_000_000_000) }

/-- A draft that passes the check asks for a delay past the last instant, and its message can be claimed at once. -/
theorem delay_dropped :
    distant.fault? {} = none ∧ ¬∀ (c : Capabilities) (id : MessageId) (draft : Draft) (now t : Instant),
      draft.fault? c = none → now ≤ t →
      ((Message.ofDraft id draft now).isClaimable t = true ↔
        now.nanos + (draft.delay.getD .zero).nanos ≤ t.nanos ∧
        ∀ x, draft.expiration = some x → t.nanos < now.nanos + x.nanos) := by
  have accepted : distant.fault? {} = none := by decide
  refine ⟨accepted, fun exact => ?_⟩
  have kept := (exact {} .nil distant .epoch .epoch accepted (by decide)).mp rfl
  exact absurd kept.1 (by decide)

end ClaimQueue
