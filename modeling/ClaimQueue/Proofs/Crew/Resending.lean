/-
  ClaimQueue.Proofs.Crew.Resending — sending a message once more.

  A sender that did not hear of its first success sends the same message again, and the store
  tells the second one by the id alone, as long as it holds the message. In an archive it does
  so for good. Under the purge the message is deleted when it has ended, and then nothing tells
  that it was there: sent again it is new, and worked on once more (`resend_works_again`).

  Main statement: `resend_unchanged_iff`.
-/

import ClaimQueue.Proofs.Crew.Retention

namespace ClaimQueue

namespace Store

variable {s : Store} {m : Message}

theorem enqueue_eq_iff (s : Store) (m : Message) : s.enqueue m = s ↔ s.get? m.id ≠ none := by
  unfold enqueue
  rw [contains_eq, ← Option.isSome_iff_ne_none]
  split
  · exact iff_of_true rfl ‹_›
  · refine iff_of_false (fun same => ?_) ‹_›
    have longer := congrArg (·.entries.length) same
    simp at longer

/-- What has ended no claim hands out. -/
theorem tryClaim_ended {id : MessageId} {worker : WorkerId} {filter : ClaimFilter} {now : Instant} {out : Message}
    (distinct : s.Distinct) (ended : ∀ m, s.get? id = some m → m.status.isTerminal = true)
    (claimed : (s.tryClaim worker filter now).1 = some out) : out.id ≠ id := by
  rintro rfl
  obtain ⟨m, stored, eligible, rfl, _⟩ := tryClaim_some distinct claimed
  have waits := isWaiting_of_eligible eligible
  have terminal := ended m stored
  cases status : m.status <;> simp_all [Status.isTerminal, Status.isWaiting]

end Store

namespace Engine

variable {e₀ : Engine} {retention : Retention}

/-- A message that has ended does not come to life again. -/
theorem Retained.ended_later {before after : List Happening} (run : Retained retention e₀ (before ++ after))
    {id : MessageId} {m : Message} (stored : (e₀.acts before).store.get? id = some m)
    (ended : m.status.isTerminal = true) :
    ∀ m', (e₀.acts (before ++ after)).store.get? id = some m' → m'.status.isTerminal = true := by
  have sent := run.left.swept.sent id m stored
  have later := run.later (P := fun e => id ∈ e.site.sent ∧ ∀ m, e.store.get? id = some m → m.status.isTerminal = true)
    ⟨sent, fun m' stored' => Option.some.inj (stored.symm.trans stored') ▸ ended⟩
    fun e a asked swept retains sweeps ⟨sent, ended⟩ =>
      ⟨sweeps.site.mem_sent sent, fun m => swept.ended_after retains sweeps sent ended⟩
  exact later.2

end Engine

/-- In every run with one retention, sending a message once more leaves the store unchanged if and only if it was
not deleted so far, and so in an archive always. A message that was deleted is stored again as it was sent first.
Until then no claim hands out a message that has ended. -/
theorem resend_unchanged_iff {retention : Retention} {e₀ : Engine} {as : List Happening}
    (run : Engine.Retained retention e₀ as) {m : Message} (sent : m.id ∈ (e₀.acts as).site.sent) :
    let e := e₀.acts as
    (e.store.enqueue m = e.store ↔ ∀ reply, .served (.delete m.id) reply ∉ e.site.answers) ∧
    (retention = .archive → e.store.enqueue m = e.store) ∧
    (∀ reply, .served (.delete m.id) reply ∈ e.site.answers → (e.store.enqueue m).get? m.id = some m) ∧
    ∀ before after, as = before ++ after → ∀ stored, (e₀.acts before).store.get? m.id = some stored →
      stored.status.isTerminal = true → ∀ worker filter now out,
        (e.store.tryClaim worker filter now).1 = some out → out.id ≠ m.id := by
  intro e
  have swept := run.swept
  have unchanged : e.store.enqueue m = e.store ↔ ∀ reply, .served (.delete m.id) reply ∉ e.site.answers := by
    rw [Store.enqueue_eq_iff]
    constructor
    · exact fun there reply served => there (swept.deleted m.id reply served).2.2
    · intro undeleted absent
      obtain ⟨reply, served⟩ := swept.missing m.id sent absent
      exact undeleted reply served
  refine ⟨unchanged, fun archive => unchanged.mpr fun reply served => ?_, fun reply served => ?_, ?_⟩
  · cases archive.symm.trans (swept.deleted m.id reply served).1
  · rw [Store.get?_enqueue, if_pos rfl, (swept.deleted m.id reply served).2.2]
    rfl
  · rintro before after rfl stored there ended worker filter now out claimed
    exact Store.tryClaim_ended swept.reached.sound.distinct (run.ended_later there ended) claimed

/-- The message that the worker completed was deleted, so it is stored again. -/
theorem resend_unchanged_iff_cleanup :
    let e := Cleanup.queue.acts (Cleanup.complete ++ (.move ⟨0, .worker 0⟩ :: Cleanup.rest))
    .nil ∈ e.site.sent ∧ e.store.enqueue (.blank .nil) ≠ e.store ∧
      (e.store.enqueue (.blank .nil)).get? .nil = some (.blank .nil) := by
  intro e
  have sent : .nil ∈ e.site.sent := by decide +kernel
  have served : .served (.delete .nil) (.ok true) ∈ e.site.answers := List.mem_of_getElem? (i := 2) rfl
  have main := resend_unchanged_iff Cleanup.retained (m := .blank .nil) sent
  exact ⟨sent, fun same => main.1.mp same _ served, main.2.2.1 _ served⟩

/-- A message was sent, worked on and completed. Sent again right after it was deleted it changes the store, and the
next claim hands it out once more. -/
theorem resend_works_again :
    let e := Cleanup.queue.acts Cleanup.complete
    let e' := e.act (.move ⟨0, .worker 0⟩)
    .nil ∈ e.site.sent ∧ (e.store.get? .nil).any (·.status == .complete) = true ∧
      e'.store.enqueue (.blank .nil) ≠ e'.store ∧
      ((e'.store.enqueue (.blank .nil)).tryClaim ⟨"other"⟩ { types := ["job"] } .epoch).1.any (·.id == .nil) = true := by
  refine ⟨by decide +kernel, by decide +kernel, ?_, by decide +kernel⟩
  rw [ne_eq, Store.enqueue_eq_iff, not_not]
  decide +kernel

end ClaimQueue
