/-
  ClaimQueue.Proofs.Config.Heartbeat — how often an accepted configuration refreshes.

  Text gives the time after which a claim is dead in whole milliseconds, and `check` refuses
  none at all, so it is a millisecond or more. The pause between two passes is a part of that
  time, or a millisecond where the part is shorter; either way it is no longer than the time.
-/

import ClaimQueue.Config.Source
import ClaimQueue.Proofs.Upkeep.Silence

namespace ClaimQueue

/-- The pause between two passes, which is a matter of the heartbeat settings alone. -/
def HeartbeatConfig.pause (c : HeartbeatConfig) : Span := QueueConfig.pause { heartbeat := c }

theorem QueueConfig.pause_eq (c : QueueConfig) : c.pause = c.heartbeat.pause := rfl

/-- A setting is its default, or what is read where the section has it. -/
theorem Form.setting_cases {α : Type} {s : Section} {name : String} {read : Json → Option α} {default value : α}
    (given : setting s name read default = some value) :
    value = default ∨ ∃ j, s name = some j ∧ read j = some value := by
  unfold setting at given
  cases found : s name with
  | none =>
    rw [found] at given
    cases given
    exact Or.inl rfl
  | some j =>
    rw [found] at given
    exact Or.inr ⟨j, rfl, given⟩

theorem Form.span?_millis {j : Json} {d : Span} (read : span? j = some d) : ∃ ms, d = .ofMillis ms := by
  obtain ⟨ms, _, rfl⟩ := Option.map_eq_some_iff.mp read
  exact ⟨ms, rfl⟩

theorem Form.heartbeat?_time {j : Json} {c : HeartbeatConfig} (read : heartbeat? j = some c) :
    ∃ ms, c.time = .ofMillis ms := by
  simp only [heartbeat?, Option.bind_eq_bind, Option.bind_eq_some_iff] at read
  obtain ⟨s, _, enabled, _, interval, _, time, given, lookback, _, pool, _, made⟩ := read
  cases made
  rcases setting_cases given with rfl | ⟨_, _, read⟩
  · exact ⟨600000, rfl⟩
  · exact span?_millis read

theorem Form.queue?_time {j : Json} {c : QueueConfig} (read : queue? j = some c) :
    ∃ ms, c.heartbeat.time = .ofMillis ms := by
  simp only [queue?, Option.bind_eq_bind, Option.bind_eq_some_iff] at read
  obtain ⟨s, _, worker, _, heartbeat, given, rest⟩ := read
  have same : c.heartbeat = heartbeat := by
    obtain ⟨_, _, _, _, _, _, _, _, _, _, _, _, _, _, _, _, _, _, made⟩ := rest
    cases made
    rfl
  rw [same]
  rcases setting_cases given with rfl | ⟨_, _, read⟩
  · exact ⟨600000, rfl⟩
  · exact heartbeat?_time read

namespace QueueConfig

variable {text : String} {c : QueueConfig}

theorem ofToml_ok (accepted : ofToml text = .ok c) : (∃ j, Form.queue? j = some c) ∧ c.check = .ok () := by
  unfold ofToml at accepted
  split at accepted
  · cases accepted
  · rename_i c' read
    obtain ⟨j, _, read⟩ := Option.bind_eq_some_iff.mp read
    cases checked : c'.check with
    | error e =>
      rw [checked] at accepted
      cases accepted
    | ok =>
      rw [checked] at accepted
      cases accepted
      exact ⟨⟨j, read⟩, checked⟩

theorem time_of_check (checked : c.check = .ok ()) : c.heartbeat.time.isZero = false := by
  refine Bool.eq_false_iff.mpr fun zero => ?_
  unfold check fault? at checked
  rw [if_pos zero] at checked
  split at checked
  · cases checked
  · rename_i none
    split at none
    · cases none
    · split at none <;> cases none

/-- A claim is dead after a millisecond at the earliest. -/
theorem time_of_ofToml (accepted : ofToml text = .ok c) : Span.ofMillis 1 ≤ c.heartbeat.time := by
  obtain ⟨⟨j, read⟩, checked⟩ := ofToml_ok accepted
  obtain ⟨ms, time⟩ := Form.queue?_time read
  have positive := time_of_check checked
  rw [time] at positive ⊢
  show 1 * 1_000_000 ≤ ms.toNat * 1_000_000
  simp only [Span.isZero, Span.ofMillis, beq_eq_false_iff_ne] at positive
  omega

/-- Claims are refreshed before they can be dead. -/
theorem pause_le_time (accepted : ofToml text = .ok c) : c.heartbeat.pause ≤ c.heartbeat.time := by
  rw [← pause_eq]
  unfold pause Monitor.period
  split
  · exact time_of_ofToml accepted
  · exact Nat.div_le_self _ _

end QueueConfig

end ClaimQueue
