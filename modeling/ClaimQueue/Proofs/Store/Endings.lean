/-
  ClaimQueue.Proofs.Store.Endings — how messages end, and who has to delete them then.

  Two requests end messages: an outcome that is terminal ends the one it names, and a scan
  for what expired ends all it lists (`finished`). An ended message stays as it is, and leaves
  the store only when somebody deletes it.

  Who ends a message under the purge keeps its id on a list until the deletion is served.
  `Discards` says what one step may do to such a list, whoever keeps it and whatever is
  served in the step; lists of several members are put side by side (`Discards.frame`).
-/

import ClaimQueue.Config.Queue
import ClaimQueue.Proofs.Store.Held
import ClaimQueue.Proofs.Store.Lifecycle

namespace ClaimQueue

/-- Requests that end no message and take none out of the store. -/
def Request.isGentle : Request → Bool
  | .remove | .updateStatus _ _ _ | .delete _ | .expireDue => false
  | _ => true

/-- Requests that can end messages. -/
def Request.isEnding : Request → Bool
  | .updateStatus _ _ _ | .expireDue => true
  | _ => false

namespace Store

/-- The messages that end by what is asked. -/
def finished (s : Store) : Option Asked → List MessageId
  | some (now, .updateStatus id change version) =>
    match (s.updateStatus id change version now).1 with
    | .ok out => if out.status.isTerminal then [id] else []
    | .error _ => []
  | some (now, .expireDue) => (s.expireDue now).1
  | _ => []

variable {s : Store} {asked : Option Asked} {now : Instant} {id : MessageId} {m m' : Message}

theorem finished_gentle (gentle : asked.all (·.2.isGentle) = true) : s.finished asked = [] := by
  rcases asked with _ | ⟨now, r⟩
  · rfl
  · cases r with
    | updateStatus | expireDue => cases gentle
    | _ => rfl

theorem mem_expireDue (distinct : s.Distinct) :
    id ∈ (s.expireDue now).1 ↔ ∃ m, s.get? id = some m ∧ isDue now m = true := by
  simp only [expireDue, List.mem_map, List.mem_filter]
  constructor
  · rintro ⟨m, ⟨mem, due⟩, rfl⟩
    exact ⟨m, distinct.get?_of_mem mem, due⟩
  · rintro ⟨m, stored, due⟩
    exact ⟨m, ⟨mem_of_get? stored, due⟩, get?_id stored⟩

theorem terminal_of_finished (distinct : s.Distinct) (finished : id ∈ s.finished asked) :
    ∃ m, (s.after asked).get? id = some m ∧ m.status.isTerminal = true := by
  unfold Store.finished at finished
  split at finished
  · rename_i now i change version
    split at finished
    · rename_i out reply
      split at finished
      · obtain rfl := List.mem_singleton.mp finished
        obtain ⟨_, _, _, _, _, rfl, after⟩ := updateStatus_ok reply
        exact ⟨_, (after id).trans (if_pos rfl), ‹_›⟩
      · cases finished
    · cases finished
  · rename_i now
    obtain ⟨m, stored, due⟩ := (mem_expireDue distinct).mp finished
    refine ⟨({ src := m.status, dst := .expired } : Change).apply m now, ?_, rfl⟩
    show (s.expireDue now).2.get? id = _
    rw [get?_expireDue, stored, Option.map_some, if_pos due]
  · cases finished

/-- What has ended had ended before, or ends now, or was sent so. -/
theorem ended_before (distinct : s.Distinct) (after : (s.after asked).get? id = some m)
    (ended : m.status.isTerminal = true) :
    s.get? id = some m ∨ id ∈ s.finished asked ∨ ∃ now, asked = some (now, .enqueue m) := by
  rcases asked with _ | ⟨now, r⟩
  · exact Or.inl after
  let t : Served := ⟨now, r, s⟩
  cases before : s.get? id with
  | none =>
    have sent : r = .enqueue m := Served.arrival (t := t) before after
    exact Or.inr (Or.inr ⟨now, by rw [sent]⟩)
  | some m₀ =>
    have same := get?_id before
    have fate : t.Fate m₀ (some m) := after ▸ Served.fate (t := t) distinct before
    cases fate with
    | kept => exact Or.inl rfl
    | refreshed worker _ held =>
      have working : m₀.status.isTerminal = true := ended
      rw [(working_of_holds held).1] at working
      cases working
    | claimed => cases ended
    | reclaimed => cases ended
    | promoted => cases ended
    | changed change asked allowed src =>
      have asked : r = .updateStatus m₀.id change m₀.version := asked
      have made : (s.updateStatus id change m₀.version now).1 = .ok (change.apply m₀ now) :=
        updateStatus_made before allowed src.symm
      have ended : (change.apply m₀ now).status.isTerminal = true := ended
      refine Or.inr (Or.inl ?_)
      simp only [finished, asked, same, made]
      rw [if_pos ended]
      exact List.mem_singleton_self id
    | expired asked due =>
      have asked : r = .expireDue := asked
      refine Or.inr (Or.inl ?_)
      rw [asked]
      exact (mem_expireDue distinct).mpr ⟨m₀, before, due⟩

/-- What has ended stays as it is while it is there. -/
theorem terminal_after (distinct : s.Distinct) (stored : s.get? id = some m) (ended : m.status.isTerminal = true)
    (after : (s.after asked).get? id = some m') : m' = m := by
  rcases asked with _ | ⟨now, r⟩
  · exact Option.some.inj (after.symm.trans stored)
  · have fate : Served.Fate ⟨now, r, s⟩ m (some m') := after ▸ Served.fate (t := ⟨now, r, s⟩) distinct stored
    exact fate.terminal ended

/-- What is gone was deleted, or all was. -/
theorem gone_after (distinct : s.Distinct) (stored : s.get? id = some m) (gone : (s.after asked).get? id = none) :
    ∃ now, asked = some (now, .delete id) ∨ asked = some (now, .remove) := by
  rcases asked with _ | ⟨now, r⟩
  · cases stored.symm.trans gone
  · have fate : Served.Fate ⟨now, r, s⟩ m none := gone ▸ Served.fate (t := ⟨now, r, s⟩) distinct stored
    refine ⟨now, fate.asked.imp (fun asked => ?_) fun asked => ?_⟩
    · exact congrArg (fun r => some (now, r)) (get?_id stored ▸ asked)
    · exact congrArg (fun r => some (now, r)) asked

/-- What is new was sent. -/
theorem arrival_after (absent : s.get? id = none) (after : (s.after asked).get? id = some m) :
    ∃ now, asked = some (now, .enqueue m) := by
  rcases asked with _ | ⟨now, r⟩
  · cases absent.symm.trans after
  · exact ⟨now, congrArg (fun r => some (now, r)) (Served.arrival (t := ⟨now, r, s⟩) absent after)⟩

theorem deleted_after (s : Store) (now : Instant) (id : MessageId) :
    (s.after (some (now, .delete id))).get? id = none := by
  show (s.delete id).2.get? id = none
  rw [get?_delete, if_pos rfl]

end Store

/-- What a step does to a list of messages that have ended and are to be deleted, where `asked` is served in
the step: new on the list is only what ends now, under the purge all of that, and off the list and deleted is
only what was on it. -/
structure Discards (retention : Retention) (ds ds' : List MessageId) (s : Store) (asked : Option Asked) : Prop where
  new : ∀ id ∈ ds', id ∈ ds ∨ retention = .purge ∧ id ∈ s.finished asked
  kept : ∀ id ∈ ds, id ∈ ds' ∨ ∃ now, asked = some (now, .delete id)
  listed : retention = .purge → ∀ id ∈ s.finished asked, id ∈ ds'
  deletes : ∀ now id, asked = some (now, .delete id) → id ∈ ds
  spares : ∀ now, asked ≠ some (now, .remove)

namespace Discards

variable {retention : Retention} {ds ds' : List MessageId} {s : Store} {asked : Option Asked}

/-- A step in which nothing is asked but what ends and deletes nothing. -/
theorem rests (gentle : asked.all (·.2.isGentle) = true) : Discards retention ds ds s asked where
  new id mem := Or.inl mem
  kept id mem := Or.inl mem
  listed _ id mem := by
    rw [Store.finished_gentle gentle] at mem
    cases mem
  deletes now id asks := by
    rw [asks] at gentle
    cases gentle
  spares now asks := by
    rw [asks] at gentle
    cases gentle

/-- A deletion of what is first on the list. -/
theorem deletion (retention : Retention) (s : Store) (now : Instant) (id : MessageId) (rest : List MessageId) :
    Discards retention (id :: rest) rest s (some (now, .delete id)) where
  new i mem := Or.inl (List.mem_cons_of_mem _ mem)
  kept i mem := by
    rcases List.mem_cons.mp mem with rfl | mem
    · exact Or.inr ⟨now, rfl⟩
    · exact Or.inl mem
  listed _ _ := nofun
  deletes at_ i asks := by
    cases asks
    exact List.mem_cons_self
  spares at_ := nofun

/-- An ending of messages, which are listed just under the purge. -/
theorem ending (listed : ds = if retention = .purge then s.finished asked else [])
    (ends : asked.all (·.2.isEnding) = true) : Discards retention [] ds s asked where
  new id mem := by
    rw [listed] at mem
    split at mem
    · exact Or.inr ⟨‹_›, mem⟩
    · cases mem
  kept _ := nofun
  listed purge id mem := by
    rw [listed, if_pos purge]
    exact mem
  deletes now id asks := by
    rw [asks] at ends
    cases ends
  spares now asks := by
    rw [asks] at ends
    cases ends

/-- The list of one member among those of others. -/
theorem frame (d : Discards retention ds ds' s asked) (before after : List MessageId) :
    Discards retention (before ++ (ds ++ after)) (before ++ (ds' ++ after)) s asked where
  new id mem := by
    simp only [List.mem_append] at mem ⊢
    rcases mem with mem | mem | mem
    · exact Or.inl (Or.inl mem)
    · exact (d.new id mem).imp_left fun mem => Or.inr (Or.inl mem)
    · exact Or.inl (Or.inr (Or.inr mem))
  kept id mem := by
    simp only [List.mem_append] at mem ⊢
    rcases mem with mem | mem | mem
    · exact Or.inl (Or.inl mem)
    · exact (d.kept id mem).imp_left fun mem => Or.inr (Or.inl mem)
    · exact Or.inl (Or.inr (Or.inr mem))
  listed purge id mem := by
    simp only [List.mem_append]
    exact Or.inr (Or.inl (d.listed purge id mem))
  deletes now id asks := by
    simp only [List.mem_append]
    exact Or.inr (Or.inl (d.deletes now id asks))
  spares := d.spares

end Discards

end ClaimQueue
