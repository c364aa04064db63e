/-
  ClaimQueue.Proofs.Work.Book — a book of claims as its entries show it.

  A book has one entry per message (`Keyed`). Then an entry is what `get?` finds under its
  id, and removing or revoking a claim takes that entry and no other.
-/

import ClaimQueue.Work.ClaimBook

namespace ClaimQueue.ClaimBook

variable {b : ClaimBook} {id i : MessageId} {h h' : Holding} {worker : WorkerId}

def Keyed (b : ClaimBook) : Prop := (b.entries.map (·.1)).Nodup

theorem mem_of_get? (found : b.get? id = some h) : (id, h) ∈ b.entries := by
  obtain ⟨before, after, split, _⟩ := List.lookup_eq_some_iff.mp found
  rw [split]
  exact List.mem_append_right _ List.mem_cons_self

theorem Keyed.get?_of_mem (keyed : b.Keyed) (mem : (id, h) ∈ b.entries) : b.get? id = some h := by
  obtain ⟨before, after, split⟩ := List.append_of_mem mem
  refine List.lookup_eq_some_iff.mpr ⟨before, after, split, ?_⟩
  intro e first
  unfold Keyed at keyed
  rw [split, List.map_append, List.map_cons, List.nodup_append] at keyed
  have := keyed.2.2 e.1 (List.mem_map_of_mem first) id List.mem_cons_self
  simpa using Ne.symm this

theorem mem_without : (i, h) ∈ (b.without id).entries ↔ (i, h) ∈ b.entries ∧ i ≠ id := by
  simp [without]

theorem mem_register : (i, h') ∈ (b.register id h).entries ↔
    ((i, h') ∈ b.entries ∧ i ≠ id) ∨ (i = id ∧ h' = h) := by
  simp [register, mem_without]

theorem Keyed.without (keyed : b.Keyed) (id : MessageId) : (b.without id).Keyed :=
  List.Nodup.sublist (List.filter_sublist.map _) keyed

theorem Keyed.register (keyed : b.Keyed) (id : MessageId) (h : Holding) : (b.register id h).Keyed := by
  unfold Keyed ClaimBook.register
  rw [List.map_append, List.nodup_append]
  refine ⟨keyed.without id, by simp, ?_⟩
  intro i listed j last
  obtain ⟨⟨i, h'⟩, mem, rfl⟩ := List.mem_map.mp listed
  rw [List.map_singleton, List.mem_singleton] at last
  rw [last]
  exact (mem_without.mp mem).2

/-- Removing takes the entry of the message if it is of the worker. -/
theorem remove_cases (b : ClaimBook) (id : MessageId) (worker : WorkerId) :
    (∃ h, b.get? id = some h ∧ h.worker = worker ∧ b.remove id worker = (some h, b.without id)) ∨
      ((∀ h, b.get? id = some h → h.worker ≠ worker) ∧ b.remove id worker = (none, b)) := by
  unfold remove
  cases found : b.get? id with
  | none => exact Or.inr ⟨fun _ => nofun, rfl⟩
  | some h =>
    by_cases own : h.worker = worker
    · exact Or.inl ⟨h, rfl, own, if_pos own⟩
    · exact Or.inr ⟨fun h' same => Option.some.inj same ▸ own, if_neg own⟩

theorem revoke_cases (b : ClaimBook) (id : MessageId) :
    (∃ h, b.get? id = some h ∧ b.revoke id = (some h, b.without id)) ∨
      (b.get? id = none ∧ b.revoke id = (none, b)) := by
  unfold revoke
  cases b.get? id with
  | none => exact Or.inr ⟨rfl, rfl⟩
  | some h => exact Or.inl ⟨h, rfl, rfl⟩

theorem Keyed.remove (keyed : b.Keyed) (id : MessageId) (worker : WorkerId) : (b.remove id worker).2.Keyed := by
  rcases b.remove_cases id worker with ⟨h, _, _, e⟩ | ⟨_, e⟩
  · rw [e]
    exact keyed.without id
  · rw [e]
    exact keyed

theorem Keyed.revoke (keyed : b.Keyed) (id : MessageId) : (b.revoke id).2.Keyed := by
  rcases b.revoke_cases id with ⟨h, _, e⟩ | ⟨_, e⟩
  · rw [e]
    exact keyed.without id
  · rw [e]
    exact keyed

theorem mem_of_mem_remove (mem : (i, h) ∈ (b.remove id worker).2.entries) : (i, h) ∈ b.entries := by
  rcases b.remove_cases id worker with ⟨_, _, _, e⟩ | ⟨_, e⟩
  · rw [e] at mem
    exact (mem_without.mp mem).1
  · rw [e] at mem
    exact mem

theorem mem_of_mem_revoke (mem : (i, h) ∈ (b.revoke id).2.entries) : (i, h) ∈ b.entries := by
  rcases b.revoke_cases id with ⟨_, _, e⟩ | ⟨_, e⟩
  · rw [e] at mem
    exact (mem_without.mp mem).1
  · rw [e] at mem
    exact mem

theorem mem_remove_of_ne (mem : (i, h) ∈ b.entries) (other : i ≠ id) : (i, h) ∈ (b.remove id worker).2.entries := by
  rcases b.remove_cases id worker with ⟨_, _, _, e⟩ | ⟨_, e⟩
  · rw [e]
    exact mem_without.mpr ⟨mem, other⟩
  · rw [e]
    exact mem

theorem mem_revoke_of_ne (mem : (i, h) ∈ b.entries) (other : i ≠ id) : (i, h) ∈ (b.revoke id).2.entries := by
  rcases b.revoke_cases id with ⟨_, _, e⟩ | ⟨_, e⟩
  · rw [e]
    exact mem_without.mpr ⟨mem, other⟩
  · rw [e]
    exact mem

/-- Removing and revoking find the entry of the message. -/
theorem Keyed.removed (keyed : b.Keyed) (mem : (id, h) ∈ b.entries) : (b.remove id h.worker).1 = some h := by
  unfold ClaimBook.remove
  simp [keyed.get?_of_mem mem]

theorem Keyed.revoked (keyed : b.Keyed) (mem : (id, h) ∈ b.entries) : (b.revoke id).1 = some h := by
  unfold ClaimBook.revoke
  simp [keyed.get?_of_mem mem]

/-- After a worker removed its claim no entry of it is left there. -/
theorem Keyed.not_mem_remove (keyed : b.Keyed) (own : h.worker = worker) :
    (id, h) ∉ (b.remove id worker).2.entries := by
  intro mem
  have found := keyed.get?_of_mem (mem_of_mem_remove mem)
  rcases b.remove_cases id worker with ⟨_, _, _, e⟩ | ⟨other, _⟩
  · rw [e] at mem
    exact (mem_without.mp mem).2 rfl
  · exact other h found own

theorem Keyed.not_mem_revoke (keyed : b.Keyed) : (id, h) ∉ (b.revoke id).2.entries := by
  intro mem
  have found := keyed.get?_of_mem (mem_of_mem_revoke mem)
  rcases b.revoke_cases id with ⟨_, _, e⟩ | ⟨none, _⟩
  · rw [e] at mem
    exact (mem_without.mp mem).2 rfl
  · rw [none] at found
    cases found

/-- An entry that a removal took off the book is the one that was asked for. -/
theorem Keyed.of_removed (keyed : b.Keyed) (mem : (i, h) ∈ b.entries) (gone : (i, h) ∉ (b.remove id worker).2.entries) :
    i = id ∧ h.worker = worker ∧ (b.remove id worker).1 = some h := by
  rcases b.remove_cases id worker with ⟨h', found, own, e⟩ | ⟨_, e⟩
  · rw [e] at gone
    have same : i = id := Decidable.byContradiction fun other => gone (mem_without.mpr ⟨mem, other⟩)
    subst same
    have : h' = h := Option.some.inj (found.symm.trans (keyed.get?_of_mem mem))
    exact ⟨rfl, this ▸ own, by rw [e, this]⟩
  · rw [e] at gone
    exact absurd mem gone

end ClaimQueue.ClaimBook
