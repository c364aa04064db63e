/-
  ClaimQueue.Proofs.Crew.Members — whom an act is of.

  An act is one step of one worker, and of the others in all crews none moves; nobody else
  claims in the name of one that does not move (`Engine.act_member`). So a property of a
  worker and the store holds throughout a run if the steps of the worker keep it, and the
  requests that spare its name.
-/

import ClaimQueue.Proofs.Crew.Accounts

namespace ClaimQueue

theorem Tending.Moves.spares {t t' : Tending} {s s' : Scene} {asked : Option Asked} (moves : Moves t t' s s' asked)
    (worker : WorkerId) : asked.all (·.2.spares worker) = true := by
  cases moves with
  | asks r _ _ plain => exact Request.spares_of_plain plain worker
  | _ => rfl

theorem Runner.Moves.spares {r r' : Runner} {s s' : Scene} {asked : Option Asked} (moves : Moves r r' s s' asked)
    (worker : WorkerId) : asked.all (·.2.spares worker) = true := by
  cases moves <;> rfl

/-- Every worker after a move either made it, or was there before and was spared. -/
theorem Crew.move_member {c : Crew} {s : Site} (h : s.Settled) (once : c.names.Nodup) {t : Member} {w' : Worker}
    (mem : w' ∈ (c.move s t).1.muster.workers) :
    (w' ∈ c.workers ∧ ∃ asked, s.Follows asked (c.move s t).2 ∧ asked.all (·.2.spares w'.id) = true) ∨
      ∃ w ∈ c.workers, w' = (w.step ⟨s, c.desk⟩).1 ∧ (c.move s t).2 = (w.step ⟨s, c.desk⟩).2.site := by
  rw [muster_workers] at mem
  cases t with
  | worker i =>
    cases found : c.workers[i]? with
    | none =>
      simp only [move, found] at mem ⊢
      exact Or.inl ⟨mem, none, h.refl.toFollows, rfl⟩
    | some w =>
      simp only [move, found] at mem ⊢
      obtain ⟨before, after, split, changed⟩ := set_split found (w.step ⟨s, c.desk⟩).1
      rw [changed] at mem
      rcases mem_moved once split mem with rfl | ⟨mem, other⟩
      · exact Or.inr ⟨w, List.mem_of_getElem? found, rfl, rfl⟩
      · obtain ⟨asked, step⟩ := Worker.step_moves (s := ⟨s, c.desk⟩) h w
        exact Or.inl ⟨mem, asked, step.site.toFollows, step.spares other⟩
  | monitor i =>
    cases found : c.monitors[i]? with
    | none =>
      simp only [move, found] at mem ⊢
      exact Or.inl ⟨mem, none, h.refl.toFollows, rfl⟩
    | some m =>
      simp only [move, found] at mem ⊢
      obtain ⟨asked, step⟩ := Monitor.step_moves (s := ⟨s, c.desk⟩) h m
      exact Or.inl ⟨mem, asked, step.site.toFollows, step.moves.spares w'.id⟩
  | runner i =>
    cases found : c.runners[i]? with
    | none =>
      simp only [move, found] at mem ⊢
      exact Or.inl ⟨mem, none, h.refl.toFollows, rfl⟩
    | some r =>
      simp only [move, found] at mem ⊢
      obtain ⟨asked, step⟩ := Runner.step_moves (s := ⟨s, c.desk⟩) h r
      exact Or.inl ⟨mem, asked, step.site.toFollows, step.moves.spares w'.id⟩

namespace Engine

variable {e : Engine} {a : Happening}

/-- Every worker after a move of a crew that is there was spared, or made the step. -/
theorem move_member (sound : e.Sound) {t : Task} {c c' : Crew} (found : e.crews[t.crew]? = some c)
    (mem : c' ∈ (e.act (.move t)).crews) {w' : Worker} (mem' : w' ∈ c'.workers) :
    (∃ c ∈ e.crews, w' ∈ c.workers ∧ ∃ asked, e.site.Follows asked (e.act (.move t)).site ∧
        asked.all (·.2.spares w'.id) = true) ∨
      ∃ c ∈ e.crews, ∃ w ∈ c.workers, w' = (w.step ⟨e.site, c.desk⟩).1 ∧
        (e.act (.move t)).site = (w.step ⟨e.site, c.desk⟩).2.site := by
  have own := List.mem_of_getElem? found
  obtain ⟨i, found'⟩ := List.mem_iff_getElem?.mp mem
  obtain ⟨d, asked, step, crews⟩ := act_move sound found
  by_cases same : t.crew = i
  · subst same
    have once : c.names.Nodup := (List.pairwise_flatMap.mp sound.names).1 c own
    have moved : c' = (c.move e.site t.member).1.muster := by
      have := crew_move found t.member
      rw [crew, found'] at this
      exact this
    rw [site_move found]
    rw [moved] at mem'
    rcases Crew.move_member sound.settled once mem' with ⟨mem', spared⟩ | made
    · exact Or.inl ⟨c, own, mem', spared⟩
    · exact Or.inr ⟨c, own, made⟩
  · rw [crews, List.getElem?_set_ne same] at found'
    refine Or.inl ⟨c', List.mem_of_getElem? found', mem', asked, step.site.toFollows, ?_⟩
    exact step.spares (names_apart sound.names found' found (Ne.symm same) (List.mem_map_of_mem mem'))

/-- Every worker after an act was there before and was spared, or has just joined, or made the step. -/
theorem act_member (sound : e.Sound) (allowed : e.allows a = true) {c' : Crew} (mem : c' ∈ (e.act a).crews)
    {w' : Worker} (mem' : w' ∈ c'.workers) :
    (∃ c ∈ e.crews, w' ∈ c.workers ∧ ∃ asked, e.site.Follows asked (e.act a).site ∧
        asked.all (·.2.spares w'.id) = true) ∨
      (w'.stage = .starting ∧ (e.act a).site = e.site ∧
        ∃ config filter ids duties, a = .join config filter ids duties ∧ w'.id ∈ ids) ∨
      ∃ c ∈ e.crews, ∃ w ∈ c.workers, w' = (w.step ⟨e.site, c.desk⟩).1 ∧
        (e.act a).site = (w.step ⟨e.site, c.desk⟩).2.site := by
  -- an act in which nothing is asked
  have rests : ∀ c ∈ e.crews, w' ∈ c.workers → e.site.Follows none (e.act a).site →
      ∃ c ∈ e.crews, w' ∈ c.workers ∧ ∃ asked, e.site.Follows asked (e.act a).site ∧
        asked.all (·.2.spares w'.id) = true := fun c mem mem' quiet => ⟨c, mem, mem', none, quiet, rfl⟩
  cases a with
  | move t =>
    cases found : e.crews[t.crew]? with
    | none =>
      have same := act_nobody found
      rw [same] at mem
      exact Or.inl (rests c' mem mem' (same.symm ▸ ⟨rfl, rfl, rfl⟩))
    | some c =>
      rcases move_member sound found mem mem' with spared | made
      · exact Or.inl spared
      · exact Or.inr (Or.inr made)
  | request now r =>
    refine Or.inl ⟨c', mem, mem', some (now, r), (sound.settled.serveAt now r).toFollows, ?_⟩
    exact List.all_eq_true.mp allowed w'.id (List.mem_flatMap.mpr ⟨c', mem, List.mem_map_of_mem mem'⟩)
  | wait clock time => exact Or.inl (rests c' mem mem' ⟨rfl, rfl, rfl⟩)
  | join config filter ids duties =>
    rcases List.mem_append.mp mem with mem | mem
    · exact Or.inl (rests c' mem mem' ⟨rfl, rfl, rfl⟩)
    · cases List.mem_singleton.mp mem
      refine Or.inr (Or.inl ⟨?_, rfl, config, filter, ids, duties, rfl, ?_⟩)
      · obtain ⟨_, _, rfl⟩ := List.mem_map.mp mem'
        rfl
      · rw [← Crew.names_fresh config filter ids duties]
        exact List.mem_map_of_mem mem'
  | dismiss i =>
    have quiet : e.site.Follows none (e.act (.dismiss i)).site := by
      simp only [act]
      split <;> exact ⟨rfl, rfl, rfl⟩
    cases found : e.crews[i]? with
    | none =>
      simp only [act, found] at mem
      exact Or.inl (rests c' mem mem' quiet)
    | some c =>
      simp only [act, found, setCrew] at mem
      rcases List.mem_or_eq_of_mem_set mem with mem | rfl
      · exact Or.inl (rests c' mem mem' quiet)
      · exact Or.inl (rests c (List.mem_of_getElem? found) mem' quiet)

end Engine

end ClaimQueue
