/-
  ClaimQueue.Proofs.Crew.Accounts — what a crew knows of its claims and of its pass.

  While a worker has a claim in hand it makes no other, so if it holds the message at all,
  then by that claim (`Owned`): nobody else can make it the holder again, and of a message
  that is held only the heartbeat moves. And the pass waits for just as many reports as it
  has jobs under way (`Balanced`), so when it waits for none, every job was answered.
-/

import ClaimQueue.Proofs.Crew.Claims

namespace ClaimQueue

/-- The reports that a refresh waits for. -/
def Tending.due : Tending → Nat
  | .refreshing _ due => due
  | _ => 0

namespace Crew

/-- What a worker holds of the message in its hands is its claim. -/
def Owned (c : Crew) (s : Site) : Prop :=
  ∀ w ∈ c.workers, ∀ m, w.phase.message? = some m → s.store.Owns w.id m

/-- Every report that is due is of a job under way. -/
def Balanced (c : Crew) : Prop := c.tending.due = c.jobs.length

variable {a : Happening} {c c' : Crew} {s s' : Site} {asked : Option Asked}

/-- The workers after one of them moved. -/
theorem mem_moved {w w' u : Worker} {before after : List Worker} (once : c.names.Nodup)
    (split : c.workers = before ++ w :: after) (mem : u ∈ before ++ w' :: after) :
    u = w' ∨ (u ∈ c.workers ∧ w.id ≠ u.id) := by
  have apart := once
  rw [Crew.names, split, List.map_append, List.map_cons, List.nodup_append, List.nodup_cons] at apart
  rcases List.mem_append.mp mem with first | rest
  · refine Or.inr ⟨split ▸ List.mem_append_left _ first, Ne.symm ?_⟩
    exact apart.2.2 u.id (List.mem_map_of_mem first) w.id List.mem_cons_self
  · rcases List.mem_cons.mp rest with rfl | last
    · exact Or.inl rfl
    · refine Or.inr ⟨split ▸ List.mem_append_right _ (List.mem_cons_of_mem _ last), fun same => ?_⟩
      exact apart.2.1.1 (same ▸ List.mem_map_of_mem last)

/-! ## Claims in hand -/

namespace Owned

theorem fresh (config : QueueConfig) (filter : ClaimFilter) (ids : List WorkerId) (duties : List Duty) (s : Site) :
    (Crew.fresh config filter ids duties).Owned s := by
  intro w mem m claimed
  obtain ⟨_, _, rfl⟩ := List.mem_map.mp mem
  cases claimed

/-- The same crew after a request that is no claim of its workers. -/
theorem spared (owned : c.Owned s) (distinct : s.store.Distinct) (workers : c'.workers = c.workers)
    (store : s'.store = s.store.after asked) (spares : ∀ worker ∈ c.names, asked.all (·.2.spares worker) = true) :
    c'.Owned s' := by
  intro w mem m claimed
  rw [workers] at mem
  rw [store]
  exact (owned w mem m claimed).after distinct (spares w.id (List.mem_map.mpr ⟨w, mem, rfl⟩))

/-- A worker that moves has the claim it had, a new one, or none. -/
theorem moved {w w' : Worker} {scene scene' : Scene} (owned : ∀ m, w.phase.message? = some m → s.store.Owns w.id m)
    (distinct : s.store.Distinct) (site : scene.site = s) (step : Worker.Step w w' scene scene' asked) :
    ∀ m, w'.phase.message? = some m → (s.store.after asked).Owns w'.id m := by
  subst site
  intro m claimed
  rw [step.id]
  cases step.moves with
  | stays same => exact owned m (same ▸ claimed)
  | asks r _ free =>
    rw [free] at claimed
    cases claimed
  | claims m' _ phase made =>
    rw [phase] at claimed
    cases claimed
    obtain ⟨stored, _⟩ := Store.get?_claimed distinct made
    intro m'' after _
    obtain rfl : m = m'' := Option.some.inj (stored.symm.trans after)
    exact ⟨m.heartbeatAt, rfl⟩
  | opens m' before after =>
    rw [after] at claimed
    cases claimed
    exact owned _ (by rw [before]; rfl)
  | ends m' token before after =>
    rw [after] at claimed
    cases claimed
    exact owned _ (by rw [before]; rfl)
  | closes m' _ free =>
    rw [free] at claimed
    cases claimed

theorem sees (owned : c.Owned s) (once : c.names.Nodup) (distinct : s.store.Distinct) (seen : Sees a c c' s s') :
    c'.Owned s' := by
  cases seen with
  | moves asked step =>
    cases step.moves with
    | works w w' before after split split' works =>
      intro u mem m claimed
      have store : s'.store = s.store.after asked := step.site.store
      rw [store]
      rw [split'] at mem
      rcases mem_moved once split mem with rfl | ⟨mem, other⟩
      · exact moved (owned w (by simp [split])) distinct rfl works m claimed
      · exact (owned u mem m claimed).after distinct (works.spares other)
    | tends workers tends =>
      exact owned.spared distinct workers step.site.store fun worker _ => by cases tends <;> rfl
    | asks r plain workers =>
      exact owned.spared distinct workers step.site.store fun worker _ => Request.spares_of_plain plain worker
  | hears asked same leads spares _ => exact owned.spared distinct (by rw [same]) leads.store spares
  | waits clock time same site =>
    subst same site
    exact owned
  | dismissed same site =>
    subst same site
    exact owned

end Owned

/-! ## Jobs under way -/

theorem length_jobs (c : Crew) : c.jobs.length = c.tending.unsent.length + c.waiting.length + c.answered.length := by
  simp [Crew.jobs, Nat.add_assoc]

namespace Balanced

/-- The same jobs in the same pass. -/
theorem still (balanced : c.Balanced) (tending : c'.tending = c.tending) (jobs : SameJobs c c') : c'.Balanced := by
  unfold Balanced at balanced ⊢
  rw [length_jobs] at balanced ⊢
  rw [tending, jobs.waiting.length_eq, jobs.answered.length_eq]
  exact balanced

theorem tends (balanced : c.Balanced) (tends : Tends c c' s asked) : c'.Balanced := by
  have before := balanced
  unfold Balanced at balanced ⊢
  rw [length_jobs] at balanced ⊢
  cases tends with
  | stays tending jobs => exact length_jobs c' ▸ before.still tending jobs
  | turns turned jobs =>
    rw [jobs.waiting.length_eq, jobs.answered.length_eq]
    rcases turned with ⟨before, after⟩ | ⟨before | before, after⟩
    all_goals
      rw [before] at balanced
      rw [after]
      exact balanced
  | takes before after jobs =>
    rw [jobs.waiting.length_eq, jobs.answered.length_eq]
    rw [before] at balanced
    simp only [Tending.due, Tending.unsent, List.length_nil] at balanced
    rw [after]
    split
    · exact balanced
    · simp only [Tending.due, Tending.unsent]
      omega
  | sends job rest due before after waiting answered =>
    rw [before] at balanced
    rw [after, waiting.length_eq, answered.length_eq]
    simp only [Tending.due, Tending.unsent, List.length_cons] at balanced ⊢
    omega
  | serves job tending waiting answered =>
    rw [waiting.length_eq] at balanced
    rw [tending, answered.length_eq]
    simp only [List.length_cons] at balanced ⊢
    omega
  | looks r left before after kept waiting answered =>
    rw [before, answered.length_eq] at balanced
    rw [after, waiting.length_eq]
    simp only [Tending.due, Tending.unsent, List.length_cons] at balanced ⊢
    omega
  | drops r left before after lost waiting answered =>
    rw [before, answered.length_eq] at balanced
    rw [after, waiting.length_eq]
    simp only [Tending.due, Tending.unsent, List.length_cons] at balanced ⊢
    omega
  | completes before after jobs =>
    rw [before] at balanced
    rw [after, jobs.waiting.length_eq, jobs.answered.length_eq]
    exact balanced
  | scans ids before after scanned jobs =>
    rw [before] at balanced
    rw [after, jobs.waiting.length_eq, jobs.answered.length_eq]
    exact balanced
  | revokes id rest before after jobs =>
    rw [before] at balanced
    rw [after, jobs.waiting.length_eq, jobs.answered.length_eq]
    exact balanced

theorem fresh (config : QueueConfig) (filter : ClaimFilter) (ids : List WorkerId) (duties : List Duty) :
    (Crew.fresh config filter ids duties).Balanced := by
  unfold Balanced
  rw [length_jobs, tending_fresh]
  rfl

theorem sees (balanced : c.Balanced) (seen : Sees a c c' s s') : c'.Balanced := by
  cases seen with
  | moves asked step =>
    cases step.moves with
    | works w w' before after split split' works tending jobs => exact balanced.still tending jobs
    | tends workers tends => exact balanced.tends tends
    | asks r plain workers tending jobs => exact balanced.still tending jobs
  | hears asked same => exact same ▸ balanced
  | waits clock time same => exact same ▸ balanced
  | dismissed same =>
    subst same
    exact balanced

/-- A pass that waits for no report has no job under way. -/
theorem no_jobs (balanced : c.Balanced) (none : c.tending.due = 0) : c.jobs = [] :=
  List.eq_nil_of_length_eq_zero (balanced.symm.trans none)

end Balanced

end Crew

namespace Engine

variable {e : Engine}

theorem Reached.owned (reached : e.Reached) : ∀ c ∈ e.crews, c.Owned e.site :=
  reached.crews (fun config filter ids duties s _ => Crew.Owned.fresh config filter ids duties s)
    fun _ _ _ _ _ _ once _ distinct owned seen => owned.sees once distinct seen

theorem Reached.balanced (reached : e.Reached) : ∀ c ∈ e.crews, c.Balanced :=
  reached.crews (P := fun c _ => c.Balanced)
    (fun config filter ids duties _ _ => Crew.Balanced.fresh config filter ids duties)
    fun _ _ _ _ _ _ _ _ _ balanced seen => balanced.sees seen

end Engine

end ClaimQueue
