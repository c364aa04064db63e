/-
  ClaimQueue.Proofs.Crew.Beats — how fresh the heartbeats of a crew's claims are.

  A refresh sets the heartbeat of every claim that was on the book when it took its snapshot
  and is held still. So whatever a worker holds was heard of since the snapshot of the last
  refresh that was completed (`serving`); during a refresh, since its own snapshot already,
  unless the job is still under way (`refreshed`). A claim not on the book yet was just made
  (`claimed`), for it is registered at the instant it is made.
-/

import ClaimQueue.Proofs.Crew.Accounts

namespace ClaimQueue

/-- When a crew took its snapshots. -/
structure Beat where
  /-- The snapshot of the refresh under way, or of the last one. -/
  begun : Instant
  /-- The snapshot of the last refresh that was completed; before the first, when the crew started. -/
  last : Instant

/-- The beat after a step at `now` that took the pass from one place to another. -/
def Beat.next (b : Beat) (now : Instant) : Tending → Tending → Beat
  | .beginning, .refreshing _ _ => { b with begun := now }
  | .beginning, .scanning => ⟨now, now⟩
  | .refreshing _ _, .scanning => { b with last := b.begun }
  | _, _ => b

theorem Beat.next_self (b : Beat) (now : Instant) (t : Tending) : b.next now t t = b := by cases t <;> rfl

/-- Is the claim made and not registered yet? -/
def Phase.isClaimed : Phase → Bool
  | .claimed _ => true
  | _ => false

namespace Crew

/-- Has every worker registered its claim? -/
def isRegistered (c : Crew) : Bool := c.workers.all fun w => !w.phase.isClaimed

/-- Is every claim on the book whose handler is at work, as long as it is held? -/
def isBooked (c : Crew) (s : Store) : Bool :=
  c.workers.all fun w =>
    !w.serves fun m token => s.held m.id w.id && !c.desk.claims.entries.contains (m.id, ⟨w.id, token⟩)

structure Alive (c : Crew) (s : Site) (b : Beat) : Prop where
  last : b.last ≤ s.now
  begun : b.begun ≤ s.now
  claimed : ∀ w ∈ c.workers, ∀ m, w.phase = .claimed m → s.store.HeardSince m.id w.id s.now
  serving : ∀ w ∈ c.workers, ∀ m token, w.phase = .serving m token → s.store.HeardSince m.id w.id b.last
  refreshed : ∀ w ∈ c.workers, ∀ m token, w.phase = .serving m token → c.tending.isRefreshing = true →
    s.store.HeardSince m.id w.id b.begun ∨
      ∃ job, (job ∈ c.tending.unsent ∨ job ∈ c.waiting) ∧ job.id = m.id ∧ job.holding.worker = w.id

variable {a : Happening} {c c' : Crew} {s s' : Site} {asked : Option Asked} {b : Beat}

theorem listed_of_booked (booked : c.isBooked s.store = true) {w : Worker} (mem : w ∈ c.workers) {m : Message}
    {token : Token} (serving : w.phase = .serving m token) (held : s.store.held m.id w.id = true) :
    (⟨m.id, ⟨w.id, token⟩⟩ : Job) ∈ c.desk.claims.jobs := by
  have fits := List.all_eq_true.mp booked w mem
  rw [Worker.serves, serving] at fits
  simpa [held, ClaimBook.mem_jobs] using fits

namespace Alive

theorem fresh (config : QueueConfig) (filter : ClaimFilter) (ids : List WorkerId) (duties : List Duty) (s : Site) :
    (Crew.fresh config filter ids duties).Alive s ⟨s.now, s.now⟩ := by
  have free : ∀ w ∈ (Crew.fresh config filter ids duties).workers, w.phase = .free := by
    intro w mem
    obtain ⟨_, _, rfl⟩ := List.mem_map.mp mem
    rfl
  refine ⟨Int.le_refl _, Int.le_refl _, fun w mem m claimed => ?_, fun w mem m token serving => ?_,
    fun w mem m token serving => ?_⟩
  · rw [free w mem] at claimed
    cases claimed
  · rw [free w mem] at serving
    cases serving
  · rw [free w mem] at serving
    cases serving

/-- The same crew, some time later. -/
theorem wait (alive : c.Alive s b) (store : s'.store = s.store) (onward : s.now ≤ s'.now)
    (prompt : c.isRegistered = true ∨ s'.now = s.now) : c.Alive s' b := by
  refine ⟨Int.le_trans alive.last onward, Int.le_trans alive.begun onward, fun w mem m claimed => ?_, ?_, ?_⟩
  · rcases prompt with registered | same
    · have := List.all_eq_true.mp registered w mem
      rw [claimed] at this
      cases this
    · rw [store, same]
      exact alive.claimed w mem m claimed
  · rw [store]
    exact alive.serving
  · rw [store]
    exact alive.refreshed

/-- The workers stay where they are. A refresh that completes, or begins, tells of the claims. -/
theorem stay {b' : Beat} (alive : c.Alive s b) (distinct : s.store.Distinct) (workers : c'.workers = c.workers)
    (site : s.Leads asked s') (instant : ∀ now r, asked = some (now, r) → now = s.now)
    (spares : ∀ worker ∈ c.names, asked.all (·.2.spares worker) = true) (last : b'.last ≤ s.now)
    (begun : b'.begun ≤ s.now)
    (serving : ∀ w ∈ c.workers, ∀ m token, w.phase = .serving m token → s.store.HeardSince m.id w.id b'.last)
    (refreshed : ∀ w ∈ c.workers, ∀ m token, w.phase = .serving m token → c'.tending.isRefreshing = true →
      (s.store.after asked).HeardSince m.id w.id b'.begun ∨
        ∃ job, (job ∈ c'.tending.unsent ∨ job ∈ c'.waiting) ∧ job.id = m.id ∧ job.holding.worker = w.id) :
    c'.Alive s' b' := by
  have now : s'.now = s.now := site.now
  have store : s'.store = s.store.after asked := site.store
  have spares' : ∀ w ∈ c.workers, asked.all (·.2.spares w.id) = true :=
    fun w mem => spares w.id (List.mem_map.mpr ⟨w, mem, rfl⟩)
  constructor
  · rw [now]
    exact last
  · rw [now]
    exact begun
  · intro w mem m claimed
    rw [workers] at mem
    rw [store, now]
    exact (alive.claimed w mem m claimed).after distinct (spares' w mem) fun t r made =>
      Int.le_of_eq (by rw [instant t r made])
  · intro w mem m token served
    rw [workers] at mem
    rw [store]
    exact (serving w mem m token served).after distinct (spares' w mem) fun t r made => instant t r made ▸ last
  · intro w mem m token served refreshing
    rw [workers] at mem
    rw [store]
    exact refreshed w mem m token served refreshing

/-- Nothing moves but a request is served. -/
theorem still (alive : c.Alive s b) (distinct : s.store.Distinct) (workers : c'.workers = c.workers)
    (site : s.Leads asked s') (instant : ∀ now r, asked = some (now, r) → now = s.now)
    (spares : ∀ worker ∈ c.names, asked.all (·.2.spares worker) = true)
    (unsent : ∀ job ∈ c.tending.unsent, job ∈ c'.tending.unsent ∨ job ∈ c'.waiting)
    (waiting : ∀ job ∈ c.waiting, job ∈ c'.waiting)
    (refreshing : c'.tending.isRefreshing = true → c.tending.isRefreshing = true) : c'.Alive s' b := by
  refine alive.stay distinct workers site instant spares alive.last alive.begun alive.serving ?_
  intro w mem m token serving busy
  rcases alive.refreshed w mem m token serving (refreshing busy) with heard | ⟨job, unsent' | waits, own⟩
  · exact Or.inl (heard.after distinct (spares w.id (List.mem_map.mpr ⟨w, mem, rfl⟩)) fun t r made =>
      instant t r made ▸ alive.begun)
  · exact Or.inr ⟨job, unsent job unsent', own⟩
  · exact Or.inr ⟨job, Or.inr (waiting job waits), own⟩

/-- The snapshot has every claim that is held by a handler at work. -/
theorem takes (alive : c.Alive s b) (distinct : s.store.Distinct) (booked : c.isBooked s.store = true)
    (workers : c'.workers = c.workers) (site : s.Leads none s')
    (after : c'.tending = if c.desk.claims.jobs.isEmpty then .scanning
      else .refreshing c.desk.claims.jobs c.desk.claims.jobs.length) :
    c'.Alive s' (b.next s.now .beginning c'.tending) := by
  have now : s.now ≤ s.now := Int.le_refl _
  -- a handler at work holds nothing, or its claim is among the jobs
  have taken : ∀ w ∈ c.workers, ∀ m token, w.phase = .serving m token →
      s.store.held m.id w.id = false ∨ (⟨m.id, ⟨w.id, token⟩⟩ : Job) ∈ c.desk.claims.jobs := by
    intro w mem m token serving
    cases held : s.store.held m.id w.id with
    | true => exact Or.inr (listed_of_booked booked mem serving held)
    | false => exact Or.inl rfl
  cases empty : c.desk.claims.jobs.isEmpty with
  | true =>
    rw [empty, if_pos rfl] at after
    rw [after]
    refine alive.stay distinct workers site (fun _ _ made => by cases made) (fun _ _ => rfl) now now ?_ ?_
    · intro w mem m token serving
      rcases taken w mem m token serving with free | listed
      · exact .of_not_held free
      · rw [List.isEmpty_iff.mp empty] at listed
        cases listed
    · intro w mem m token serving busy
      rw [after] at busy
      cases busy
  | false =>
    rw [empty, if_neg Bool.false_ne_true] at after
    rw [after]
    refine alive.stay distinct workers site (fun _ _ made => by cases made) (fun _ _ => rfl) alive.last now
      alive.serving ?_
    intro w mem m token serving _
    rcases taken w mem m token serving with free | listed
    · exact Or.inl (.of_not_held free)
    · exact Or.inr ⟨_, Or.inl (by rw [after]; exact listed), rfl, rfl⟩

/-- The store sets the heartbeat of a claim that is held, and looks at no other. -/
theorem serves (alive : c.Alive s b) (distinct : s.store.Distinct) {job : Job} (workers : c'.workers = c.workers)
    (site : s.Leads (some (s.now, .resetHeartbeat job.id job.holding.worker)) s') (same : c'.tending = c.tending)
    (waiting : c.waiting.Perm (job :: c'.waiting)) : c'.Alive s' b := by
  have instant : ∀ now r,
      some (s.now, Request.resetHeartbeat job.id job.holding.worker) = some (now, r) → now = s.now := by
    intro now r made
    cases made
    rfl
  refine alive.stay distinct workers site instant (fun _ _ => rfl) alive.last alive.begun alive.serving ?_
  intro w mem m token serving busy
  rcases alive.refreshed w mem m token serving (same ▸ busy) with heard | ⟨j, unsent | waits, id, own⟩
  · exact Or.inl (heard.after distinct rfl fun t r made => instant t r made ▸ alive.begun)
  · exact Or.inr ⟨j, Or.inl (same ▸ unsent), id, own⟩
  · rcases List.mem_cons.mp (waiting.mem_iff.mp waits) with rfl | waits
    · rw [← id, ← own]
      exact Or.inl ((s.store.heardSince_refreshed j.id j.holding.worker s.now).mono alive.begun)
    · exact Or.inr ⟨j, Or.inr waits, id, own⟩

/-- When no job is under way any more, every claim was heard of since the snapshot. -/
theorem completes (alive : c.Alive s b) (distinct : s.store.Distinct) (balanced : c.Balanced)
    (workers : c'.workers = c.workers) (site : s.Leads none s') (before : c.tending = .refreshing [] 0)
    (after : c'.tending = .scanning) : c'.Alive s' { b with last := b.begun } := by
  have none : c.jobs = [] := balanced.no_jobs (by rw [before]; rfl)
  have idle : c.tending.unsent = [] ∧ c.waiting = [] := by
    simp only [Crew.jobs, List.append_eq_nil_iff] at none
    exact none.1
  refine alive.stay distinct workers site (fun _ _ made => by cases made) (fun _ _ => rfl) alive.begun alive.begun ?_ ?_
  · intro w mem m token serving
    rcases alive.refreshed w mem m token serving (by rw [before]; rfl) with heard | ⟨job, listed, _⟩
    · exact heard
    · rw [idle.1, idle.2] at listed
      rcases listed with listed | listed <;> cases listed
  · intro w mem m token serving busy
    rw [after] at busy
    cases busy

theorem tends (alive : c.Alive s b) (distinct : s.store.Distinct) (booked : c.isBooked s.store = true)
    (balanced : c.Balanced) (workers : c'.workers = c.workers) (site : s.Leads asked s') (tends : Tends c c' s asked)
    (instant : ∀ now r, asked = some (now, r) → now = s.now) : c'.Alive s' (b.next s.now c.tending c'.tending) := by
  have spares : ∀ worker ∈ c.names, asked.all (·.2.spares worker) = true := fun worker _ => tends.spares worker
  -- a step with the same jobs, after which the crew refreshes nothing
  have rests : c'.tending.isRefreshing = false → c.tending.isRefreshing = false → SameJobs c c' → c'.Alive s' b := by
    intro idle' idle jobs
    refine alive.still distinct workers site instant spares (fun job mem => ?_) (fun job => jobs.waiting.mem_iff.mpr) ?_
    · cases before : c.tending with
      | refreshing => simp [before, Tending.isRefreshing] at idle
      | _ => simp [before, Tending.unsent] at mem
    · intro busy
      rw [idle'] at busy
      cases busy
  cases tends with
  | stays same jobs =>
    rw [same, Beat.next_self]
    exact alive.still distinct workers site instant spares (fun job mem => Or.inl (same ▸ mem))
      (fun job => jobs.waiting.mem_iff.mpr) fun busy => same ▸ busy
  | turns turned jobs =>
    rcases turned with ⟨before, after⟩ | ⟨before | before, after⟩
    all_goals
      rw [before, after]
      exact rests (by rw [after]; rfl) (by rw [before]; rfl) jobs
  | takes before after =>
    rw [before]
    exact alive.takes distinct booked workers site after
  | sends sent rest due before after waiting =>
    rw [before, after]
    refine alive.still distinct workers site instant spares (fun job mem => ?_)
      (fun job mem => waiting.mem_iff.mpr (List.mem_cons_of_mem _ mem)) fun _ => by rw [before]; rfl
    rw [before] at mem
    rw [after, waiting.mem_iff]
    rcases List.mem_cons.mp mem with rfl | mem
    · exact Or.inr List.mem_cons_self
    · exact Or.inl mem
  | serves served same waiting =>
    rw [same, Beat.next_self]
    exact alive.serves distinct workers site same waiting
  | looks r left before after _ waiting =>
    rw [before, after]
    refine alive.still distinct workers site instant spares (fun job mem => ?_) (fun job => waiting.mem_iff.mpr)
      fun _ => by rw [before]; rfl
    rw [before] at mem
    cases mem
  | drops r left before after _ waiting =>
    rw [before, after]
    refine alive.still distinct workers site instant spares (fun job mem => ?_) (fun job => waiting.mem_iff.mpr)
      fun _ => by rw [before]; rfl
    rw [before] at mem
    cases mem
  | completes before after =>
    rw [before, after]
    exact alive.completes distinct balanced workers site before after
  | scans ids before after _ jobs =>
    rw [before, after]
    exact rests (by rw [after]; rfl) (by rw [before]; rfl) jobs
  | revokes id rest before after jobs =>
    rw [before, after]
    exact rests (by rw [after]; rfl) (by rw [before]; rfl) jobs

/-- What a worker has in hand after a step it had before, or it was heard of just now. -/
theorem moved (alive : c.Alive s b) (distinct : s.store.Distinct) {w w' : Worker} (mem : w ∈ c.workers)
    (step : Worker.Step w w' ⟨s, c.desk⟩ ⟨s', c'.desk⟩ asked) :
    (∀ m, w'.phase = .claimed m → (s.store.after asked).HeardSince m.id w.id s.now) ∧
      ∀ m token, w'.phase = .serving m token →
        (s.store.after asked).HeardSince m.id w.id s.now ∨ (asked = none ∧ w.phase = .serving m token) := by
  cases step.moves with
  | stays same =>
    rw [same]
    exact ⟨alive.claimed w mem, fun m token serving => Or.inr ⟨rfl, serving⟩⟩
  | asks r _ free =>
    rw [free]
    exact ⟨fun _ => nofun, fun _ _ => nofun⟩
  | claims m _ claimed made =>
    rw [claimed]
    refine ⟨?_, fun _ _ => nofun⟩
    rintro _ ⟨⟩ m' after _
    obtain ⟨stored, _, _, beat⟩ := Store.get?_claimed distinct made
    obtain rfl : m = m' := Option.some.inj (stored.symm.trans after)
    exact ⟨s.now, beat, Int.le_refl _⟩
  | opens m claimed serving =>
    rw [serving]
    refine ⟨fun _ => nofun, ?_⟩
    rintro _ _ ⟨⟩
    exact Or.inl (alive.claimed w mem m claimed)
  | ends m token _ ended =>
    rw [ended]
    exact ⟨fun _ => nofun, fun _ _ => nofun⟩
  | closes m _ free =>
    rw [free]
    exact ⟨fun _ => nofun, fun _ _ => nofun⟩

theorem works (alive : c.Alive s b) (once : c.names.Nodup) (distinct : s.store.Distinct) {w w' : Worker}
    {before after : List Worker} (split : c.workers = before ++ w :: after)
    (split' : c'.workers = before ++ w' :: after) (step : Worker.Step w w' ⟨s, c.desk⟩ ⟨s', c'.desk⟩ asked)
    (same : c'.tending = c.tending) (jobs : SameJobs c c')
    (instant : ∀ now r, asked = some (now, r) → now = s.now) : c'.Alive s' b := by
  have now : s'.now = s.now := step.site.now
  have store : s'.store = s.store.after asked := step.site.store
  have moves : w ∈ c.workers := by simp [split]
  obtain ⟨claimed', serving'⟩ := alive.moved distinct moves step
  -- the jobs of another worker's claim, or of its own, are under way as before
  have underway : ∀ {m : Message} {id : WorkerId},
      (∃ job, (job ∈ c.tending.unsent ∨ job ∈ c.waiting) ∧ job.id = m.id ∧ job.holding.worker = id) →
      ∃ job, (job ∈ c'.tending.unsent ∨ job ∈ c'.waiting) ∧ job.id = m.id ∧ job.holding.worker = id := by
    rintro m id ⟨job, unsent | waits, own⟩
    · exact ⟨job, Or.inl (same ▸ unsent), own⟩
    · exact ⟨job, Or.inr (jobs.waiting.mem_iff.mpr waits), own⟩
  refine ⟨now ▸ alive.last, now ▸ alive.begun, fun u mem m claimed => ?_, fun u mem m token serving => ?_,
    fun u mem m token serving busy => ?_⟩
  all_goals
    rw [split'] at mem
    rw [store]
  · rw [now]
    rcases mem_moved once split mem with rfl | ⟨mem, other⟩
    · exact step.id ▸ claimed' m claimed
    · exact (alive.claimed u mem m claimed).after distinct (step.spares other) fun t r made =>
        Int.le_of_eq (by rw [instant t r made])
  · rcases mem_moved once split mem with rfl | ⟨mem, other⟩
    · rw [step.id]
      rcases serving' m token serving with heard | ⟨rfl, served⟩
      · exact heard.mono alive.last
      · exact alive.serving w moves m token served
    · exact (alive.serving u mem m token serving).after distinct (step.spares other) fun t r made =>
        instant t r made ▸ alive.last
  · rcases mem_moved once split mem with rfl | ⟨mem, other⟩
    · rw [step.id]
      rcases serving' m token serving with heard | ⟨rfl, served⟩
      · exact Or.inl (heard.mono alive.begun)
      · exact (alive.refreshed w moves m token served (same ▸ busy)).imp_right underway
    · rcases alive.refreshed u mem m token serving (same ▸ busy) with heard | listed
      · exact Or.inl (heard.after distinct (step.spares other) fun t r made => instant t r made ▸ alive.begun)
      · exact Or.inr (underway listed)

theorem sees (alive : c.Alive s b) (once : c.names.Nodup) (distinct : s.store.Distinct)
    (booked : c.isBooked s.store = true) (balanced : c.Balanced) (onward : s.now ≤ s'.now)
    (prompt : c.isRegistered = true ∨ s'.now = s.now) (current : ∀ now r, a = .request now r → now = s.now)
    (seen : Sees a c c' s s') : c'.Alive s' (b.next s.now c.tending c'.tending) := by
  cases seen with
  | moves asked step =>
    have instant : ∀ now r, asked = some (now, r) → now = s.now := fun now r made => step.instant made
    cases step.moves with
    | works w w' before after split split' works same jobs =>
      rw [same, Beat.next_self]
      exact alive.works once distinct split split' works same jobs instant
    | tends workers tends => exact alive.tends distinct booked balanced workers step.site tends instant
    | asks r plain workers same jobs =>
      rw [same, Beat.next_self]
      exact alive.still distinct workers step.site instant (fun worker _ => Request.spares_of_plain plain worker)
        (fun job mem => Or.inl (same ▸ mem)) (fun job => jobs.waiting.mem_iff.mpr) fun busy => same ▸ busy
  | hears asked same site spares times =>
    subst same
    rw [Beat.next_self]
    refine alive.still distinct rfl site (fun now r made => ?_) spares (fun job => Or.inl) (fun job mem => mem)
      fun busy => busy
    rcases times now r made with now | asked
    · exact now
    · exact current now r asked
  | waits clock time same site =>
    subst same site
    rw [Beat.next_self]
    exact alive.wait rfl onward prompt
  | dismissed same site =>
    subst same site
    show c.dismissed.Alive s' (b.next s'.now c.tending c.tending)
    rw [Beat.next_self]
    exact ⟨alive.last, alive.begun, alive.claimed, alive.serving, alive.refreshed⟩

end Alive

end Crew

end ClaimQueue
