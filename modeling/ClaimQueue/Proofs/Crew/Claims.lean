/-
  ClaimQueue.Proofs.Crew.Claims — the book of a crew, its workers and the jobs of its pass.

  Every entry of the book is of a worker that serves the claim under the token in the entry,
  or is about to take it off (`entered`); so no worker is free to claim again while an entry
  of it stands. Every job was an entry once, and tokens are issued in order, so an entry made
  after the job has another token (`jobs`). Hence the rule for a claim that the store called
  lost: as long as the very entry of the job stands, the claim is not held (`lost`).
-/

import Mathlib.Data.List.Nodup
import ClaimQueue.Proofs.Crew.Runs
import ClaimQueue.Proofs.Work.Book

namespace ClaimQueue

/-- The jobs that are not in the channel yet. -/
def Tending.unsent : Tending → List Job
  | .refreshing unsent _ => unsent
  | _ => []

theorem ClaimBook.mem_jobs {b : ClaimBook} {job : Job} : job ∈ b.jobs ↔ (job.id, job.holding) ∈ b.entries := by
  constructor
  · intro listed
    obtain ⟨⟨id, h⟩, mem, rfl⟩ := List.mem_map.mp listed
    exact mem
  · intro mem
    exact List.mem_map.mpr ⟨_, mem, rfl⟩

/-- The store calls a claim lost just if the worker does not hold it. -/
theorem Report.isLost_reply (s : Store) (job : Job) (now : Instant) :
    Report.isLost ⟨job, (s.resetHeartbeat job.id job.holding.worker now).1⟩ = !s.held job.id job.holding.worker := by
  rw [Store.resetHeartbeat_reply]
  cases s.held job.id job.holding.worker <;> rfl

/-- Does the book rightly have an entry of the message under `token`? -/
def Phase.keeps (id : MessageId) (token : Token) : Phase → Prop
  | .serving m t => m.id = id ∧ t = token
  | .ended m => m.id = id
  | _ => False

namespace Crew

/-- The jobs of the pass, wherever they are. -/
def jobs (c : Crew) : List Job := c.tending.unsent ++ c.waiting ++ c.answered.map (·.job)

structure Kept (c : Crew) (s : Site) : Prop where
  keyed : c.desk.claims.Keyed
  entered : ∀ id h, (id, h) ∈ c.desk.claims.entries → ∃ w ∈ c.workers, w.id = h.worker ∧ w.phase.keeps id h.token
  issued : ∀ id h, (id, h) ∈ c.desk.claims.entries → h.token.number < c.desk.tokens.next
  jobs : ∀ job ∈ c.jobs, job.holding.token.number < c.desk.tokens.next
  lost : ∀ r ∈ c.answered, r.isLost = true → (r.job.id, r.job.holding) ∈ c.desk.claims.entries →
    s.store.held r.job.id r.job.holding.worker = false

variable {a : Happening} {c c' : Crew} {s s' : Site} {asked : Option Asked}

/-! ## What the pass does to the jobs and the book -/

theorem mem_jobs {job : Job} :
    job ∈ c.jobs ↔ job ∈ c.tending.unsent ∨ job ∈ c.waiting ∨ ∃ r ∈ c.answered, r.job = job := by
  simp [Crew.jobs]

theorem jobs_subset (unsent : ∀ job ∈ c'.tending.unsent, job ∈ c.tending.unsent)
    (waiting : ∀ job ∈ c'.waiting, job ∈ c.waiting) (answered : ∀ r ∈ c'.answered, r ∈ c.answered) :
    ∀ job ∈ c'.jobs, job ∈ c.jobs := by
  intro job mem
  rw [mem_jobs] at mem ⊢
  rcases mem with mem | mem | ⟨r, mem, rfl⟩
  · exact Or.inl (unsent job mem)
  · exact Or.inr (Or.inl (waiting job mem))
  · exact Or.inr (Or.inr ⟨r, answered r mem, rfl⟩)

namespace Tends

theorem spares (tends : Tends c c' s asked) (worker : WorkerId) : asked.all (·.2.spares worker) = true := by
  cases tends <;> rfl

/-- A new job is an entry of the book. -/
theorem jobs (tends : Tends c c' s asked) : ∀ job ∈ c'.jobs, job ∈ c.jobs ∨ job ∈ c.desk.claims.jobs := by
  have none : c'.tending.unsent = [] → ∀ job ∈ c'.tending.unsent, job ∈ c.tending.unsent := by
    intro none job mem
    rw [none] at mem
    cases mem
  -- a step after which no job is unsent, or the same are
  have still : (∀ job ∈ c'.tending.unsent, job ∈ c.tending.unsent) → SameJobs c c' → ∀ job ∈ c'.jobs, job ∈ c.jobs :=
    fun unsent jobs => jobs_subset unsent (fun job => jobs.waiting.mem_iff.mp) fun r => jobs.answered.mem_iff.mp
  intro job mem
  cases tends with
  | stays tending jobs => exact Or.inl (still (fun job mem => tending ▸ mem) jobs job mem)
  | turns turned jobs =>
    refine Or.inl (still (none ?_) jobs job mem)
    rcases turned with ⟨_, after⟩ | ⟨_, after⟩
    · rw [after]
      rfl
    · rw [after]
      rfl
  | completes before after jobs => exact Or.inl (still (none (by rw [after]; rfl)) jobs job mem)
  | scans ids before after scanned jobs => exact Or.inl (still (none (by rw [after]; rfl)) jobs job mem)
  | revokes id rest before after jobs => exact Or.inl (still (none (by rw [after]; rfl)) jobs job mem)
  | takes before after jobs =>
    rw [mem_jobs, after] at mem
    rw [mem_jobs]
    rcases mem with mem | mem | ⟨r, mem, rfl⟩
    · refine Or.inr ?_
      split at mem
      · cases mem
      · exact mem
    · exact Or.inl (Or.inr (Or.inl (jobs.waiting.mem_iff.mp mem)))
    · exact Or.inl (Or.inr (Or.inr ⟨r, jobs.answered.mem_iff.mp mem, rfl⟩))
  | sends sent rest due before after waiting answered =>
    rw [mem_jobs, after, waiting.mem_iff, List.mem_cons] at mem
    rw [mem_jobs, before]
    rcases mem with mem | (rfl | mem) | ⟨r, mem, rfl⟩
    · exact Or.inl (Or.inl (List.mem_cons_of_mem _ mem))
    · exact Or.inl (Or.inl List.mem_cons_self)
    · exact Or.inl (Or.inr (Or.inl mem))
    · exact Or.inl (Or.inr (Or.inr ⟨r, answered.mem_iff.mp mem, rfl⟩))
  | serves served tending waiting answered =>
    rw [mem_jobs, tending] at mem
    rw [mem_jobs, waiting.mem_iff]
    rcases mem with mem | mem | ⟨r, mem, rfl⟩
    · exact Or.inl (Or.inl mem)
    · exact Or.inl (Or.inr (Or.inl (List.mem_cons_of_mem _ mem)))
    · rcases List.mem_cons.mp (answered.mem_iff.mp mem) with rfl | mem
      · exact Or.inl (Or.inr (Or.inl List.mem_cons_self))
      · exact Or.inl (Or.inr (Or.inr ⟨r, mem, rfl⟩))
  | looks r left before after kept waiting answered =>
    refine Or.inl (jobs_subset (none (by rw [after]; rfl)) (fun job => waiting.mem_iff.mp) (fun r' mem => ?_) job mem)
    exact answered.mem_iff.mpr (List.mem_cons_of_mem _ mem)
  | drops r left before after lost waiting answered =>
    refine Or.inl (jobs_subset (none (by rw [after]; rfl)) (fun job => waiting.mem_iff.mp) (fun r' mem => ?_) job mem)
    exact answered.mem_iff.mpr (List.mem_cons_of_mem _ mem)

/-- A new report tells the truth. -/
theorem answered (tends : Tends c c' s asked) : ∀ r ∈ c'.answered, r ∈ c.answered ∨
    (r.isLost = true → s.store.held r.job.id r.job.holding.worker = false) := by
  intro r mem
  cases tends with
  | serves job tending waiting answered =>
    rcases List.mem_cons.mp (answered.mem_iff.mp mem) with rfl | mem
    · refine Or.inr fun lost => ?_
      rw [Report.isLost_reply] at lost
      simpa using lost
    · exact Or.inl mem
  | looks _ _ _ _ _ _ answered => exact Or.inl (answered.mem_iff.mpr (List.mem_cons_of_mem _ mem))
  | drops _ _ _ _ _ _ answered => exact Or.inl (answered.mem_iff.mpr (List.mem_cons_of_mem _ mem))
  | sends _ _ _ _ _ _ answered => exact Or.inl (answered.mem_iff.mp mem)
  | stays _ jobs => exact Or.inl (jobs.answered.mem_iff.mp mem)
  | turns _ jobs => exact Or.inl (jobs.answered.mem_iff.mp mem)
  | takes _ _ jobs => exact Or.inl (jobs.answered.mem_iff.mp mem)
  | completes _ _ jobs => exact Or.inl (jobs.answered.mem_iff.mp mem)
  | scans _ _ _ _ jobs => exact Or.inl (jobs.answered.mem_iff.mp mem)
  | revokes _ _ _ _ jobs => exact Or.inl (jobs.answered.mem_iff.mp mem)

/-- A step of the pass leaves the book alone, drops what a lost report names, or revokes. -/
theorem book (tends : Tends c c' s asked) : SameBook c c' ∨
    (∃ r ∈ c.answered, r.isLost = true ∧ c'.desk.claims = (c.desk.claims.remove r.job.id r.job.holding.worker).2 ∧
      c'.desk.tokens = if (c.desk.claims.remove r.job.id r.job.holding.worker).1.isSome
        then c.desk.tokens.cancel r.job.holding.token else c.desk.tokens) ∨
    ∃ id rest, c.tending = .revoking (id :: rest) ∧ c'.tending = .revoking rest ∧
      c'.desk.claims = (c.desk.claims.revoke id).2 ∧
      c'.desk.tokens = match (c.desk.claims.revoke id).1 with
        | some holding => c.desk.tokens.cancel holding.token
        | none => c.desk.tokens := by
  cases tends with
  | drops r _ _ _ lost _ answered claims tokens =>
    exact Or.inr (Or.inl ⟨r, answered.mem_iff.mpr List.mem_cons_self, lost, claims, tokens⟩)
  | revokes id rest before after _ claims tokens => exact Or.inr (Or.inr ⟨id, rest, before, after, claims, tokens⟩)
  | stays _ _ book => exact Or.inl book
  | turns _ _ book => exact Or.inl book
  | takes _ _ _ book => exact Or.inl book
  | sends _ _ _ _ _ _ _ book => exact Or.inl book
  | serves _ _ _ _ book => exact Or.inl book
  | looks _ _ _ _ _ _ _ book => exact Or.inl book
  | completes _ _ _ book => exact Or.inl book
  | scans _ _ _ _ _ book => exact Or.inl book

theorem keyed (tends : Tends c c' s asked) (keyed : c.desk.claims.Keyed) : c'.desk.claims.Keyed := by
  rcases tends.book with ⟨claims, _⟩ | ⟨r, _, _, claims, _⟩ | ⟨id, _, _, _, claims, _⟩
  · exact claims ▸ keyed
  · exact claims ▸ keyed.remove r.job.id r.job.holding.worker
  · exact claims ▸ keyed.revoke id

theorem entries (tends : Tends c c' s asked) {id : MessageId} {h : Holding} (entry : (id, h) ∈ c'.desk.claims.entries) :
    (id, h) ∈ c.desk.claims.entries := by
  rcases tends.book with ⟨claims, _⟩ | ⟨_, _, _, claims, _⟩ | ⟨_, _, _, _, claims, _⟩
  · exact claims ▸ entry
  · exact ClaimBook.mem_of_mem_remove (claims ▸ entry)
  · exact ClaimBook.mem_of_mem_revoke (claims ▸ entry)

/-- No token is issued, and a token that is cancelled stays so. -/
theorem tokens (tends : Tends c c' s asked) : c.desk.tokens.next = c'.desk.tokens.next ∧
    ∀ token, c.desk.tokens.isCancelled token = true → c'.desk.tokens.isCancelled token = true := by
  have cancel : ∀ token, c.desk.tokens.next = (c.desk.tokens.cancel token).next ∧ ∀ t,
      c.desk.tokens.isCancelled t = true → (c.desk.tokens.cancel token).isCancelled t = true :=
    fun token => ⟨rfl, fun t cancelled => (Tokens.isCancelled_cancel _ _ _).mpr (Or.inr cancelled)⟩
  rcases tends.book with ⟨_, tokens⟩ | ⟨r, _, _, _, tokens⟩ | ⟨_, _, _, _, _, tokens⟩
  · rw [tokens]
    exact ⟨rfl, fun _ cancelled => cancelled⟩
  · rw [tokens]
    split
    · exact cancel r.job.holding.token
    · exact ⟨rfl, fun _ cancelled => cancelled⟩
  · rw [tokens]
    split
    · exact cancel _
    · exact ⟨rfl, fun _ cancelled => cancelled⟩

end Tends

/-! ## The book in order -/

namespace Kept

/-- No entry is new, a new job is one of them, and a new report tells the truth. -/
theorem shrink (k : c.Kept s) (keyed : c'.desk.claims.Keyed)
    (entries : ∀ id h, (id, h) ∈ c'.desk.claims.entries → (id, h) ∈ c.desk.claims.entries)
    (entered : ∀ id h, (id, h) ∈ c'.desk.claims.entries → ∃ w ∈ c'.workers, w.id = h.worker ∧ w.phase.keeps id h.token)
    (next : c.desk.tokens.next = c'.desk.tokens.next) (jobs : ∀ job ∈ c'.jobs, job ∈ c.jobs ∨ job ∈ c.desk.claims.jobs)
    (answered : ∀ r ∈ c'.answered, r ∈ c.answered ∨
      (r.isLost = true → s.store.held r.job.id r.job.holding.worker = false))
    (held : ∀ id h, (id, h) ∈ c'.desk.claims.entries → s'.store.held id h.worker = true →
      s.store.held id h.worker = true) : c'.Kept s' where
  keyed := keyed
  entered := entered
  issued id h mem := next ▸ k.issued id h (entries id h mem)
  jobs job mem := by
    rw [← next]
    rcases jobs job mem with old | new
    · exact k.jobs job old
    · exact k.issued job.id job.holding (ClaimBook.mem_jobs.mp new)
  lost r mem lost entry := by
    refine Bool.eq_false_iff.mpr fun now => ?_
    have before : s.store.held r.job.id r.job.holding.worker = false := by
      rcases answered r mem with old | true
      · exact k.lost r old lost (entries _ _ entry)
      · exact true lost
    rw [held _ _ entry now] at before
    cases before

theorem fresh (config : QueueConfig) (filter : ClaimFilter) (ids : List WorkerId) (duties : List Duty) (s : Site) :
    (Crew.fresh config filter ids duties).Kept s := by
  have none : (Crew.fresh config filter ids duties).jobs = [] := by
    rw [Crew.jobs, tending_fresh]
    rfl
  constructor
  · exact List.nodup_nil
  · exact fun _ _ => nofun
  · exact fun _ _ => nofun
  · rw [none]
    exact fun _ => nofun
  · exact fun _ => nofun

/-- No entry is of a worker that is free to claim. -/
theorem absent (k : c.Kept s) (once : c.names.Nodup) {w : Worker} (mem : w ∈ c.workers)
    (free : ∀ id token, ¬w.phase.keeps id token) {id : MessageId} {h : Holding}
    (entry : (id, h) ∈ c.desk.claims.entries) : h.worker ≠ w.id := by
  intro same
  obtain ⟨w', mem', own, keeps⟩ := k.entered id h entry
  obtain rfl : w' = w := List.inj_on_of_nodup_map once mem' mem (own.trans same)
  exact free _ _ keeps

/-- Other workers keep their entries while one changes its phase. -/
theorem entered_set (k : c.Kept s) {w w' : Worker} {before after : List Worker}
    (split : c.workers = before ++ w :: after) (split' : c'.workers = before ++ w' :: after) (same : w'.id = w.id)
    {id : MessageId} {h : Holding} (entry : (id, h) ∈ c.desk.claims.entries)
    (keeps : w.id = h.worker → w.phase.keeps id h.token → w'.phase.keeps id h.token) :
    ∃ w ∈ c'.workers, w.id = h.worker ∧ w.phase.keeps id h.token := by
  obtain ⟨u, mem, own, kept⟩ := k.entered id h entry
  rw [split] at mem
  rw [split']
  rcases List.mem_append.mp mem with mem | mem
  · exact ⟨u, List.mem_append_left _ mem, own, kept⟩
  · rcases List.mem_cons.mp mem with rfl | mem
    · exact ⟨w', List.mem_append_right _ List.mem_cons_self, same.trans own, keeps own kept⟩
    · exact ⟨u, List.mem_append_right _ (List.mem_cons_of_mem _ mem), own, kept⟩

theorem works (k : c.Kept s) (once : c.names.Nodup) (distinct : s.store.Distinct) {w w' : Worker}
    {before after : List Worker} (split : c.workers = before ++ w :: after)
    (split' : c'.workers = before ++ w' :: after) (step : Worker.Step w w' ⟨s, c.desk⟩ ⟨s', c'.desk⟩ asked)
    (tending : c'.tending = c.tending) (jobs : SameJobs c c') : c'.Kept s' := by
  have mem : w ∈ c.workers := by simp [split]
  have store : s'.store = s.store.after asked := step.site.store
  have answered : ∀ r ∈ c'.answered, r ∈ c.answered := fun r => jobs.answered.mem_iff.mp
  have jobs' : ∀ job ∈ c'.jobs, job ∈ c.jobs :=
    jobs_subset (fun job mem => tending ▸ mem) (fun job => jobs.waiting.mem_iff.mp) answered
  -- a step that leaves the book alone
  have same : c'.desk.claims = c.desk.claims → c'.desk.tokens = c.desk.tokens →
      (∀ id token, w.phase.keeps id token → w'.phase.keeps id token) →
      (∀ id h, (id, h) ∈ c.desk.claims.entries → asked.all (·.2.spares h.worker) = true) → c'.Kept s' := by
    intro claims tokens keeps spares
    refine k.shrink (claims ▸ k.keyed) (fun id h entry => claims ▸ entry) ?_ (by rw [tokens])
      (fun job mem => Or.inl (jobs' job mem)) (fun r mem => Or.inl (answered r mem)) ?_
    · intro id h entry
      rw [claims] at entry
      exact k.entered_set split split' step.id entry fun _ => keeps id h.token
    · intro id h entry held
      rw [claims] at entry
      rw [store] at held
      exact Store.held_after distinct (spares id h entry) held
  cases step.moves with
  | stays phase claims tokens =>
    refine same claims tokens (fun id token => ?_) fun _ _ _ => rfl
    rw [phase]
    exact fun keeps => keeps
  | asks r free _ plain claims tokens =>
    refine same claims tokens (fun id token => ?_) fun id h _ => Request.spares_of_plain plain h.worker
    rw [free]
    exact False.elim
  | claims m free _ _ claims tokens =>
    refine same claims tokens (fun id token => ?_) fun id h entry => ?_
    · rw [free]
      exact False.elim
    · have other : h.worker ≠ w.id := k.absent once mem (fun _ _ => free ▸ not_false) entry
      simpa [Request.spares] using Ne.symm other
  | ends m token serving ended claims tokens =>
    refine same claims tokens (fun id token => ?_) fun _ _ _ => rfl
    rw [serving, ended]
    exact fun keeps => keeps.1
  | opens m claimed serving claims tokens =>
    have unheld : ∀ id worker, s'.store.held id worker = s.store.held id worker := fun id worker => by rw [store]; rfl
    constructor
    · exact claims ▸ k.keyed.register m.id _
    · intro id h entry
      rw [claims] at entry
      rcases ClaimBook.mem_register.mp entry with ⟨entry, _⟩ | ⟨rfl, rfl⟩
      · refine k.entered_set split split' step.id entry fun _ => ?_
        rw [claimed]
        exact False.elim
      · exact ⟨w', by simp [split'], step.id, by rw [serving]; exact ⟨rfl, rfl⟩⟩
    · intro id h entry
      rw [claims] at entry
      rw [tokens]
      rcases ClaimBook.mem_register.mp entry with ⟨entry, _⟩ | ⟨rfl, rfl⟩
      · exact Nat.lt_succ_of_lt (k.issued id h entry)
      · exact Nat.lt_succ_self _
    · intro job mem
      rw [tokens]
      exact Nat.lt_succ_of_lt (k.jobs job (jobs' job mem))
    · intro r mem lost entry
      rw [claims] at entry
      rw [unheld]
      rcases ClaimBook.mem_register.mp entry with ⟨entry, _⟩ | ⟨_, same⟩
      · exact k.lost r (answered r mem) lost entry
      · -- the job is older than the token
        have listed : r.job ∈ c.jobs := by simpa [Crew.jobs] using Or.inr (Or.inr ⟨r, answered r mem, rfl⟩)
        have older := k.jobs r.job listed
        rw [same] at older
        exact absurd older (Nat.lt_irrefl _)
  | closes m ended free claims tokens =>
    refine k.shrink (claims ▸ k.keyed.remove m.id w.id) (fun id h entry => ?_) (fun id h entry => ?_) (by rw [tokens])
      (fun job mem => Or.inl (jobs' job mem)) (fun r mem => Or.inl (answered r mem)) fun id h _ held => ?_
    · rw [claims] at entry
      exact ClaimBook.mem_of_mem_remove entry
    · rw [claims] at entry
      refine k.entered_set split split' step.id (ClaimBook.mem_of_mem_remove entry) fun own keeps => ?_
      rw [ended] at keeps
      obtain rfl : m.id = id := keeps
      exact absurd entry (k.keyed.not_mem_remove own.symm)
    · rw [store] at held
      exact held

theorem tends (k : c.Kept s) (distinct : s.store.Distinct) (workers : c'.workers = c.workers)
    (store : s'.store = s.store.after asked) (tends : Tends c c' s asked) : c'.Kept s' := by
  refine k.shrink (tends.keyed k.keyed) (fun id h => tends.entries) (fun id h entry => ?_) tends.tokens.1 tends.jobs
    tends.answered fun id h _ held => ?_
  · rw [workers]
    exact k.entered id h (tends.entries entry)
  · rw [store] at held
    exact Store.held_after distinct (tends.spares h.worker) held

/-- The same crew before a store where no claim on its book is newly held. -/
theorem elsewhere (k : c.Kept s) (held : ∀ worker ∈ c.names, ∀ id, s'.store.held id worker = true →
    s.store.held id worker = true) : c.Kept s' := by
  refine k.shrink k.keyed (fun _ _ entry => entry) k.entered rfl (fun _ mem => Or.inl mem) (fun _ mem => Or.inl mem) ?_
  intro id h entry now
  obtain ⟨w, mem, own, _⟩ := k.entered id h entry
  exact held h.worker (List.mem_map.mpr ⟨w, mem, own⟩) id now

/-- All that a crew can see keeps the book in order. -/
theorem sees (k : c.Kept s) (once : c.names.Nodup) (distinct : s.store.Distinct) (seen : Sees a c c' s s') :
    c'.Kept s' := by
  cases seen with
  | moves asked step =>
    cases step.moves with
    | works w w' before after split split' works tending jobs =>
      exact k.works once distinct split split' works tending jobs
    | tends workers tends => exact k.tends distinct workers step.site.store tends
    | asks r plain workers tending jobs book =>
      have stays : Tends c c' s none := .stays tending jobs book
      have quiet : c'.Kept s := k.tends distinct workers rfl stays
      have spares : ∀ worker, Option.all (·.2.spares worker) (some (s.now, r)) = true :=
        Request.spares_of_plain plain
      refine quiet.elsewhere fun worker _ id held => ?_
      rw [step.site.store] at held
      exact Store.held_after distinct (spares worker) held
  | hears asked same leads spares _ =>
    subst same
    refine k.elsewhere fun worker mem id held => ?_
    rw [leads.store] at held
    exact Store.held_after distinct (spares worker mem) held
  | waits clock time same site =>
    subst same site
    exact k.elsewhere fun _ _ _ held => held
  | dismissed same site =>
    subst same site
    exact ⟨k.keyed, k.entered, k.issued, k.jobs, k.lost⟩

end Kept

end Crew

/-- In every run the books are in order. -/
theorem Engine.Reached.kept {e : Engine} (reached : e.Reached) : ∀ c ∈ e.crews, c.Kept e.site :=
  reached.crews (fun config filter ids duties s _ => Crew.Kept.fresh config filter ids duties s)
    fun _ _ _ _ _ _ once _ distinct k seen => k.sees once distinct seen

end ClaimQueue
