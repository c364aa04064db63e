/-
  ClaimQueue.Proofs.Crew.Moves — what a step of a member does to its crew.

  A crew has one heartbeat monitor at most, and only that one makes heartbeat passes
  (`Staffed`), so where it is in its pass is where the crew is (`tending`). The jobs of the
  pass are unsent, `waiting` or `answered`, whoever has them, the channel or a runner.

  A worker moves alone (`works`), the pass and its runners move on the jobs and the book
  (`tends`), and the other monitors ask the store for what concerns no claim (`asks`).
-/

import ClaimQueue.Crew.Basic
import ClaimQueue.Proofs.Upkeep.Tending

namespace ClaimQueue

namespace Crew

/-- Where the heartbeat monitor is in its pass. -/
def tending (c : Crew) : Tending := ((c.monitors.find? (·.duty == .heartbeat)).map (·.tending)).getD .idle

/-- The jobs submitted that the store was not asked about yet. -/
def waiting (c : Crew) : List Job := c.desk.pool.channel ++ c.runners.flatMap (·.waiting)

/-- The reports not looked at yet. -/
def answered (c : Crew) : List Report := c.runners.flatMap (·.answered) ++ c.desk.pool.reports

def names (c : Crew) : List WorkerId := c.workers.map (·.id)

structure Staffed (c : Crew) : Prop where
  duties : (c.monitors.map (·.duty)).Nodup
  fits : ∀ m ∈ c.monitors, m.tending = .idle ∨ m.duty = .heartbeat

/-- The jobs are as before, whoever has them. -/
structure SameJobs (c c' : Crew) : Prop where
  waiting : c'.waiting.Perm c.waiting
  answered : c'.answered.Perm c.answered

structure SameBook (c c' : Crew) : Prop where
  claims : c'.desk.claims = c.desk.claims
  tokens : c'.desk.tokens = c.desk.tokens

/-- What a step of the heartbeat pass or of a runner does. -/
inductive Tends (c c' : Crew) (s : Site) : Option Asked → Prop
  | stays : c'.tending = c.tending → SameJobs c c' → SameBook c c' → Tends c c' s none
  /-- The pass begins, or is over. -/
  | turns : (c.tending = .idle ∧ c'.tending = .beginning) ∨
        ((c.tending = .scanning ∨ c.tending = .revoking []) ∧ c'.tending = .idle) →
      SameJobs c c' → SameBook c c' → Tends c c' s none
  | takes : c.tending = .beginning →
      c'.tending = (if c.desk.claims.jobs.isEmpty then .scanning
        else .refreshing c.desk.claims.jobs c.desk.claims.jobs.length) →
      SameJobs c c' → SameBook c c' → Tends c c' s none
  | sends (job : Job) (rest : List Job) (due : Nat) : c.tending = .refreshing (job :: rest) due →
      c'.tending = .refreshing rest due → c'.waiting.Perm (job :: c.waiting) → c'.answered.Perm c.answered →
      SameBook c c' → Tends c c' s none
  | serves (job : Job) : c'.tending = c.tending → c.waiting.Perm (job :: c'.waiting) →
      c'.answered.Perm (⟨job, (s.store.resetHeartbeat job.id job.holding.worker s.now).1⟩ :: c.answered) →
      SameBook c c' → Tends c c' s (some (s.now, .resetHeartbeat job.id job.holding.worker))
  | looks (r : Report) (left : Nat) : c.tending = .refreshing [] (left + 1) → c'.tending = .refreshing [] left →
      r.isLost = false → c'.waiting.Perm c.waiting → c.answered.Perm (r :: c'.answered) → SameBook c c' →
      Tends c c' s none
  | drops (r : Report) (left : Nat) : c.tending = .refreshing [] (left + 1) → c'.tending = .refreshing [] left →
      r.isLost = true → c'.waiting.Perm c.waiting → c.answered.Perm (r :: c'.answered) →
      c'.desk.claims = (c.desk.claims.remove r.job.id r.job.holding.worker).2 →
      c'.desk.tokens = (if (c.desk.claims.remove r.job.id r.job.holding.worker).1.isSome
        then c.desk.tokens.cancel r.job.holding.token else c.desk.tokens) → Tends c c' s none
  | completes : c.tending = .refreshing [] 0 → c'.tending = .scanning → SameJobs c c' → SameBook c c' →
      Tends c c' s none
  | scans (ids : List MessageId) : c.tending = .scanning → c'.tending = .revoking ids →
      (s.store.reclaimDead s.now c.desk.config.heartbeat.time c.desk.config.heartbeat.lookback).1 = ids →
      SameJobs c c' → SameBook c c' →
      Tends c c' s (some (s.now, .reclaimDead c.desk.config.heartbeat.time c.desk.config.heartbeat.lookback))
  | revokes (id : MessageId) (rest : List MessageId) : c.tending = .revoking (id :: rest) →
      c'.tending = .revoking rest → SameJobs c c' → c'.desk.claims = (c.desk.claims.revoke id).2 →
      c'.desk.tokens = (match (c.desk.claims.revoke id).1 with
        | some holding => c.desk.tokens.cancel holding.token
        | none => c.desk.tokens) → Tends c c' s none

inductive Moves (c c' : Crew) (s s' : Site) : Option Asked → Prop
  | works {asked : Option Asked} (w w' : Worker) (before after : List Worker) : c.workers = before ++ w :: after →
      c'.workers = before ++ w' :: after → Worker.Step w w' ⟨s, c.desk⟩ ⟨s', c'.desk⟩ asked →
      c'.tending = c.tending → SameJobs c c' → Moves c c' s s' asked
  | tends {asked : Option Asked} : c'.workers = c.workers → Tends c c' s asked → Moves c c' s s' asked
  | asks (r : Request) : r.isPlain = true → c'.workers = c.workers → c'.tending = c.tending → SameJobs c c' →
      SameBook c c' → r.isOutcome = false → Moves c c' s s' (some (s.now, r))

structure Step (c c' : Crew) (s s' : Site) (asked : Option Asked) : Prop where
  moves : Moves c c' s s' asked
  site : s.Leads asked s'
  staffed : c'.Staffed
  names : c'.names = c.names
  config : c'.desk.config = c.desk.config
  filter : c'.desk.filter = c.desk.filter

variable {c : Crew} {s : Site}

/-! ## Lists with one member changed -/

theorem set_split {α : Type} {l : List α} {i : Nat} {a : α} (h : l[i]? = some a) (b : α) :
    ∃ before after, l = before ++ a :: after ∧ l.set i b = before ++ b :: after := by
  obtain ⟨lt, rfl⟩ := List.getElem?_eq_some_iff.mp h
  obtain ⟨before, after, split, _, changed⟩ := List.exists_of_set lt
  exact ⟨before, after, split, changed⟩

/-! ## New runners -/

@[simp] theorem muster_desk (c : Crew) : c.muster.desk = c.desk := rfl

@[simp] theorem muster_workers (c : Crew) : c.muster.workers = c.workers := rfl

@[simp] theorem muster_monitors (c : Crew) : c.muster.monitors = c.monitors := rfl

@[simp] theorem muster_tending (c : Crew) : c.muster.tending = c.tending := rfl

@[simp] theorem muster_waiting (c : Crew) : c.muster.waiting = c.waiting := by
  simp [waiting, muster, List.flatMap_map, Runner.waiting]

@[simp] theorem muster_answered (c : Crew) : c.muster.answered = c.answered := by
  simp [answered, muster, List.flatMap_map, Runner.answered]

/-! ## Steps -/

/-- A pool with the same channel and reports, and the same runners at it. -/
theorem sameJobs_muster {c' : Crew} (channel : c'.desk.pool.channel = c.desk.pool.channel)
    (reports : c'.desk.pool.reports = c.desk.pool.reports) (runners : c'.runners = c.runners) :
    SameJobs c c'.muster := by
  constructor
  · rw [muster_waiting, waiting, channel, runners]
    exact .refl _
  · rw [muster_answered, answered, reports, runners]
    exact .refl _

/-- Nobody moved, but new runners may have come. -/
theorem tends_muster (c : Crew) (s : Site) : Tends c c.muster s none :=
  .stays rfl (sameJobs_muster rfl rfl rfl) ⟨rfl, rfl⟩

theorem Step.muster (h : s.Settled) (staffed : c.Staffed) : Step c c.muster s s none :=
  ⟨.tends rfl (tends_muster c s), h.refl, ⟨staffed.duties, staffed.fits⟩, rfl, rfl, rfl⟩

theorem step_worker (h : s.Settled) (staffed : c.Staffed) (i : Nat) :
    ∃ asked, Step c (c.move s (.worker i)).1.muster s (c.move s (.worker i)).2 asked := by
  cases found : c.workers[i]? with
  | none =>
    simp only [move, found]
    exact ⟨_, .muster h staffed⟩
  | some w =>
    simp only [move, found]
    obtain ⟨asked, step⟩ := Worker.step_moves (s := ⟨s, c.desk⟩) h w
    obtain ⟨before, after, split, changed⟩ := set_split found (w.step ⟨s, c.desk⟩).1
    have pool := step.pool
    refine ⟨asked, .works w _ before after split changed step rfl ?_, step.site, ⟨staffed.duties, staffed.fits⟩, ?_,
      step.config, step.filter⟩
    · exact sameJobs_muster (congrArg Pool.channel pool) (congrArg Pool.reports pool) rfl
    · show (c.workers.set i (w.step ⟨s, c.desk⟩).1).map (·.id) = c.workers.map (·.id)
      rw [changed, split]
      simp [step.id]

/-! ## Monitors -/

theorem find?_heartbeat {before after : List Monitor} {m : Monitor} (heartbeat : m.duty = .heartbeat)
    (once : ((before ++ m :: after).map (·.duty)).Nodup) :
    (before ++ m :: after).find? (·.duty == .heartbeat) = some m := by
  have none : before.find? (·.duty == .heartbeat) = none := by
    rw [List.find?_eq_none]
    intro m' mem same
    rw [List.map_append, List.map_cons, List.nodup_append] at once
    exact once.2.2 m'.duty (List.mem_map_of_mem mem) m.duty List.mem_cons_self (by rw [heartbeat]; simpa using same)
  rw [List.find?_append, none, List.find?_cons_of_pos (by simp [heartbeat])]
  rfl

theorem find?_other {before after : List Monitor} {m m' : Monitor} (duty : m'.duty = m.duty)
    (other : m.duty ≠ .heartbeat) :
    (before ++ m' :: after).find? (·.duty == .heartbeat) = (before ++ m :: after).find? (·.duty == .heartbeat) := by
  simp [List.find?_append, duty, other]

/-- The crew is where its heartbeat monitor is. -/
theorem tending_heartbeat {m : Monitor} {before after : List Monitor} (split : c.monitors = before ++ m :: after)
    (heartbeat : m.duty = .heartbeat) (once : (c.monitors.map (·.duty)).Nodup) : c.tending = m.tending := by
  rw [split] at once
  rw [tending, split, find?_heartbeat heartbeat once]
  rfl

theorem staffed_set {m m' : Monitor} {before after : List Monitor} {c' : Crew} (staffed : c.Staffed)
    (split : c.monitors = before ++ m :: after) (split' : c'.monitors = before ++ m' :: after)
    (duty : m'.duty = m.duty) (fits : m'.tending = .idle ∨ m'.duty = .heartbeat) : c'.Staffed := by
  obtain ⟨once, all⟩ := staffed
  rw [split] at once all
  constructor
  · rw [split']
    simpa [duty] using once
  · intro m'' mem
    rw [split'] at mem
    rcases List.mem_append.mp mem with mem | mem
    · exact all m'' (List.mem_append_left _ mem)
    · rcases List.mem_cons.mp mem with rfl | mem
      · exact fits
      · exact all m'' (List.mem_append_right _ (List.mem_cons_of_mem _ mem))

theorem sameJobs_desk {c' : Crew} (desk : c'.desk = c.desk) (runners : c'.runners = c.runners) :
    SameJobs c c'.muster :=
  sameJobs_muster (by rw [desk]) (by rw [desk]) runners

theorem sameBook_desk {c' : Crew} (desk : c'.desk = c.desk) : SameBook c c'.muster :=
  ⟨congrArg Desk.claims desk, congrArg Desk.tokens desk⟩

section

variable {c' : Crew} {s' : Site} {asked : Option Asked}

/-- What the heartbeat monitor does in a pass, it does for the crew. -/
theorem tends_of_heartbeat (moves : Tending.Moves c.tending c'.tending ⟨s, c.desk⟩ ⟨s', c'.desk⟩ asked)
    (runners : c'.runners = c.runners) :
    Tends c c'.muster s asked ∨
      (c.tending = .idle ∧ c'.tending = .idle) ∧ Tending.Moves .idle .idle ⟨s, c.desk⟩ ⟨s', c'.desk⟩ asked := by
  -- the reports without the first one
  have looked : ∀ {r : Report}, c.desk.pool.reports = r :: c'.desk.pool.reports →
      c.answered.Perm (r :: c'.muster.answered) := by
    intro r first
    rw [muster_answered, answered, answered, runners, first]
    exact List.perm_middle
  have waited : c'.desk.pool.channel = c.desk.pool.channel → c'.muster.waiting.Perm c.waiting := by
    intro channel
    rw [muster_waiting, waiting, waiting, channel, runners]
  cases moves with
  | stays same channel reports claims tokens =>
    exact Or.inl (.stays same (sameJobs_muster channel reports runners) ⟨claims, tokens⟩)
  | turns turned desk => exact Or.inl (.turns turned (sameJobs_desk desk runners) (sameBook_desk desk))
  | takes before after desk =>
    exact Or.inl (.takes before after (sameJobs_desk desk runners) (sameBook_desk desk))
  | sends job rest due before after channel reports claims tokens =>
    refine Or.inl (.sends job rest due before after ?_ ?_ ⟨claims, tokens⟩)
    · have sent : c'.desk.pool.channel = c.desk.pool.channel ++ [job] := channel
      rw [muster_waiting, waiting, waiting, sent, runners, List.append_assoc]
      exact List.perm_middle
    · have same : c'.desk.pool.reports = c.desk.pool.reports := reports
      rw [muster_answered, answered, answered, same, runners]
  | looks r left before after kept channel reports claims tokens =>
    exact Or.inl (.looks r left before after kept (waited channel) (looked reports) ⟨claims, tokens⟩)
  | drops r left before after lost channel reports claims tokens =>
    exact Or.inl (.drops r left before after lost (waited channel) (looked reports) claims tokens)
  | completes before after desk =>
    exact Or.inl (.completes before after (sameJobs_desk desk runners) (sameBook_desk desk))
  | scans ids before after scanned desk =>
    exact Or.inl (.scans ids before after scanned (sameJobs_desk desk runners) (sameBook_desk desk))
  | revokes id rest before after desk =>
    have desk : c'.desk = _ := desk.trans (Reclaim.revoke_desk ⟨s, c.desk⟩ id)
    have channel : c'.desk.pool.channel = c.desk.pool.channel := congrArg (·.pool.channel) desk
    have reports : c'.desk.pool.reports = c.desk.pool.reports := congrArg (·.pool.reports) desk
    exact Or.inl (.revokes id rest before after (sameJobs_muster channel reports runners)
      (congrArg Desk.claims desk) (congrArg Desk.tokens desk))
  | asks r before after plain desk upkeep => exact Or.inr ⟨⟨before, after⟩, .asks r rfl rfl plain desk upkeep⟩

/-- The other monitors are in no pass over the heartbeats. -/
theorem moves_of_other (moves : Tending.Moves .idle .idle ⟨s, c.desk⟩ ⟨s', c'.desk⟩ asked)
    (same : c'.tending = c.tending) (workers : c'.workers = c.workers) (runners : c'.runners = c.runners) :
    Moves c c'.muster s s' asked := by
  cases moves with
  | stays _ channel reports claims tokens =>
    exact .tends workers (.stays same (sameJobs_muster channel reports runners) ⟨claims, tokens⟩)
  | asks r _ _ plain desk upkeep =>
    exact .asks r plain workers same (sameJobs_desk desk runners) (sameBook_desk desk) upkeep
  | turns turned =>
    rcases turned with ⟨_, after⟩ | ⟨before | before, _⟩
    · cases after
    · cases before
    · cases before
  | takes before => cases before
  | sends _ _ _ before => cases before
  | looks _ _ before => cases before
  | drops _ _ before => cases before
  | completes before => cases before
  | scans _ before => cases before
  | revokes _ _ before => cases before

end

/-! ## Runners -/

theorem flatMap_split {α β : Type} (f : α → List β) (before after : List α) (a : α) :
    ((before ++ a :: after).flatMap f).Perm (f a ++ (before ++ after).flatMap f) := by
  rw [List.flatMap_append, List.flatMap_cons, List.flatMap_append]
  exact List.perm_append_comm_assoc ..

/-- The jobs that wait, those of one runner first. -/
theorem waiting_split {r : Runner} {before after : List Runner} (split : c.runners = before ++ r :: after) :
    c.waiting.Perm (r.waiting ++ (c.desk.pool.channel ++ (before ++ after).flatMap (·.waiting))) := by
  rw [waiting, split]
  exact ((flatMap_split _ before after r).append_left _).trans (List.perm_append_comm_assoc ..)

theorem answered_split {r : Runner} {before after : List Runner} (split : c.runners = before ++ r :: after) :
    c.answered.Perm (r.answered ++ ((before ++ after).flatMap (·.answered) ++ c.desk.pool.reports)) := by
  rw [answered, split, ← List.append_assoc]
  exact (flatMap_split _ before after r).append_right _

theorem tends_of_runner {c' : Crew} {s' : Site} {asked : Option Asked} {r r' : Runner} {before after : List Runner}
    (moves : Runner.Moves r r' ⟨s, c.desk⟩ ⟨s', c'.desk⟩ asked) (split : c.runners = before ++ r :: after)
    (split' : c'.runners = before ++ r' :: after) (same : c'.tending = c.tending) (book : SameBook c c'.muster) :
    Tends c c'.muster s asked := by
  have waited := waiting_split split
  have waited' := muster_waiting c' ▸ waiting_split split'
  have answered := answered_split split
  have answered' := muster_answered c' ▸ answered_split split'
  cases moves with
  | stays jobs reports channel handed =>
    have channel : c'.desk.pool.channel = c.desk.pool.channel := channel
    have handed : c'.desk.pool.reports = c.desk.pool.reports := handed
    rw [jobs, channel] at waited'
    rw [reports, handed] at answered'
    exact .stays same ⟨waited'.trans waited.symm, answered'.trans answered.symm⟩ book
  | takes job free busy none none' channel handed =>
    have channel : c.desk.pool.channel = job :: c'.desk.pool.channel := channel
    have handed : c'.desk.pool.reports = c.desk.pool.reports := handed
    rw [free, channel] at waited
    rw [busy] at waited'
    rw [none] at answered
    rw [none', handed] at answered'
    exact .stays same ⟨waited'.trans waited.symm, answered'.trans answered.symm⟩ book
  | serves job busy free none done channel handed =>
    have channel : c'.desk.pool.channel = c.desk.pool.channel := channel
    have handed : c'.desk.pool.reports = c.desk.pool.reports := handed
    rw [busy] at waited
    rw [free, channel] at waited'
    rw [none] at answered
    rw [done, handed] at answered'
    exact .serves job same (waited.trans (waited'.symm.cons job)) (answered'.trans (answered.symm.cons _)) book
  | hands report free free' done none channel handed =>
    have channel : c'.desk.pool.channel = c.desk.pool.channel := channel
    have handed : c'.desk.pool.reports = c.desk.pool.reports ++ [report] := handed
    rw [free] at waited
    rw [free', channel] at waited'
    rw [done] at answered
    rw [none, handed, List.nil_append, ← List.append_assoc] at answered'
    exact .stays same ⟨waited'.trans waited.symm,
      answered'.trans ((List.perm_append_singleton report _).trans answered.symm)⟩ book

/-! ## Members -/

/-- Does the member take part in heartbeat passes? -/
def isPulse (c : Crew) : Member → Bool
  | .worker _ => false
  | .monitor i => (c.monitors[i]?).any (·.duty == .heartbeat)
  | .runner _ => true

theorem step_monitor (h : s.Settled) (staffed : c.Staffed) (i : Nat) :
    ∃ asked, Step c (c.move s (.monitor i)).1.muster s (c.move s (.monitor i)).2 asked ∧
      (c.isPulse (.monitor i) = true → c.tending ≠ .idle → Tends c (c.move s (.monitor i)).1.muster s asked) := by
  cases found : c.monitors[i]? with
  | none =>
    simp only [move, found]
    exact ⟨_, .muster h staffed, fun _ _ => tends_muster c s⟩
  | some m =>
    simp only [move, isPulse, found, Option.any_some, beq_iff_eq]
    obtain ⟨asked, step⟩ := Monitor.step_moves (s := ⟨s, c.desk⟩) h m
    obtain ⟨before, after, split, changed⟩ := set_split found (m.step ⟨s, c.desk⟩).1
    generalize m.step ⟨s, c.desk⟩ = stepped at step changed
    obtain ⟨m', scene⟩ := stepped
    let c' : Crew := { c with desk := scene.desk, monitors := c.monitors.set i m' }
    have fits : m'.tending = .idle ∨ m'.duty = .heartbeat := by
      rw [step.duty]
      rcases step.fits with idle | busy | heartbeat
      · exact Or.inl idle
      · exact Or.inr ((staffed.fits m (List.mem_of_getElem? found)).resolve_left busy)
      · exact Or.inr heartbeat
    have staffed' : c'.Staffed := staffed_set staffed split changed step.duty fits
    suffices moves : Moves c c'.muster s scene.site asked ∧
        (m.duty = .heartbeat → c.tending ≠ .idle → Tends c c'.muster s asked) from
      ⟨asked, ⟨moves.1, step.site, ⟨staffed'.duties, staffed'.fits⟩, rfl, step.config, step.filter⟩, moves.2⟩
    by_cases heartbeat : m.duty = .heartbeat
    · have before : c.tending = m.tending := tending_heartbeat split heartbeat staffed.duties
      have after : c'.tending = m'.tending := tending_heartbeat changed (step.duty.trans heartbeat) staffed'.duties
      have moves := step.moves
      rw [← before, ← after] at moves
      rcases tends_of_heartbeat moves rfl with tends | ⟨⟨idle, idle'⟩, moves⟩
      · exact ⟨.tends rfl tends, fun _ _ => tends⟩
      · exact ⟨moves_of_other moves (idle'.trans idle.symm) rfl rfl, fun _ busy => absurd idle busy⟩
    · have idle : m.tending = .idle := (staffed.fits m (List.mem_of_getElem? found)).resolve_right heartbeat
      have idle' : m'.tending = .idle := fits.resolve_right (step.duty ▸ heartbeat)
      have split' : c'.monitors = before ++ m' :: after := changed
      have same : c'.tending = c.tending := by
        rw [tending, tending, split', split, find?_other step.duty heartbeat]
      have moves := step.moves
      rw [idle, idle'] at moves
      exact ⟨moves_of_other moves same rfl rfl, fun pulse => absurd pulse heartbeat⟩

theorem step_runner (h : s.Settled) (staffed : c.Staffed) (i : Nat) :
    ∃ asked, Step c (c.move s (.runner i)).1.muster s (c.move s (.runner i)).2 asked ∧
      Tends c (c.move s (.runner i)).1.muster s asked := by
  cases found : c.runners[i]? with
  | none =>
    simp only [move, found]
    exact ⟨_, .muster h staffed, tends_muster c s⟩
  | some r =>
    simp only [move, found]
    obtain ⟨asked, step⟩ := Runner.step_moves (s := ⟨s, c.desk⟩) h r
    obtain ⟨before, after, split, changed⟩ := set_split found (r.step ⟨s, c.desk⟩).1
    generalize r.step ⟨s, c.desk⟩ = stepped at step changed
    obtain ⟨r', scene⟩ := stepped
    let c' : Crew := { c with desk := scene.desk, runners := c.runners.set i r' }
    have desk : c'.desk = { c.desk with pool := c'.desk.pool } := step.desk
    have claims : c'.desk.claims = c.desk.claims := by rw [desk]
    have tokens : c'.desk.tokens = c.desk.tokens := by rw [desk]
    have config : c'.desk.config = c.desk.config := by rw [desk]
    have filter : c'.desk.filter = c.desk.filter := by rw [desk]
    have tends : Tends c c'.muster s asked := tends_of_runner step.moves split changed rfl ⟨claims, tokens⟩
    exact ⟨asked, ⟨.tends rfl tends, step.site, ⟨staffed.duties, staffed.fits⟩, rfl, config, filter⟩, tends⟩

/-- A step of a member comes to one of the moves of its crew. -/
theorem step_moves (h : s.Settled) (staffed : c.Staffed) (m : Member) :
    ∃ asked, Step c (c.move s m).1.muster s (c.move s m).2 asked := by
  cases m with
  | worker i => exact step_worker h staffed i
  | monitor i =>
    obtain ⟨asked, step, _⟩ := step_monitor h staffed i
    exact ⟨asked, step⟩
  | runner i =>
    obtain ⟨asked, step, _⟩ := step_runner h staffed i
    exact ⟨asked, step⟩

/-- In a pass the heartbeat monitor and the runners do nothing else. -/
theorem step_tends (h : s.Settled) (staffed : c.Staffed) {m : Member} (pulse : c.isPulse m = true)
    (busy : c.tending ≠ .idle) :
    ∃ asked, Step c (c.move s m).1.muster s (c.move s m).2 asked ∧ Tends c (c.move s m).1.muster s asked := by
  cases m with
  | worker i => cases pulse
  | monitor i =>
    obtain ⟨asked, step, tends⟩ := step_monitor h staffed i
    exact ⟨asked, step, tends pulse busy⟩
  | runner i => exact step_runner h staffed i

end Crew

end ClaimQueue
