/-
  ClaimQueue.Proofs.Upkeep.Pulses — what a heartbeat pass returns, and what it leaves.

  The jobs of a pass are the claims on the book when it began. Whatever order they are run in,
  the store is the one from the beginning with the jobs asked about so far refreshed
  (`Store.refreshed`), and every answer is the one that the store from the beginning would have
  given: a refresh says nothing about who holds what. So the reports looked at are told apart
  by that store alone, and the book, the tokens and the two counts follow (`Tallied`).

  When no report is due any more, all jobs were asked about. What the scan takes back then is
  overdue and of no claim on the book, for those were heard of just now; so it revokes nothing.
  `Pulsed` says what has come of the pass.
-/

import ClaimQueue.Proofs.Store.Overdue
import ClaimQueue.Proofs.Upkeep.Station

namespace ClaimQueue

/-- Is it the claim of the job, held by its worker? -/
def Job.covers (job : Job) (m : Message) : Bool := job.id == m.id && Store.holds m job.holding.worker

/-- Is the message held by the worker that the book names for it? -/
def ClaimBook.covers (b : ClaimBook) (m : Message) : Bool :=
  b.entries.any fun e => e.1 == m.id && Store.holds m e.2.worker

/-- The message, its heartbeat set. -/
def Message.heard (m : Message) (now : Instant) : Message := { m with heartbeatAt := some now }

/-- What a pass makes of a message: it hears of the claims on the book that are held, and takes
the others back that are overdue. -/
def Message.pulsed (m : Message) (now : Instant) (config : HeartbeatConfig) (b : ClaimBook) : Message :=
  if b.covers m then m.heard now
  else if m.Overdue now config.time config.lookback then
    { m with
      status := .pending
      owner := none
      heartbeatAt := none
      visibleAt := none
      version := m.version + 1
      updatedAt := now }
  else m

theorem ClaimBook.covers_eq (b : ClaimBook) (m : Message) : b.covers m = b.jobs.any (·.covers m) := by
  simp only [covers, jobs, List.any_map]
  rfl

/-! ## Refreshing, job by job -/

namespace Store

variable {s : Store} {now : Instant} {jobs jobs' : List Job}

theorem modify_congr {p q : Message → Bool} {f g : Message → Message} (same : ∀ m ∈ s.messages, p m = q m)
    (alike : ∀ m, q m = true → f m = g m) : s.modify p f = s.modify q g := by
  have entries : (s.modify p f).entries = (s.modify q g).entries := by
    refine List.map_congr_left fun e mem => ?_
    rw [same e.message (List.mem_map_of_mem mem)]
    split
    · rw [alike _ ‹_›]
    · rfl
  exact congrArg (fun entries => { s with entries }) entries

/-- A change after a change is one change, if it changes the same from there. -/
theorem modify_modify {p q : Message → Bool} {f : Message → Message} (blind : ∀ m, q (f m) = q m)
    (once : ∀ m, f (f m) = f m) : (s.modify p f).modify q f = s.modify (fun m => q m || p m) f := by
  have entries : ((s.modify p f).modify q f).entries = (s.modify (fun m => q m || p m) f).entries := by
    simp only [modify, List.map_map]
    refine List.map_congr_left fun e _ => ?_
    simp only [Function.comp_apply]
    by_cases first : p e.message = true
    · by_cases second : q e.message = true
      · simp [first, second, blind, once]
      · simp [first, second, blind]
    · simp [first]
  exact congrArg (fun entries => { s with entries }) entries

/-- The store with the claims of the jobs refreshed, those that are held. -/
def refreshed (s : Store) (now : Instant) (jobs : List Job) : Store :=
  s.modify (fun m => jobs.any (·.covers m)) (·.heard now)

theorem refreshed_nil (s : Store) (now : Instant) : s.refreshed now [] = s := by
  have entries : (s.refreshed now []).entries = s.entries := by simp [refreshed, modify]
  exact congrArg (fun entries => { s with entries }) entries

theorem refreshed_jobs (s : Store) (now : Instant) (b : ClaimBook) :
    s.refreshed now b.jobs = s.modify b.covers (·.heard now) :=
  modify_congr (fun m _ => (b.covers_eq m).symm) fun _ _ => rfl

theorem refreshed_perm (perm : jobs.Perm jobs') : s.refreshed now jobs = s.refreshed now jobs' := by
  refine modify_congr (fun m _ => ?_) fun _ _ => rfl
  rw [Bool.eq_iff_iff, List.any_eq_true, List.any_eq_true]
  simp only [perm.mem_iff]

theorem held_refreshed (s : Store) (now : Instant) (jobs : List Job) (id : MessageId) (worker : WorkerId) :
    (s.refreshed now jobs).held id worker = s.held id worker := by
  unfold held refreshed
  rw [get?_modify s _ (f := (·.heard now)) fun _ => rfl]
  cases s.get? id with
  | none => rfl
  | some m =>
    simp only [Option.map_some, Option.any_some]
    split <;> rfl

theorem distinct_refreshed (distinct : s.Distinct) (now : Instant) (jobs : List Job) : (s.refreshed now jobs).Distinct :=
  distinct.modify _ fun _ => rfl

/-- The store is asked for one job. -/
theorem resetHeartbeat_eq (distinct : s.Distinct) (now : Instant) (job : Job) :
    (s.resetHeartbeat job.id job.holding.worker now).2 = s.modify job.covers (·.heard now) := by
  -- the message under the id of the job is the only one that the job can cover
  have only : ∀ m ∈ s.messages, m.id = job.id → s.get? job.id = some m := fun m mem same => same ▸ distinct.get?_of_mem mem
  unfold resetHeartbeat
  split
  · rename_i held
    show s.modify (·.id == job.id) (·.heard now) = _
    refine modify_congr (fun m mem => ?_) fun _ _ => rfl
    by_cases same : m.id = job.id
    · rw [only m mem same, Option.any_some] at held
      simp [Job.covers, same, held]
    · have other : (job.id == m.id) = false := by simpa using Ne.symm same
      have other' : (m.id == job.id) = false := by simpa using same
      simp [Job.covers, other, other']
  · rename_i free
    have none : s.modify job.covers (·.heard now) = s.modify (fun _ => false) id := by
      refine modify_congr (fun m mem => ?_) fun _ => nofun
      by_cases same : m.id = job.id
      · rw [only m mem same, Option.any_some] at free
        simp [Job.covers, free]
      · have other : (job.id == m.id) = false := by simpa using Ne.symm same
        simp [Job.covers, other]
    have entries : (s.modify (fun _ => false) id).entries = s.entries := by simp [modify]
    rw [none]
    exact congrArg (fun entries => { s with entries }) entries.symm

theorem refreshed_cons (distinct : s.Distinct) (now : Instant) (job : Job) (jobs : List Job) :
    ((s.refreshed now jobs).resetHeartbeat job.id job.holding.worker now).2 = s.refreshed now (job :: jobs) := by
  rw [resetHeartbeat_eq (distinct_refreshed distinct now jobs)]
  exact modify_modify (fun _ => rfl) fun _ => rfl

/-! ## The scan after it -/

theorem not_overdue (m : Message) (now : Instant) (dead : Span) (lookback : Option Span) :
    ¬(m.heard now).Overdue now dead lookback := by
  rintro ⟨_, silent⟩
  have late := (silent now rfl).1
  unfold Instant.since at late
  omega

/-- What the scan finds, and what it leaves, once the claims on the book were heard of. -/
theorem reclaimDead_refreshed (s : Store) (now : Instant) (config : HeartbeatConfig) (b : ClaimBook) :
    (s.refreshed now b.jobs).reclaimDead now config.time config.lookback =
      ((s.messages.filter fun m => !b.covers m && decide (m.Overdue now config.time config.lookback)).map (·.id),
        { s with entries := s.entries.map fun e => { e with message := e.message.pulsed now config b } }) := by
  have found : isReclaimable now config.time config.lookback = fun m => decide (m.Overdue now config.time config.lookback) :=
    funext fun m => isReclaimable_eq m now config.time config.lookback
  -- what was heard of just now is not overdue
  have left : ∀ m : Message, decide ((if b.covers m then m.heard now else m).Overdue now config.time config.lookback) =
      (!b.covers m && decide (m.Overdue now config.time config.lookback)) := by
    intro m
    by_cases own : b.covers m = true
    · simp [own, not_overdue]
    · simp [own]
  have same : ∀ m : Message, (if b.covers m then m.heard now else m).id = m.id := by
    intro m
    split <;> rfl
  rw [refreshed_jobs]
  refine Prod.ext ?_ ?_
  · simp only [reclaimDead, found, messages_modify, List.filter_map, List.map_map]
    refine (List.map_congr_left fun m _ => same m).trans ?_
    simp only [Function.comp_def, left]
  · simp only [reclaimDead, found, modify, List.map_map]
    refine congrArg (fun entries => { s with entries }) (List.map_congr_left fun e _ => ?_)
    simp only [Function.comp_apply, Message.pulsed, decide_eq_true_eq]
    by_cases own : b.covers e.message = true
    · simp [own, not_overdue]
    · simp only [own]
      by_cases overdue : e.message.Overdue now config.time config.lookback
      · simp [overdue, Change.apply, Change.rollback]
      · simp [overdue]

end Store

/-! ## The course of a pass -/

/-- Does the worker hold the claim? -/
def Job.isHeld (job : Job) (s : Store) : Bool := s.held job.id job.holding.worker

/-- The refreshed and the lost claims so far, from the first job on until the scan is made. -/
def Pass.sums? : Pass → Option (Nat × List MessageId)
  | .refreshing (.submitting _ _ _ _) => some (0, [])
  | .refreshing (.collecting _ refreshed lost) => some (refreshed, lost)
  | .refreshing (.done refreshed lost) => some (refreshed, lost)
  | .reclaiming _ _ (.scanning (.done _)) => none
  | .reclaiming refreshed lost (.scanning _) => some (refreshed, lost)
  | _ => none

/-- What the pass comes to, once the scan is made. -/
def Pass.pulse? : Pass → Option Pulse
  | .reclaiming refreshed lost (.scanning (.done (.ok ids))) => some ⟨refreshed, lost, ids⟩
  | .reclaiming refreshed lost (.revoking ids _) => some ⟨refreshed, lost, ids⟩
  | .reclaiming refreshed lost (.done (.ok ids)) => some ⟨refreshed, lost, ids⟩
  | .done (.ok pulse) => some pulse
  | _ => none

namespace Station

abbrev store (s : Station) : Store := s.site.store

abbrev claims (s : Station) : ClaimBook := s.crew.desk.claims

abbrev tokens (s : Station) : Tokens := s.crew.desk.tokens

abbrev heartbeat (s : Station) : HeartbeatConfig := s.crew.desk.config.heartbeat

/-- What has come of a pass that began at `s`. -/
structure Pulsed (s : Station) (now : Instant) (pulse : Pulse) (s' : Station) : Prop where
  refreshed : pulse.refreshed = s.claims.entries.countP fun e => s.store.held e.1 e.2.worker
  lost : pulse.lost.Perm ((s.claims.entries.filter fun e => !s.store.held e.1 e.2.worker).map (·.1))
  reclaimed : pulse.reclaimed = (s.store.messages.filter fun m =>
    !s.claims.covers m && m.Overdue now s.heartbeat.time s.heartbeat.lookback).map (·.id)
  book : s'.claims.entries = s.claims.entries.filter fun e => s.store.held e.1 e.2.worker
  tokens : ∀ t, s'.tokens.isCancelled t = true ↔ s.tokens.isCancelled t = true ∨
    ∃ e ∈ s.claims.entries, s.store.held e.1 e.2.worker = false ∧ e.2.token = t
  store : s'.store = { s.store with
    entries := s.store.entries.map fun e => { e with message := e.message.pulsed now s.heartbeat s.claims } }

/-- How far a pass that began at `b` is with its jobs; it has looked at the reports on `looked`. -/
structure Tallied (b : Station) (now : Instant) (s : Station) (refreshed : Nat) (lost : List MessageId)
    (looked : List Job) : Prop where
  jobs : (s.manned.jobs ++ looked).Perm b.claims.jobs
  reports : ∀ r ∈ s.manned.answered, r.result = (b.store.resetHeartbeat r.job.id r.job.holding.worker now).1
  store : s.store = b.store.refreshed now (s.manned.answered.map (·.job) ++ looked)
  refreshed : refreshed = looked.countP (·.isHeld b.store)
  book : s.claims.entries = b.claims.entries.filter fun e => !lost.contains e.1
  lost : lost = (looked.filter (!·.isHeld b.store)).map (·.id)
  tokens : ∀ t, s.tokens.isCancelled t = true ↔ b.tokens.isCancelled t = true ∨
    ∃ job ∈ looked, job.isHeld b.store = false ∧ job.holding.token = t

/-- Where a pass is that began at `b`. -/
inductive Course (b : Station) (now : Instant) (s : Station) : Prop
  | begins : s.pass = .start → s.store = b.store → s.claims = b.claims → s.tokens = b.tokens → Course b now s
  | tends (refreshed : Nat) (lost : List MessageId) (looked : List Job) : s.pass.sums? = some (refreshed, lost) →
      Tallied b now s refreshed lost looked → Course b now s
  | pulsed (pulse : Pulse) : s.pass.pulse? = some pulse →
      (∀ rest, s.pass.tending = .revoking rest → rest ⊆ pulse.reclaimed) → Pulsed b now pulse s → Course b now s

variable {b s s' : Station} {now : Instant} {refreshed : Nat} {lost : List MessageId} {looked : List Job} {pulse : Pulse}

theorem Pulsed.same (pulsed : Pulsed b now pulse s) (store : s'.store = s.store) (book : s.manned.SameBook s'.manned) :
    Pulsed b now pulse s' := by
  have claims : s'.claims = s.claims := book.claims
  have tokens : s'.tokens = s.tokens := book.tokens
  exact ⟨pulsed.refreshed, pulsed.lost, pulsed.reclaimed, claims ▸ pulsed.book, tokens ▸ pulsed.tokens,
    store ▸ pulsed.store⟩

/-- A step that hands jobs and reports on. -/
theorem Tallied.same (tallied : Tallied b now s refreshed lost looked) (jobs : s'.manned.jobs.Perm s.manned.jobs)
    (answered : s'.manned.answered.Perm s.manned.answered) (store : s'.store = s.store)
    (book : s.manned.SameBook s'.manned) : Tallied b now s' refreshed lost looked := by
  have claims : s'.claims = s.claims := book.claims
  have tokens : s'.tokens = s.tokens := book.tokens
  refine ⟨(jobs.append_right looked).trans tallied.jobs, fun r mem => tallied.reports r (answered.mem_iff.mp mem), ?_,
    tallied.refreshed, claims ▸ tallied.book, tallied.lost, tokens ▸ tallied.tokens⟩
  rw [store, tallied.store]
  exact Store.refreshed_perm ((answered.symm.map _).append_right looked)

/-- The store is asked about a job. -/
theorem Tallied.serves (tallied : Tallied b now s refreshed lost looked) (distinct : b.store.Distinct) {job : Job}
    (waiting : s.manned.waiting.Perm (job :: s'.manned.waiting))
    (answered : s'.manned.answered.Perm
      (⟨job, (s.store.resetHeartbeat job.id job.holding.worker now).1⟩ :: s.manned.answered))
    (store : s'.store = (s.store.resetHeartbeat job.id job.holding.worker now).2) (pass : s'.pass = s.pass)
    (book : s.manned.SameBook s'.manned) : Tallied b now s' refreshed lost looked := by
  have claims : s'.claims = s.claims := book.claims
  have tokens : s'.tokens = s.tokens := book.tokens
  have reply : (s.store.resetHeartbeat job.id job.holding.worker now).1 =
      (b.store.resetHeartbeat job.id job.holding.worker now).1 := by
    rw [Store.resetHeartbeat_reply, Store.resetHeartbeat_reply, tallied.store, Store.held_refreshed]
  have handed : (s'.manned.answered.map (·.job)).Perm (job :: s.manned.answered.map (·.job)) := answered.map _
  refine ⟨?_, ?_, ?_, tallied.refreshed, claims ▸ tallied.book, tallied.lost, tokens ▸ tallied.tokens⟩
  · refine (List.Perm.append_right looked ?_).trans tallied.jobs
    have unsent : s'.manned.tending = s.manned.tending := congrArg Pass.tending pass
    rw [Crew.jobs, Crew.jobs, unsent]
    refine List.perm_iff_count.mpr fun j => ?_
    have waited := waiting.count_eq j
    have handed := handed.count_eq j
    simp only [List.count_append, List.count_cons] at waited handed ⊢
    omega
  · intro r mem
    rcases List.mem_cons.mp (answered.mem_iff.mp mem) with rfl | old
    · exact reply
    · exact tallied.reports r old
  · rw [store, tallied.store, Store.refreshed_cons distinct]
    exact Store.refreshed_perm (handed.symm.append_right looked)

/-- The next report is looked at. -/
theorem Tallied.looks (tallied : Tallied b now s refreshed lost looked) {r : Report}
    (jobs : s.manned.jobs.Perm (r.job :: s'.manned.jobs)) (answered : s.manned.answered.Perm (r :: s'.manned.answered))
    (store : s'.store = s.store) :
    (s'.manned.jobs ++ (looked ++ [r.job])).Perm b.claims.jobs ∧
      (∀ r ∈ s'.manned.answered, r.result = (b.store.resetHeartbeat r.job.id r.job.holding.worker now).1) ∧
      s'.store = b.store.refreshed now (s'.manned.answered.map (·.job) ++ (looked ++ [r.job])) := by
  have moved : ∀ {all rest : List Job}, all.Perm (r.job :: rest) → (rest ++ (looked ++ [r.job])).Perm (all ++ looked) := by
    intro all rest perm
    rw [← List.append_assoc]
    exact (List.perm_append_singleton r.job _).trans (perm.symm.append_right looked)
  refine ⟨(moved jobs).trans tallied.jobs, ?_, ?_⟩
  · exact fun r' mem => tallied.reports r' (answered.mem_iff.mpr (List.mem_cons_of_mem _ mem))
  · rw [store, tallied.store]
    exact Store.refreshed_perm (moved (answered.map (·.job))).symm

/-- The claim is held, and counted. -/
theorem Tallied.counts (tallied : Tallied b now s refreshed lost looked) {r : Report}
    (jobs : s.manned.jobs.Perm (r.job :: s'.manned.jobs)) (answered : s.manned.answered.Perm (r :: s'.manned.answered))
    (store : s'.store = s.store) (held : r.job.isHeld b.store = true) (book : s.manned.SameBook s'.manned) :
    Tallied b now s' (refreshed + 1) lost (looked ++ [r.job]) := by
  have claims : s'.claims = s.claims := book.claims
  have tokens : s'.tokens = s.tokens := book.tokens
  obtain ⟨jobs, reports, store⟩ := tallied.looks jobs answered store
  refine ⟨jobs, reports, store, ?_, claims ▸ tallied.book, ?_, fun t => ?_⟩
  · rw [tallied.refreshed, List.countP_append, List.countP_singleton, if_pos held]
  · simp [tallied.lost, held]
  · rw [tokens, tallied.tokens t]
    simp [or_and_right, exists_or, held]

/-- A claim that has not been looked at is on the book still. -/
theorem Tallied.listed (tallied : Tallied b now s refreshed lost looked) (keyed : b.claims.Keyed) {job : Job}
    (mem : job ∈ s.manned.jobs) : (job.id, job.holding) ∈ s.claims.entries := by
  have once : ((s.manned.jobs ++ looked).map (·.id)).Nodup := by
    refine (tallied.jobs.map (·.id)).nodup_iff.mpr ?_
    rw [ClaimBook.jobs, List.map_map]
    exact keyed
  rw [List.map_append, List.nodup_append] at once
  have unlisted : job.id ∉ lost := by
    rw [tallied.lost]
    intro listed
    obtain ⟨job', mem', same⟩ := List.mem_map.mp listed
    exact once.2.2 job.id (List.mem_map_of_mem mem) job'.id (List.mem_map_of_mem (List.mem_filter.mp mem').1) same.symm
  rw [tallied.book, List.mem_filter]
  refine ⟨ClaimBook.mem_jobs.mp (tallied.jobs.mem_iff.mp (List.mem_append_left _ mem)), ?_⟩
  simpa using unlisted

/-- The claim is lost: its entry goes, and its token is cancelled. -/
theorem Tallied.drops (tallied : Tallied b now s refreshed lost looked) {r : Report}
    (jobs : s.manned.jobs.Perm (r.job :: s'.manned.jobs)) (answered : s.manned.answered.Perm (r :: s'.manned.answered))
    (store : s'.store = s.store) (free : r.job.isHeld b.store = false) (keyed : b.claims.Keyed) (keyed' : s.claims.Keyed)
    (claims : s'.claims = (s.claims.remove r.job.id r.job.holding.worker).2)
    (tokens : s'.tokens = if (s.claims.remove r.job.id r.job.holding.worker).1.isSome
      then s.tokens.cancel r.job.holding.token else s.tokens) :
    Tallied b now s' refreshed (lost ++ [r.job.id]) (looked ++ [r.job]) := by
  have entry := tallied.listed keyed (jobs.mem_iff.mpr List.mem_cons_self)
  have removed : s.claims.remove r.job.id r.job.holding.worker = (some r.job.holding, s.claims.without r.job.id) := by
    simp [ClaimBook.remove, keyed'.get?_of_mem entry]
  rw [removed] at claims tokens
  obtain ⟨jobs, reports, store⟩ := tallied.looks jobs answered store
  refine ⟨jobs, reports, store, ?_, ?_, ?_, fun t => ?_⟩
  · rw [tallied.refreshed, List.countP_append, List.countP_singleton, if_neg (by simp [free]), Nat.add_zero]
  · rw [claims, ClaimBook.without, tallied.book, List.filter_filter]
    refine List.filter_congr fun e _ => ?_
    by_cases same : e.1 = r.job.id
    · simp [same]
    · have other : (e.1 != r.job.id) = true := by simpa using same
      simp [same, other]
  · simp [tallied.lost, free]
  · rw [tokens, Option.isSome_some, if_pos rfl, Tokens.isCancelled_cancel, tallied.tokens t]
    constructor
    · rintro (rfl | before | ⟨job, mem, lost, token⟩)
      · exact Or.inr ⟨r.job, by simp, free, rfl⟩
      · exact Or.inl before
      · exact Or.inr ⟨job, List.mem_append_left _ mem, lost, token⟩
    · rintro (before | ⟨job, mem, lost, token⟩)
      · exact Or.inr (Or.inl before)
      · rcases List.mem_append.mp mem with mem | mem
        · exact Or.inr (Or.inr ⟨job, mem, lost, token⟩)
        · cases List.mem_singleton.mp mem
          exact Or.inl token.symm

/-! ## Turns -/

/-- A runner hands jobs and reports on, or asks the store about a job. -/
theorem runner_asks (settled : s.site.Settled) (i : Nat) : ∃ asked, s.site.Leads asked (s.turn (.runner i)).site ∧
    (s.turn (.runner i)).crew.desk.config = s.crew.desk.config ∧ s.manned.SameBook (s.turn (.runner i)).manned ∧
    (asked = none ∧ s.manned.SameJobs (s.turn (.runner i)).manned ∨
      ∃ job : Job, asked = some (s.site.now, .resetHeartbeat job.id job.holding.worker) ∧
        s.manned.waiting.Perm (job :: (s.turn (.runner i)).manned.waiting) ∧
        (s.turn (.runner i)).manned.answered.Perm
          (⟨job, (s.store.resetHeartbeat job.id job.holding.worker s.site.now).1⟩ :: s.manned.answered)) := by
  obtain ⟨asked, tends, site, config⟩ := s.runner_tends settled i
  have same : (s.turn (.runner i)).manned.tending = s.manned.tending := rfl
  -- all other steps move the pass
  have moved : ∀ {t t' : Tending} {P : Prop}, s.manned.tending = t → (s.turn (.runner i)).manned.tending = t' → t' ≠ t → P :=
    fun before after other => absurd (after.symm.trans (same.trans before)) other
  refine ⟨asked, site, config, ?_⟩
  cases tends with
  | stays _ jobs book => exact ⟨book, Or.inl ⟨rfl, jobs⟩⟩
  | serves job _ waiting answered book => exact ⟨book, Or.inr ⟨job, rfl, waiting, answered⟩⟩
  | turns turned =>
    rcases turned with ⟨before, after⟩ | ⟨before | before, after⟩ <;> exact moved before after nofun
  | takes before after =>
    refine moved before after ?_
    split <;> exact nofun
  | sends job rest due before after => exact moved before after (by simp)
  | looks r left before after => exact moved before after (by simp)
  | drops r left before after => exact moved before after (by simp)
  | completes before after => exact moved before after nofun
  | scans ids before after => exact moved before after nofun
  | revokes id rest before after => exact moved before after (by simp)

theorem Sound.no_jobs (sound : s.Sound) (none : s.pass.tending.due = 0) :
    s.manned.jobs = [] ∧ s.manned.waiting = [] ∧ s.manned.answered = [] := by
  have jobs := sound.balanced.no_jobs none
  have parts := jobs
  simp only [Crew.jobs, List.append_eq_nil_iff, List.map_eq_nil_iff] at parts
  exact ⟨jobs, parts.1.2, parts.2⟩

theorem due_of_pulse {pass : Pass} (known : pass.pulse? = some pulse) : pass.tending.due = 0 := by
  cases pass with
  | refreshing refresh => cases known
  | done result => rfl
  | reclaiming refreshed lost reclaim =>
    cases reclaim with
    | scanning call =>
      cases call with
      | done result => cases result <;> rfl
      | _ => rfl
    | _ => rfl

/-- Whatever a runner does, the pass is where it was. -/
theorem Course.runner (course : Course b now s) (sound : s.Sound) (clock : s.site.now = now)
    (distinct : b.store.Distinct) (i : Nat) : Course b now (s.turn (.runner i)) := by
  obtain ⟨asked, site, _, book, step⟩ := s.runner_asks sound.settled i
  have pass : (s.turn (.runner i)).pass = s.pass := rfl
  generalize s.turn (.runner i) = s' at site book step pass
  -- where there is no job, nothing is asked
  have quiet : s.pass.tending.due = 0 → s'.store = s.store := by
    intro none
    rcases step with ⟨rfl, _⟩ | ⟨job, _, waiting, _⟩
    · exact site.store
    · rw [(sound.no_jobs none).2.1] at waiting
      cases waiting.length_eq
  cases course with
  | begins start store claims tokens =>
    refine .begins (pass.trans start) ((quiet (by rw [start]; rfl)).trans store) (book.claims.trans claims) ?_
    exact book.tokens.trans tokens
  | pulsed pulse known rest pulsed =>
    exact .pulsed pulse (pass ▸ known) (pass ▸ rest) (pulsed.same (quiet (due_of_pulse known)) book)
  | tends refreshed lost looked sums tallied =>
    refine .tends refreshed lost looked (pass ▸ sums) ?_
    rcases step with ⟨rfl, jobs⟩ | ⟨job, rfl, waiting, answered⟩
    · refine tallied.same ?_ jobs.answered site.store book
      have unsent : s'.manned.tending = s.manned.tending := congrArg Pass.tending pass
      rw [Crew.jobs, Crew.jobs, unsent]
      exact (jobs.waiting.append_left _).append (jobs.answered.map _)
    · rw [clock] at answered
      have store : s'.store = (s.store.resetHeartbeat job.id job.holding.worker now).2 := by
        have served : s'.store = _ := site.store
        rw [clock] at served
        exact served
      exact tallied.serves distinct waiting answered store pass book

/-- When all reports were looked at, the lost claims are those that were not held. -/
theorem Tallied.lost_iff (tallied : Tallied b now s refreshed lost looked) (all : looked.Perm b.claims.jobs)
    (keyed : b.claims.Keyed) {e : MessageId × Holding} (mem : e ∈ b.claims.entries) :
    e.1 ∈ lost ↔ b.store.held e.1 e.2.worker = false := by
  simp only [tallied.lost, List.mem_map, List.mem_filter, all.mem_iff, ClaimBook.mem_jobs]
  constructor
  · rintro ⟨job, ⟨mem', free⟩, same⟩
    -- no other entry has the id
    have found := keyed.get?_of_mem mem'
    rw [same, keyed.get?_of_mem (h := e.2) mem] at found
    rw [Option.some.inj found, ← same]
    simpa [Job.isHeld] using free
  · intro free
    exact ⟨⟨e.1, e.2⟩, ⟨mem, by simp [Job.isHeld, free]⟩, rfl⟩

/-- The scan comes when every job was answered; it finishes what the jobs began. -/
theorem Tallied.pulsed (tallied : Tallied b now s refreshed lost looked) (jobs : s.manned.jobs = [])
    (answered : s.manned.answered = []) (keyed : b.claims.Keyed) (book : s.manned.SameBook s'.manned)
    (store : s'.store = (s.store.reclaimDead now b.heartbeat.time b.heartbeat.lookback).2) :
    Pulsed b now ⟨refreshed, lost, (s.store.reclaimDead now b.heartbeat.time b.heartbeat.lookback).1⟩ s' := by
  have claims : s'.claims = s.claims := book.claims
  have tokens : s'.tokens = s.tokens := book.tokens
  have all : looked.Perm b.claims.jobs := by simpa [jobs] using tallied.jobs
  have refreshed : s.store = b.store.refreshed now b.claims.jobs := by
    rw [tallied.store, answered]
    exact Store.refreshed_perm all
  rw [refreshed, Store.reclaimDead_refreshed] at store ⊢
  refine ⟨?_, ?_, rfl, ?_, ?_, store⟩
  · rw [tallied.refreshed, all.countP_eq, ClaimBook.jobs, List.countP_map]
    rfl
  · rw [tallied.lost]
    refine ((all.filter _).map _).trans ?_
    rw [ClaimBook.jobs, List.filter_map, List.map_map]
    exact .refl _
  · rw [claims, tallied.book]
    refine List.filter_congr fun e mem => ?_
    rw [Bool.eq_iff_iff]
    simp [tallied.lost_iff all keyed mem]
  · intro t
    rw [tokens, tallied.tokens t]
    refine or_congr_right ?_
    simp only [all.mem_iff, ClaimBook.mem_jobs]
    constructor
    · rintro ⟨job, mem, free, token⟩
      exact ⟨(job.id, job.holding), mem, free, token⟩
    · rintro ⟨e, mem, free, token⟩
      exact ⟨⟨e.1, e.2⟩, mem, free, token⟩

/-- No claim on the book was taken back. -/
theorem Pulsed.unlisted (pulsed : Pulsed b now pulse s) (distinct : b.store.Distinct) {id : MessageId}
    (mem : id ∈ pulse.reclaimed) : s.claims.get? id = none := by
  refine Option.eq_none_iff_forall_not_mem.mpr fun h found => ?_
  have entry := ClaimBook.mem_of_get? found
  rw [pulsed.book, List.mem_filter] at entry
  obtain ⟨m, stored, working, owner⟩ := Store.held_iff.mp entry.2
  rw [pulsed.reclaimed] at mem
  obtain ⟨m', taken, same⟩ := List.mem_map.mp mem
  obtain ⟨mem', taken⟩ := List.mem_filter.mp taken
  obtain rfl := distinct.eq_of_id mem' stored same
  have covered : b.claims.covers m' = true := by
    refine List.any_eq_true.mpr ⟨(id, h), entry.1, ?_⟩
    simp [same, Store.holds, working, owner]
  simp [covered] at taken

/-! ### Steps of the pass -/

/-- What is there after a step of the pass; a runner that comes with it has no job yet. -/
structure Stepped (s s' : Station) (pass : Pass) (scene : Scene) : Prop where
  pass : s'.pass = pass
  desk : s'.crew.desk = scene.desk
  site : s'.site = scene.site
  waiting : s'.manned.waiting = scene.desk.pool.channel ++ s.crew.runners.flatMap (·.waiting)
  answered : s'.manned.answered = s.crew.runners.flatMap (·.answered) ++ scene.desk.pool.reports

theorem stepped {pass : Pass} {scene : Scene} (step : s.pass.step s.scene = (pass, scene)) :
    Stepped s (s.turn .pass) pass scene := by
  let crew := { s.crew with desk := (s.pass.step s.scene).2.desk }
  have stepped : Stepped s (s.turn .pass) (s.pass.step s.scene).1 (s.pass.step s.scene).2 :=
    ⟨rfl, rfl, rfl, crew.muster_waiting, crew.muster_answered⟩
  rw [step] at stepped
  exact stepped

namespace Stepped

variable {pass : Pass} {scene : Scene}

theorem store (stepped : Stepped s s' pass scene) : s'.store = scene.site.store := congrArg Site.store stepped.site

theorem tending (stepped : Stepped s s' pass scene) : s'.manned.tending = pass.tending :=
  congrArg Pass.tending stepped.pass

theorem book (stepped : Stepped s s' pass scene) (claims : scene.desk.claims = s.claims)
    (tokens : scene.desk.tokens = s.tokens) : s.manned.SameBook s'.manned :=
  ⟨(congrArg Desk.claims stepped.desk).trans claims, (congrArg Desk.tokens stepped.desk).trans tokens⟩

end Stepped

/-- A step of the pass that has nothing to do with its jobs. -/
theorem Tallied.rests {pass : Pass} {scene : Scene} (tallied : Tallied b now s refreshed lost looked)
    (step : s.pass.step s.scene = (pass, scene)) (unsent : pass.tending.unsent = s.pass.tending.unsent)
    (channel : scene.desk.pool.channel = s.scene.desk.pool.channel)
    (reports : scene.desk.pool.reports = s.scene.desk.pool.reports) (store : scene.site.store = s.store)
    (claims : scene.desk.claims = s.claims) (tokens : scene.desk.tokens = s.tokens) :
    Tallied b now (s.turn .pass) refreshed lost looked := by
  have stepped := stepped step
  have answered : (s.turn .pass).manned.answered = s.manned.answered := by
    rw [stepped.answered, reports]
    rfl
  refine tallied.same ?_ (.of_eq answered) (stepped.store.trans store) (stepped.book claims tokens)
  rw [Crew.jobs, stepped.waiting, answered, stepped.tending, unsent, channel]
  exact .refl _

/-- While jobs are submitted nothing is looked at. -/
theorem Tallied.submits {job : Job} {stage : Submit} {rest : List Job} {count : Nat}
    (tallied : Tallied b now s 0 [] looked) (submitting : s.pass = .refreshing (.submitting job stage rest count)) :
    (s.turn .pass).pass.sums? = some (0, []) ∧ Tallied b now (s.turn .pass) 0 [] looked := by
  obtain ⟨pass, crew, site⟩ := s
  obtain rfl : pass = _ := submitting
  cases stage with
  | announcing => exact ⟨rfl, tallied.rests rfl rfl rfl rfl rfl rfl rfl⟩
  | sending =>
    have stepped := stepped (s := ⟨.refreshing (.submitting job .sending rest count), crew, site⟩) rfl
    refine ⟨rfl, tallied.same ?_ (.of_eq stepped.answered) rfl ⟨rfl, rfl⟩⟩
    rw [Crew.jobs, stepped.waiting, stepped.answered]
    let waiting := crew.runners.flatMap (·.waiting)
    let answered := (crew.runners.flatMap (·.answered) ++ crew.desk.pool.reports).map (·.job)
    show (rest ++ (crew.desk.pool.channel ++ [job] ++ waiting) ++ answered).Perm
      (job :: rest ++ (crew.desk.pool.channel ++ waiting) ++ answered)
    refine List.perm_iff_count.mpr fun j => ?_
    simp only [List.count_append, List.count_cons, List.count_nil]
    omega
  | growing reserve =>
    obtain ⟨sent, channel, reports⟩ := Submit.step_growing crew.desk.pool job reserve
    have stepped : Pass.step ⟨site, crew.desk⟩ (.refreshing (.submitting job (.growing reserve) rest count)) =
        (.refreshing (.submitting job ((Submit.growing reserve).step crew.desk.pool job).1 rest count),
          Scene.setPool ⟨site, crew.desk⟩ ((Submit.growing reserve).step crew.desk.pool job).2) := rfl
    refine ⟨rfl, tallied.rests stepped ?_ channel reports rfl rfl rfl⟩
    simp only [Pass.tending, Refresh.tending, sent]
    rfl
  | done start =>
    have next : (Pass.refreshing (.submit rest count)).tending.unsent = rest :=
      congrArg Tending.unsent (Refresh.submit_tending rest count)
    refine ⟨?_, tallied.rests rfl next ?_ ?_ ?_ ?_ ?_⟩
    · cases rest <;> rfl
    all_goals cases start <;> rfl

/-- A report is told by the store that the pass began with. -/
theorem Tallied.report (tallied : Tallied b now s refreshed lost looked) {r : Report} (mem : r ∈ s.manned.answered) :
    r.job.isHeld b.store = true ∧ r.result = .ok () ∨
      r.job.isHeld b.store = false ∧ r.result = .error (.lostClaim r.job.id r.job.holding.worker.text) := by
  have reply := (tallied.reports r mem).trans (Store.resetHeartbeat_reply ..)
  cases held : b.store.held r.job.id r.job.holding.worker with
  | true => exact Or.inl ⟨held, by simpa [held] using reply⟩
  | false => exact Or.inr ⟨held, by simpa [held] using reply⟩

/-- A report leaves the desk. -/
theorem pass_looks {pass : Pass} {scene : Scene} {r : Report} (step : s.pass.step s.scene = (pass, scene))
    (sent : s.pass.tending.unsent = []) (unsent : pass.tending.unsent = [])
    (channel : scene.desk.pool.channel = s.scene.desk.pool.channel)
    (reports : s.scene.desk.pool.reports = r :: scene.desk.pool.reports) :
    s.manned.jobs.Perm (r.job :: (s.turn .pass).manned.jobs) ∧
      s.manned.answered.Perm (r :: (s.turn .pass).manned.answered) := by
  have stepped := stepped step
  have left : s.manned.answered.Perm (r :: (s.turn .pass).manned.answered) := by
    rw [stepped.answered]
    show (s.crew.runners.flatMap (·.answered) ++ s.scene.desk.pool.reports).Perm _
    rw [reports]
    exact List.perm_middle
  refine ⟨?_, left⟩
  rw [Crew.jobs, Crew.jobs, stepped.tending, unsent, manned_tending, sent, stepped.waiting, channel]
  exact ((left.map (·.job)).append_left _).trans List.perm_middle

/-- The reports are looked at one by one. -/
theorem Tallied.collects {left : Nat} (tallied : Tallied b now s refreshed lost looked) (keyed : b.claims.Keyed)
    (keyed' : s.claims.Keyed) (collecting : s.pass = .refreshing (.collecting left refreshed lost)) :
    ∃ refreshed' lost' looked', (s.turn .pass).pass.sums? = some (refreshed', lost') ∧
      Tallied b now (s.turn .pass) refreshed' lost' looked' := by
  cases left with
  | zero =>
    have step : s.pass.step s.scene = (.refreshing (.done refreshed lost),
        s.scene.note (.refreshed s.scene.queue refreshed lost.length)) := by rw [collecting]; rfl
    refine ⟨refreshed, lost, looked, ?_, tallied.rests step ?_ rfl rfl rfl rfl rfl⟩
    · rw [(stepped step).pass]
      rfl
    · rw [collecting]
      rfl
  | succ left =>
    have sent : s.pass.tending.unsent = [] := by rw [collecting]; rfl
    cases reports : s.scene.desk.pool.reports with
    | nil =>
      have step : s.pass.step s.scene = (s.pass, s.scene) := by
        rw [collecting]
        simp only [Pass.step, Refresh.step, reports]
      refine ⟨refreshed, lost, looked, ?_, tallied.rests step rfl rfl rfl rfl rfl rfl⟩
      rw [(stepped step).pass, collecting]
      rfl
    | cons r rest =>
      let scene := s.scene.setPool { s.scene.desk.pool with reports := rest }
      have step : s.pass.step s.scene = (.refreshing (Refresh.settle scene r left refreshed lost).1,
          (Refresh.settle scene r left refreshed lost).2) := by
        rw [collecting]
        simp only [Pass.step, Refresh.step, reports]
        rfl
      have mem : r ∈ s.manned.answered := List.mem_append_right _ (reports ▸ List.mem_cons_self)
      rcases tallied.report mem with ⟨held, reply⟩ | ⟨free, reply⟩
      · simp only [Refresh.settle, reply] at step
        have stepped := stepped step
        obtain ⟨jobs, answered⟩ := pass_looks step sent rfl rfl reports
        have tallied := tallied.counts jobs answered stepped.store held (stepped.book rfl rfl)
        exact ⟨_, _, _, by rw [stepped.pass]; rfl, tallied⟩
      · simp only [Refresh.settle, reply] at step
        have stepped := stepped step
        obtain ⟨jobs, answered⟩ := pass_looks step sent rfl rfl reports
        have tallied := tallied.drops jobs answered (stepped.store.trans rfl) free keyed keyed'
          (congrArg Desk.claims stepped.desk) (congrArg Desk.tokens stepped.desk)
        exact ⟨_, _, _, by rw [stepped.pass]; rfl, tallied⟩

/-- The claims on the book are the jobs. -/
theorem Course.starts (sound : s.Sound) (start : s.pass = .start) (store : s.store = b.store)
    (claims : s.claims = b.claims) (tokens : s.tokens = b.tokens) : Course b now (s.turn .pass) := by
  obtain ⟨_, waiting, answered⟩ := sound.no_jobs (by rw [start]; rfl)
  have stepped : Stepped s (s.turn .pass)
      (.refreshing (if b.claims.jobs.isEmpty then .done 0 [] else .submit b.claims.jobs 0)) s.scene := by
    refine stepped ?_
    rw [start, ← claims]
    rfl
  have waiting' : (s.turn .pass).manned.waiting = [] := stepped.waiting.trans waiting
  have answered' : (s.turn .pass).manned.answered = [] := stepped.answered.trans answered
  have unsent : (s.turn .pass).manned.tending.unsent = b.claims.jobs := by
    rw [stepped.tending]
    cases none : b.claims.jobs with
    | nil => rfl
    | cons job rest => exact congrArg Tending.unsent (Refresh.submit_tending (job :: rest) 0)
  refine .tends 0 [] [] ?_ ⟨?_, ?_, ?_, rfl, ?_, rfl, fun t => ?_⟩
  · rw [stepped.pass]
    cases b.claims.jobs <;> rfl
  · rw [Crew.jobs, waiting', answered', unsent]
    simp
  · simp [answered']
  · rw [answered', List.map_nil, List.append_nil, Store.refreshed_nil]
    exact stepped.store.trans store
  · have same : (s.turn .pass).claims = b.claims := (congrArg Desk.claims stepped.desk).trans claims
    simp [same]
  · have same : (s.turn .pass).tokens = b.tokens := (congrArg Desk.tokens stepped.desk).trans tokens
    simp [same]

/-- The scan is tried until the store answers. -/
theorem Tallied.scans {call : Call (List MessageId)} (tallied : Tallied b now s refreshed lost looked) (sound : s.Sound)
    (clock : s.site.now = now) (config : s.heartbeat = b.heartbeat) (keyed : b.claims.Keyed)
    (scanning : s.pass = .reclaiming refreshed lost (.scanning call)) (undone : call.result? = none) :
    Course b now (s.turn .pass) := by
  let r : Request := .reclaimDead b.heartbeat.time b.heartbeat.lookback
  have goes := Call.step_goes (r := r) sound.settled rfl false [] undone
  have step : s.pass.step s.scene = (.reclaiming refreshed lost (.scanning (call.step r false [] s.site).1),
      ⟨(call.step r false [] s.site).2, s.crew.desk⟩) := by
    rw [scanning]
    simp only [r]
    rw [← config]
    cases call with
    | done result => cases undone
    | _ => rfl
  have due : s.pass.tending = .scanning := by
    rw [scanning]
    exact Reclaim.scanning_tending undone
  generalize (call.step r false [] s.site).1 = call', (call.step r false [] s.site).2 = site' at *
  have stepped := stepped step
  cases goes with
  | quits e cancelled => cases cancelled
  | waits pending leads =>
    refine .tends refreshed lost looked ?_ (tallied.rests step ?_ rfl rfl leads.store rfl rfl)
    · rw [stepped.pass]
      cases call' with
      | done result => cases pending
      | _ => rfl
    · rw [due]
      exact congrArg Tending.unsent (Reclaim.scanning_tending pending)
  | answers reply leads =>
    obtain ⟨jobs, _, answered⟩ := sound.no_jobs (by rw [due]; rfl)
    rw [clock] at reply leads
    have pass : (s.turn .pass).pass = .reclaiming refreshed lost (.scanning (.done (.ok
        (s.store.reclaimDead now b.heartbeat.time b.heartbeat.lookback).1))) := by rw [stepped.pass, reply]; rfl
    have store : (s.turn .pass).store = (s.store.reclaimDead now b.heartbeat.time b.heartbeat.lookback).2 :=
      stepped.store.trans leads.store
    refine .pulsed _ ?_ ?_ (tallied.pulsed jobs answered keyed (stepped.book rfl rfl) store)
    · rw [pass]
      rfl
    · intro rest revoking
      rw [pass] at revoking
      cases revoking
      exact List.Subset.refl _

/-- After the scan nothing changes any more: of the claims taken back none is on the book. -/
theorem Pulsed.ends (pulsed : Pulsed b now pulse s) (distinct : b.store.Distinct) (known : s.pass.pulse? = some pulse)
    (taken : ∀ rest, s.pass.tending = .revoking rest → rest ⊆ pulse.reclaimed) : Course b now (s.turn .pass) := by
  have goes : ∀ {pass : Pass} {scene : Scene}, s.pass.step s.scene = (pass, scene) → pass.pulse? = some pulse →
      (∀ rest, pass.tending = .revoking rest → rest ⊆ pulse.reclaimed) → scene.desk = s.crew.desk →
      scene.site.store = s.store → Course b now (s.turn .pass) := by
    intro pass scene step known taken desk store
    have stepped := stepped step
    exact .pulsed pulse (stepped.pass ▸ known) (stepped.pass ▸ taken) (pulsed.same (stepped.store.trans store)
      (stepped.book (congrArg Desk.claims desk) (congrArg Desk.tokens desk)))
  obtain ⟨pass, crew, site⟩ := s
  cases pass with
  | refreshing refresh => cases known
  | done result => exact goes rfl known taken rfl rfl
  | reclaiming refreshed lost reclaim =>
    cases reclaim with
    | done result =>
      cases result with
      | error e => cases known
      | ok ids => exact goes rfl known nofun rfl rfl
    | scanning call =>
      cases call with
      | done result =>
        cases result with
        | error e => cases known
        | ok ids =>
          cases known
          cases ids with
          | nil => exact goes rfl rfl nofun rfl rfl
          | cons id rest =>
            refine goes rfl rfl ?_ rfl rfl
            rintro _ ⟨⟩
            exact List.Subset.refl _
      | _ => cases known
    | revoking ids rest =>
      cases known
      cases rest with
      | nil => exact goes rfl rfl nofun rfl rfl
      | cons id rest =>
        have listed : id :: rest ⊆ ids := taken _ rfl
        have unlisted := pulsed.unlisted distinct (listed List.mem_cons_self)
        have still : Reclaim.revoke ⟨site, crew.desk⟩ id = ⟨site, crew.desk⟩ := by
          rcases ClaimBook.revoke_cases crew.desk.claims id with ⟨h, found, _⟩ | ⟨_, none⟩
          · exact absurd (unlisted.symm.trans found) nofun
          · simp only [Reclaim.revoke, none]
        have step : Pass.step ⟨site, crew.desk⟩ (.reclaiming refreshed lost (.revoking ids (id :: rest))) =
            (.reclaiming refreshed lost (.revoking ids rest), Reclaim.revoke ⟨site, crew.desk⟩ id) := rfl
        refine goes step rfl ?_ ?_ ?_
        · rintro _ ⟨⟩
          exact List.subset_of_cons_subset listed
        · exact congrArg Scene.desk still
        · exact congrArg (fun scene => scene.site.store) still

theorem Course.pass (course : Course b now s) (sound : s.Sound) (clock : s.site.now = now)
    (config : s.heartbeat = b.heartbeat) (keyed : b.claims.Keyed) (distinct : b.store.Distinct) :
    Course b now (s.turn .pass) := by
  cases course with
  | begins start store claims tokens => exact .starts sound start store claims tokens
  | pulsed pulse known taken pulsed => exact pulsed.ends distinct known taken
  | tends refreshed lost looked sums tallied =>
    cases pass : s.pass with
    | done result => rw [pass] at sums; cases sums
    | refreshing refresh =>
      cases refresh with
      | starting => rw [pass] at sums; cases sums
      | submitting job stage rest count =>
        rw [pass] at sums
        cases sums
        obtain ⟨sums, tallied⟩ := tallied.submits pass
        exact .tends 0 [] looked sums tallied
      | collecting left refreshed' lost' =>
        rw [pass] at sums
        cases sums
        obtain ⟨refreshed, lost, looked, sums, tallied⟩ := tallied.collects keyed sound.keyed pass
        exact .tends refreshed lost looked sums tallied
      | done refreshed' lost' =>
        have step : s.pass.step s.scene = (.reclaiming refreshed' lost' .start, s.scene) := by rw [pass]; rfl
        rw [pass] at sums
        refine .tends refreshed lost looked ((stepped step).pass ▸ sums) (tallied.rests step ?_ rfl rfl rfl rfl rfl)
        rw [pass]
        rfl
    | reclaiming refreshed' lost' reclaim =>
      rw [pass] at sums
      cases reclaim with
      | done result => cases sums
      | revoking ids rest => cases sums
      | scanning call =>
        cases call with
        | done result => cases sums
        | attempting n =>
          cases sums
          exact tallied.scans sound clock config keyed pass rfl
        | waiting n e wake =>
          cases sums
          exact tallied.scans sound clock config keyed pass rfl

/-! ## Passes -/

/-- Under a clock that stands still the time of the site is no matter. -/
theorem Course.turn (course : Course b now s) (sound : s.Sound) (clock : s.site.clock = .manual now)
    (config : s.heartbeat = b.heartbeat) (keyed : b.claims.Keyed) (distinct : b.store.Distinct) (t : Turn) :
    Course b now (s.turn t) ∧ (s.turn t).site.clock = .manual now ∧ (s.turn t).heartbeat = b.heartbeat := by
  have instant : s.site.now = now := by rw [Site.now, clock]; rfl
  cases t with
  | pass =>
    obtain ⟨asked, tends⟩ := s.pass_tends sound.settled
    exact ⟨course.pass sound instant config keyed distinct, tends.site.clock.trans clock,
      (congrArg QueueConfig.heartbeat tends.config).trans config⟩
  | runner i =>
    obtain ⟨asked, tends⟩ := s.runner_tends sound.settled i
    exact ⟨course.runner sound instant distinct i, tends.site.clock.trans clock,
      (congrArg QueueConfig.heartbeat tends.config).trans config⟩
  | tick =>
    refine ⟨?_, clock, config⟩
    cases course with
    | begins start store claims tokens => exact .begins start store claims tokens
    | tends refreshed lost looked sums tallied =>
      exact .tends refreshed lost looked sums (tallied.same (.refl _) (.refl _) rfl ⟨rfl, rfl⟩)
    | pulsed pulse known taken pulsed => exact .pulsed pulse known taken (pulsed.same rfl ⟨rfl, rfl⟩)

theorem Course.turns (course : Course b now s) (sound : s.Sound) (clock : s.site.clock = .manual now)
    (config : s.heartbeat = b.heartbeat) (keyed : b.claims.Keyed) (distinct : b.store.Distinct) (ts : List Turn) :
    Course b now (s.turns ts) := by
  induction ts generalizing s with
  | nil => exact course
  | cons t ts ih =>
    obtain ⟨course, clock, config⟩ := course.turn sound clock config keyed distinct t
    exact ih course (sound.turn t) clock config

/-- However the members of the pool and the pass take turns. -/
theorem Sound.course (sound : s.Sound) (start : s.pass = .start) (clock : s.site.clock = .manual now)
    (ts : List Turn) : Course s now (s.turns ts) :=
  .turns (.begins start rfl rfl rfl) sound clock rfl sound.keyed sound.distinct ts

theorem Course.result (course : Course b now s) {result : Except Error Pulse} (done : s.pass = .done result) :
    ∃ pulse, result = .ok pulse ∧ Pulsed b now pulse s := by
  cases course with
  | begins start => cases start.symm.trans done
  | tends refreshed lost looked sums => rw [done] at sums; cases sums
  | pulsed pulse ended _ pulsed =>
    rw [done] at ended
    cases result with
    | error e => cases ended
    | ok pulse' =>
      cases ended
      exact ⟨pulse, rfl, pulsed⟩

end Station

end ClaimQueue
