/-
  ClaimQueue.Proofs.Upkeep.Tending — where the heartbeat monitor is in its pass.

  A pass begins, takes the claims on the book as its jobs, submits them one by one
  (`unsent`), looks at the reports still due, scans the store, revokes what the scan took
  back, and is over. In between the jobs are with the pool: they wait in the channel or
  with a runner that has not asked the store yet, or they are answered and not looked at.

  `Monitor.Moves` and `Runner.Moves` are all that a step can do to that, to the channel and
  the reports of the pool, and to the claims of the desk.
-/

import ClaimQueue.Proofs.Work.Phases
import ClaimQueue.Upkeep.Monitor
import ClaimQueue.Upkeep.Runner

namespace ClaimQueue

inductive Tending where
  | idle
  /-- About to take the claims on the book. -/
  | beginning
  /-- Refreshing: jobs not in the channel yet, and how many reports are due. -/
  | refreshing (unsent : List Job) (due : Nat)
  | scanning
  | revoking (rest : List MessageId)
  deriving DecidableEq

def Tending.isRefreshing : Tending → Bool
  | .refreshing _ _ => true
  | _ => false

/-- One job for each claim on the book. -/
def ClaimBook.jobs (b : ClaimBook) : List Job := b.entries.map fun e => ⟨e.1, e.2⟩

/-- Did the store say that the claim is lost? -/
def Report.isLost (r : Report) : Bool :=
  match r.result with
  | .error (.lostClaim _ _) => true
  | _ => false

/-! ## Monitors -/

/-- Is the job not in the channel yet? -/
def Submit.isUnsent : Submit → Bool
  | .announcing => true
  | .sending => true
  | _ => false

def Refresh.tending : Refresh → Tending
  | .starting => .beginning
  | .submitting job stage rest count =>
    .refreshing (if stage.isUnsent then job :: rest else rest) (count + rest.length)
  | .collecting left _ _ => .refreshing [] left
  | .done _ _ => .scanning

def Reclaim.tending : Reclaim → Tending
  | .scanning (.done (.ok ids)) => .revoking ids
  | .scanning _ => .scanning
  | .revoking _ rest => .revoking rest
  | .done _ => .idle

def Pass.tending : Pass → Tending
  | .refreshing refresh => refresh.tending
  | .reclaiming _ _ reclaim => reclaim.tending
  | .done _ => .idle

/-- What no monitor changes at a desk: the filter, the bench, and whether all are asked to stop. -/
def Desk.front (d : Desk) : ClaimFilter × Bench × Bool := (d.filter, d.bench, d.tokens.shutdown)

namespace Tending

/-- What a step does to the pass, the pool and the claims. `t` and `t'` are where the pass
was and where it is now. -/
inductive Moves (t t' : Tending) (s s' : Scene) : Option Asked → Prop
  | stays : t' = t → s'.desk.pool.channel = s.desk.pool.channel → s'.desk.pool.reports = s.desk.pool.reports →
      s'.desk.claims = s.desk.claims → s'.desk.tokens = s.desk.tokens → Moves t t' s s' none
  /-- The pass begins, or is over. -/
  | turns : (t = .idle ∧ t' = .beginning) ∨ ((t = .scanning ∨ t = .revoking []) ∧ t' = .idle) →
      s'.desk = s.desk → Moves t t' s s' none
  | takes : t = .beginning →
      t' = (if s.desk.claims.jobs.isEmpty then .scanning else .refreshing s.desk.claims.jobs s.desk.claims.jobs.length) →
      s'.desk = s.desk → Moves t t' s s' none
  | sends (job : Job) (rest : List Job) (due : Nat) : t = .refreshing (job :: rest) due → t' = .refreshing rest due →
      s'.desk.pool.channel = s.desk.pool.channel ++ [job] → s'.desk.pool.reports = s.desk.pool.reports →
      s'.desk.claims = s.desk.claims → s'.desk.tokens = s.desk.tokens → Moves t t' s s' none
  | looks (r : Report) (left : Nat) : t = .refreshing [] (left + 1) → t' = .refreshing [] left → r.isLost = false →
      s'.desk.pool.channel = s.desk.pool.channel → s.desk.pool.reports = r :: s'.desk.pool.reports →
      s'.desk.claims = s.desk.claims → s'.desk.tokens = s.desk.tokens → Moves t t' s s' none
  | drops (r : Report) (left : Nat) : t = .refreshing [] (left + 1) → t' = .refreshing [] left → r.isLost = true →
      s'.desk.pool.channel = s.desk.pool.channel → s.desk.pool.reports = r :: s'.desk.pool.reports →
      s'.desk.claims = (s.desk.claims.remove r.job.id r.job.holding.worker).2 →
      s'.desk.tokens = (if (s.desk.claims.remove r.job.id r.job.holding.worker).1.isSome
        then s.desk.tokens.cancel r.job.holding.token else s.desk.tokens) → Moves t t' s s' none
  | completes : t = .refreshing [] 0 → t' = .scanning → s'.desk = s.desk → Moves t t' s s' none
  | scans (ids : List MessageId) : t = .scanning → t' = .revoking ids →
      (s.site.store.reclaimDead s.site.now s.desk.config.heartbeat.time s.desk.config.heartbeat.lookback).1 = ids →
      s'.desk = s.desk → Moves t t' s s'
        (some (s.site.now, .reclaimDead s.desk.config.heartbeat.time s.desk.config.heartbeat.lookback))
  | revokes (id : MessageId) (rest : List MessageId) : t = .revoking (id :: rest) → t' = .revoking rest →
      s'.desk = (Reclaim.revoke s id).desk → Moves t t' s s' none
  | asks (r : Request) : t = .idle → t' = .idle → r.isPlain = true → s'.desk = s.desk → r.isOutcome = false →
      Moves t t' s s' (some (s.site.now, r))

structure Step (t t' : Tending) (s s' : Scene) (asked : Option Asked) : Prop where
  moves : Moves t t' s s' asked
  site : s.site.Leads asked s'.site
  config : s'.desk.config = s.desk.config
  front : s'.desk.front = s.desk.front

theorem Step.filter {t t' : Tending} {s s' : Scene} {asked : Option Asked} (step : Step t t' s s' asked) :
    s'.desk.filter = s.desk.filter := congrArg (·.1) step.front

end Tending

def Monitor.tending (m : Monitor) : Tending :=
  match m.stage with
  | .passing (.heartbeat pass) => pass.tending
  | _ => .idle

/-- A step of a monitor; only those of the heartbeat make passes over it. -/
structure Monitor.Step (m m' : Monitor) (s s' : Scene) (asked : Option Asked) : Prop
    extends Tending.Step m.tending m'.tending s s' asked where
  duty : m'.duty = m.duty
  fits : m'.tending = .idle ∨ m.tending ≠ .idle ∨ m.duty = .heartbeat

variable {s : Scene}

theorem Reserve.step_pool (p : Pool) (reserve : Reserve) :
    (reserve.step p).2.channel = p.channel ∧ (reserve.step p).2.reports = p.reports := by
  cases reserve with
  | readQueued live idle =>
    simp only [step]
    split
    · exact ⟨rfl, rfl⟩
    · exact ⟨rfl, rfl⟩
  | swap live =>
    simp only [step]
    split
    · exact ⟨rfl, rfl⟩
    · exact ⟨rfl, rfl⟩
  | _ => exact ⟨rfl, rfl⟩

/-- While a runner's place is taken the job is in the channel already. -/
theorem Submit.step_growing (p : Pool) (job : Job) (reserve : Reserve) :
    ((growing reserve).step p job).1.isUnsent = false ∧ ((growing reserve).step p job).2.channel = p.channel ∧
      ((growing reserve).step p job).2.reports = p.reports := by
  cases reserve with
  | done taken => exact ⟨rfl, rfl, rfl⟩
  | readLive => exact ⟨rfl, rfl, rfl⟩
  | readBusy live => exact ⟨rfl, rfl, rfl⟩
  | readQueued live idle => exact ⟨rfl, Reserve.step_pool p (.readQueued live idle)⟩
  | swap live => exact ⟨rfl, Reserve.step_pool p (.swap live)⟩

theorem Refresh.submit_tending (jobs : List Job) (count : Nat) :
    (submit jobs count).tending = .refreshing jobs (count + jobs.length) := by
  cases jobs with
  | nil => rfl
  | cons job rest =>
    simp only [submit, tending, Submit.isUnsent, if_true, List.length_cons]
    congr 1
    omega

theorem Refresh.settle_moves (h : s.site.Settled) (r : Report) {rest : List Report}
    (first : s.desk.pool.reports = r :: rest) (refreshed : Nat) (lost : List MessageId) (left : Nat) :
    let settled := settle (s.setPool { s.desk.pool with reports := rest }) r left refreshed lost
    Tending.Step (.refreshing [] (left + 1)) settled.1.tending s settled.2 none := by
  obtain ⟨job, result⟩ := r
  cases result with
  | ok done => exact ⟨.looks ⟨job, .ok done⟩ left rfl rfl rfl rfl first rfl rfl, h.refl, rfl, rfl⟩
  | error e =>
    cases e with
    | lostClaim id worker =>
      refine ⟨.drops ⟨job, .error (.lostClaim id worker)⟩ left rfl rfl rfl rfl first rfl rfl, h.note _ _, rfl, ?_⟩
      -- the token of the lost claim may be cancelled, and only that one
      exact Prod.ext rfl (Prod.ext rfl ((apply_ite Tokens.shutdown _ _ _).trans (ite_self _)))
    | _ => exact ⟨.looks ⟨job, .error _⟩ left rfl rfl rfl rfl first rfl rfl, h.note _ _, rfl, rfl⟩

theorem Refresh.step_moves (h : s.site.Settled) (r : Refresh) :
    Tending.Step r.tending (r.step s).1.tending s (r.step s).2 none := by
  cases r with
  | starting =>
    refine ⟨.takes rfl ?_ rfl, h.refl, rfl, rfl⟩
    simp only [step]
    show (if s.desk.claims.jobs.isEmpty then Refresh.done 0 [] else submit s.desk.claims.jobs 0).tending = _
    split
    · rfl
    · rw [submit_tending, Nat.zero_add]
  | submitting job stage rest count =>
    cases stage with
    | announcing => exact ⟨.stays rfl rfl rfl rfl rfl, h.refl, rfl, rfl⟩
    | sending => exact ⟨.sends job rest (count + rest.length) rfl rfl rfl rfl rfl rfl, h.refl, rfl, rfl⟩
    | growing reserve =>
      obtain ⟨sent, channel, reports⟩ := Submit.step_growing s.desk.pool job reserve
      refine ⟨.stays ?_ channel reports rfl rfl, h.refl, rfl, rfl⟩
      simp only [step, tending, sent]
      rfl
    | done start =>
      have next := submit_tending rest count
      cases start with
      | true => exact ⟨.stays next rfl rfl rfl rfl, h.refl, rfl, rfl⟩
      | false => exact ⟨.stays next rfl rfl rfl rfl, h.refl, rfl, rfl⟩
  | collecting left refreshed lost =>
    cases left with
    | zero => exact ⟨.completes rfl rfl rfl, h.note _ _, rfl, rfl⟩
    | succ left =>
      cases reports : s.desk.pool.reports with
      | nil =>
        simp only [step, reports]
        exact ⟨.stays rfl rfl rfl rfl rfl, h.refl, rfl, rfl⟩
      | cons r rest =>
        simp only [step, reports]
        exact settle_moves h r reports refreshed lost left
  | done refreshed lost => exact ⟨.stays rfl rfl rfl rfl rfl, h.refl, rfl, rfl⟩

theorem Reclaim.scanning_tending {call : Call (List MessageId)} (undone : call.result? = none) :
    (scanning call).tending = .scanning := by
  cases call with
  | done result => cases undone
  | _ => rfl

theorem Reclaim.scan_moves (h : s.site.Settled) (call : Call (List MessageId)) (undone : call.result? = none) :
    ∃ asked, Tending.Step (scanning call).tending ((scanning call).step s).1.tending s ((scanning call).step s).2
      asked := by
  let r : Request := .reclaimDead s.desk.config.heartbeat.time s.desk.config.heartbeat.lookback
  have goes := Call.step_goes (r := r) h rfl false [] undone
  have stepped : (scanning call).step s =
      (scanning (call.step r false [] s.site).1, { s with site := (call.step r false [] s.site).2 }) := by
    cases call with
    | done result => cases undone
    | _ => rfl
  rw [stepped, scanning_tending undone]
  generalize call.step r false [] s.site = stepped at goes
  obtain ⟨call', site⟩ := stepped
  cases goes with
  | waits undone' leads => exact ⟨_, .stays (scanning_tending undone') rfl rfl rfl rfl, leads, rfl, rfl⟩
  | quits e cancelled => cases cancelled
  | answers ended leads =>
    cases ended
    exact ⟨_, .scans _ rfl rfl rfl rfl, leads, rfl, rfl⟩

theorem Reclaim.revoke_desk (s : Scene) (id : MessageId) :
    (revoke s id).desk = { s.desk with
      claims := (s.desk.claims.revoke id).2
      tokens := match (s.desk.claims.revoke id).1 with
        | some holding => s.desk.tokens.cancel holding.token
        | none => s.desk.tokens } := by
  unfold revoke ClaimBook.revoke
  cases s.desk.claims.get? id <;> rfl

theorem Reclaim.revoke_leads (h : s.site.Settled) (id : MessageId) : s.site.Leads none (revoke s id).site := by
  unfold revoke
  split
  · exact h.note _ _
  · exact h.refl

theorem Reclaim.step_moves (h : s.site.Settled) (r : Reclaim) :
    ∃ asked, Tending.Step r.tending (r.step s).1.tending s (r.step s).2 asked := by
  cases r with
  | scanning call =>
    cases call with
    | done result =>
      cases result with
      | ok ids =>
        cases ids with
        | nil => exact ⟨_, .turns (Or.inr ⟨Or.inr rfl, rfl⟩) rfl, h.refl, rfl, rfl⟩
        | cons id rest => exact ⟨_, .stays rfl rfl rfl rfl rfl, h.refl, rfl, rfl⟩
      | error e => exact ⟨_, .turns (Or.inr ⟨Or.inl rfl, rfl⟩) rfl, h.refl, rfl, rfl⟩
    | attempting n => exact scan_moves h (.attempting n) rfl
    | waiting n e wake => exact scan_moves h (.waiting n e wake) rfl
  | revoking reclaimed rest =>
    cases rest with
    | nil => exact ⟨_, .turns (Or.inr ⟨Or.inr rfl, rfl⟩) rfl, h.note _ _, rfl, rfl⟩
    | cons id rest =>
      have desk := revoke_desk s id
      refine ⟨_, .revokes id rest rfl rfl rfl, revoke_leads h id, ?_, ?_⟩
      · show (revoke s id).desk.config = s.desk.config
        rw [desk]
      · show (revoke s id).desk.front = s.desk.front
        rw [desk, Desk.front, Desk.front]
        split <;> rfl
  | done result => exact ⟨_, .stays rfl rfl rfl rfl rfl, h.refl, rfl, rfl⟩

theorem Pass.step_moves (h : s.site.Settled) (p : Pass) :
    ∃ asked, Tending.Step p.tending (p.step s).1.tending s (p.step s).2 asked := by
  cases p with
  | refreshing refresh =>
    cases refresh with
    | done refreshed lost => exact ⟨_, .stays rfl rfl rfl rfl rfl, h.refl, rfl, rfl⟩
    | starting => exact ⟨_, Refresh.step_moves h .starting⟩
    | submitting job stage rest count => exact ⟨_, Refresh.step_moves h (.submitting job stage rest count)⟩
    | collecting left refreshed lost => exact ⟨_, Refresh.step_moves h (.collecting left refreshed lost)⟩
  | reclaiming refreshed lost reclaim =>
    cases reclaim with
    | done result => exact ⟨_, .stays rfl rfl rfl rfl rfl, h.refl, rfl, rfl⟩
    | scanning call => exact Reclaim.step_moves h (.scanning call)
    | revoking reclaimed rest => exact Reclaim.step_moves h (.revoking reclaimed rest)
  | done result => exact ⟨_, .stays rfl rfl rfl rfl rfl, h.refl, rfl, rfl⟩

/-- A request of a pass that has nothing to do with heartbeats. -/
theorem Scene.advance_moves (h : s.site.Settled) (r : Request) (plain : r.isPlain = true)
    (upkeep : r.isOutcome = false) (command : r.operation.isQuery = false) (call : Call r.Reply) (undone : call.result? = none) :
    ∃ asked, Tending.Step .idle .idle s (s.advance r false [] call).2 asked := by
  cases Call.step_goes h command false [] undone with
  | waits _ leads => exact ⟨_, .stays rfl rfl rfl rfl rfl, leads, rfl, rfl⟩
  | quits e cancelled => cases cancelled
  | answers _ leads => exact ⟨_, .asks r rfl rfl plain rfl upkeep, leads, rfl, rfl⟩

theorem Promotion.step_moves (h : s.site.Settled) (p : Promotion) :
    ∃ asked, Tending.Step .idle .idle s (p.step s).2 asked := by
  cases p with
  | scanning call =>
    cases call with
    | done result =>
      cases result with
      | ok n =>
        simp only [step]
        split
        · exact ⟨_, .stays rfl rfl rfl rfl rfl, h.refl, rfl, rfl⟩
        · exact ⟨_, .stays rfl rfl rfl rfl rfl, h.note _ _, rfl, rfl⟩
      | error e => exact ⟨_, .stays rfl rfl rfl rfl rfl, h.refl, rfl, rfl⟩
    | attempting n => exact Scene.advance_moves h .promoteDelayed rfl rfl rfl (.attempting n) rfl
    | waiting n e wake => exact Scene.advance_moves h .promoteDelayed rfl rfl rfl (.waiting n e wake) rfl
  | done result => exact ⟨_, .stays rfl rfl rfl rfl rfl, h.refl, rfl, rfl⟩

theorem Expiry.step_moves (h : s.site.Settled) (x : Expiry) :
    ∃ asked, Tending.Step .idle .idle s (x.step s).2 asked := by
  cases x with
  | scanning call =>
    cases call with
    | done result =>
      cases result with
      | ok expired =>
        simp only [step]
        split
        · exact ⟨_, .stays rfl rfl rfl rfl rfl, h.refl, rfl, rfl⟩
        · exact ⟨_, .stays rfl rfl rfl rfl rfl, h.note _ _, rfl, rfl⟩
      | error e => exact ⟨_, .stays rfl rfl rfl rfl rfl, h.refl, rfl, rfl⟩
    | attempting n => exact Scene.advance_moves h .expireDue rfl rfl rfl (.attempting n) rfl
    | waiting n e wake => exact Scene.advance_moves h .expireDue rfl rfl rfl (.waiting n e wake) rfl
  | purging expired rest call =>
    cases rest with
    | nil => exact ⟨_, .stays rfl rfl rfl rfl rfl, h.refl, rfl, rfl⟩
    | cons id rest =>
      cases call with
      | done result =>
        cases result with
        | ok found => exact ⟨_, .stays rfl rfl rfl rfl rfl, h.refl, rfl, rfl⟩
        | error e => exact ⟨_, .stays rfl rfl rfl rfl rfl, h.note _ _, rfl, rfl⟩
      | attempting n => exact Scene.advance_moves h (.delete id) rfl rfl rfl (.attempting n) rfl
      | waiting n e wake => exact Scene.advance_moves h (.delete id) rfl rfl rfl (.waiting n e wake) rfl
  | done result => exact ⟨_, .stays rfl rfl rfl rfl rfl, h.refl, rfl, rfl⟩

/-- A pass that is over stays so. -/
theorem Pass.idle_step {p : Pass} (idle : p.tending = .idle) (s : Scene) : (p.step s).1.tending = .idle := by
  cases p with
  | done result => rfl
  | refreshing refresh => cases refresh <;> cases idle
  | reclaiming refreshed lost reclaim =>
    cases reclaim with
    | done result => rfl
    | revoking reclaimed rest => cases idle
    | scanning call =>
      cases call with
      | done result => cases result <;> cases idle
      | _ => cases idle

theorem Round.tending_ended {duty : Duty} {round : Round} {result : Except Error Nat}
    (ended : round.result? = some result) : Monitor.tending ⟨duty, .passing round⟩ = .idle := by
  cases round with
  | heartbeat pass =>
    cases pass with
    | done result => rfl
    | _ => cases ended
  | _ => rfl

theorem Monitor.step_moves (h : s.site.Settled) (m : Monitor) :
    ∃ asked, Step m (m.step s).1 s (m.step s).2 asked := by
  obtain ⟨duty, stage⟩ := m
  cases stage with
  | starting => exact ⟨_, ⟨.stays rfl rfl rfl rfl rfl, h.note _ _, rfl, rfl⟩, rfl, Or.inl rfl⟩
  | sleeping wake =>
    simp only [step]
    split
    · exact ⟨_, ⟨.stays rfl rfl rfl rfl rfl, h.refl, rfl, rfl⟩, rfl, Or.inl rfl⟩
    · split
      · cases duty with
        | heartbeat =>
          exact ⟨_, ⟨.turns (Or.inl ⟨rfl, rfl⟩) rfl, h.refl, rfl, rfl⟩, rfl, Or.inr (Or.inr rfl)⟩
        | expiration => exact ⟨_, ⟨.stays rfl rfl rfl rfl rfl, h.refl, rfl, rfl⟩, rfl, Or.inl rfl⟩
        | delayed => exact ⟨_, ⟨.stays rfl rfl rfl rfl rfl, h.refl, rfl, rfl⟩, rfl, Or.inl rfl⟩
      · exact ⟨_, ⟨.stays rfl rfl rfl rfl rfl, h.refl, rfl, rfl⟩, rfl, Or.inl rfl⟩
  | passing round =>
    cases ended : round.result? with
    | some result =>
      have passed : Tending.idle = tending ⟨duty, .passing round⟩ := (Round.tending_ended ended).symm
      cases result with
      | error e =>
        simp only [step, ended]
        exact ⟨_, ⟨.stays passed rfl rfl rfl rfl, h.note _ _, rfl, rfl⟩, rfl, Or.inl rfl⟩
      | ok count =>
        cases count with
        | zero =>
          simp only [step, ended]
          exact ⟨_, ⟨.stays passed rfl rfl rfl rfl, h.refl, rfl, rfl⟩, rfl, Or.inl rfl⟩
        | succ count =>
          simp only [step, ended]
          exact ⟨_, ⟨.stays passed rfl rfl rfl rfl, h.note _ _, rfl, rfl⟩, rfl, Or.inl rfl⟩
    | none =>
      simp only [step, ended]
      cases round with
      | expiration expiry =>
        obtain ⟨asked, moved⟩ := Expiry.step_moves h expiry
        exact ⟨asked, moved, rfl, Or.inl rfl⟩
      | delayed promotion =>
        obtain ⟨asked, moved⟩ := Promotion.step_moves h promotion
        exact ⟨asked, moved, rfl, Or.inl rfl⟩
      | heartbeat pass =>
        obtain ⟨asked, moved⟩ := Pass.step_moves h pass
        refine ⟨asked, moved, rfl, ?_⟩
        by_cases idle : pass.tending = .idle
        · exact Or.inl (Pass.idle_step idle s)
        · exact Or.inr (Or.inl idle)
  | stopping =>
    refine ⟨_, ⟨.stays rfl ?_ ?_ ?_ ?_, ?_, ?_, ?_⟩, rfl, Or.inl rfl⟩
    all_goals
      simp only [step, leave]
      split
    all_goals first | rfl | exact h.note _ _
  | stopped => exact ⟨_, ⟨.stays rfl rfl rfl rfl rfl, h.refl, rfl, rfl⟩, rfl, Or.inl rfl⟩

/-! ## Runners -/

namespace Runner

/-- The job that the runner has not asked the store about yet. -/
def waiting (r : Runner) : List Job :=
  match r.stage with
  | .took job => [job]
  | .counted job => [job]
  | .working _ (.done _) => []
  | .working job _ => [job]
  | _ => []

/-- The report that the runner has not handed over yet. -/
def answered (r : Runner) : List Report :=
  match r.stage with
  | .working job (.done result) => [⟨job, result⟩]
  | _ => []

inductive Moves (r r' : Runner) (s s' : Scene) : Option Asked → Prop
  | stays : r'.waiting = r.waiting → r'.answered = r.answered → s'.desk.pool.channel = s.desk.pool.channel →
      s'.desk.pool.reports = s.desk.pool.reports → Moves r r' s s' none
  | takes (job : Job) : r.waiting = [] → r'.waiting = [job] → r.answered = [] → r'.answered = [] →
      s.desk.pool.channel = job :: s'.desk.pool.channel → s'.desk.pool.reports = s.desk.pool.reports →
      Moves r r' s s' none
  | serves (job : Job) : r.waiting = [job] → r'.waiting = [] → r.answered = [] →
      r'.answered = [⟨job, (s.site.store.resetHeartbeat job.id job.holding.worker s.site.now).1⟩] →
      s'.desk.pool.channel = s.desk.pool.channel → s'.desk.pool.reports = s.desk.pool.reports →
      Moves r r' s s' (some (s.site.now, .resetHeartbeat job.id job.holding.worker))
  | hands (report : Report) : r.waiting = [] → r'.waiting = [] → r.answered = [report] → r'.answered = [] →
      s'.desk.pool.channel = s.desk.pool.channel → s'.desk.pool.reports = s.desk.pool.reports ++ [report] →
      Moves r r' s s' none

structure Step (r r' : Runner) (s s' : Scene) (asked : Option Asked) : Prop where
  moves : Moves r r' s s' asked
  site : s.site.Leads asked s'.site
  desk : s'.desk = { s.desk with pool := s'.desk.pool }

/-- A step of a refresh in the store. -/
theorem step_call (h : s.site.Settled) (number : Nat) (job : Job) (call : Call Unit) (undone : call.result? = none) :
    ∃ asked, Step ⟨number, .working job call⟩
      ⟨number, .working job (s.advance (.resetHeartbeat job.id job.holding.worker) false [] call).1⟩ s
      (s.advance (.resetHeartbeat job.id job.holding.worker) false [] call).2 asked := by
  let r : Request := .resetHeartbeat job.id job.holding.worker
  have goes := Call.step_goes (r := r) h rfl false [] undone
  show ∃ asked, Step ⟨number, .working job call⟩ ⟨number, .working job (call.step r false [] s.site).1⟩ s
    { s with site := (call.step r false [] s.site).2 } asked
  generalize call.step r false [] s.site = stepped at goes
  obtain ⟨call', site⟩ := stepped
  have before : waiting ⟨number, .working job call⟩ = [job] ∧ answered ⟨number, .working job call⟩ = [] := by
    cases call with
    | done result => cases undone
    | _ => exact ⟨rfl, rfl⟩
  cases goes with
  | waits undone' leads =>
    cases call' with
    | done result => cases undone'
    | _ => exact ⟨_, .stays before.1.symm before.2.symm rfl rfl, leads, rfl⟩
  | quits e cancelled => cases cancelled
  | answers ended leads =>
    cases ended
    exact ⟨_, .serves job before.1 rfl before.2 rfl rfl rfl, leads, rfl⟩

theorem step_moves (h : s.site.Settled) (r : Runner) : ∃ asked, Step r (r.step s).1 s (r.step s).2 asked := by
  obtain ⟨number, stage⟩ := r
  cases stage with
  | arriving => exact ⟨_, .stays rfl rfl rfl rfl, h.refl, rfl⟩
  | lined =>
    simp only [step]
    split
    · exact ⟨_, .stays rfl rfl rfl rfl, h.refl, rfl⟩
    · exact ⟨_, .stays rfl rfl rfl rfl, h.refl, rfl⟩
  | receiving wake =>
    simp only [step]
    split
    · rename_i job rest channel
      exact ⟨_, .takes job rfl rfl rfl rfl channel rfl, h.refl, rfl⟩
    · rename_i channel
      repeat' split
      all_goals exact ⟨_, .stays rfl rfl rfl rfl, h.refl, rfl⟩
  | took job => exact ⟨_, .stays rfl rfl rfl rfl, h.refl, rfl⟩
  | counted job => exact ⟨_, .stays rfl rfl rfl rfl, h.refl, rfl⟩
  | working job call =>
    cases call with
    | done result => exact ⟨_, .hands ⟨job, result⟩ rfl rfl rfl rfl rfl rfl, h.refl, rfl⟩
    | attempting n => exact step_call h number job (.attempting n) rfl
    | waiting n e wake => exact step_call h number job (.waiting n e wake) rfl
  | finishing => exact ⟨_, .stays rfl rfl rfl rfl, h.refl, rfl⟩
  | retiring =>
    simp only [step, Pool.retire]
    split
    · exact ⟨_, .stays rfl rfl rfl rfl, h.refl, rfl⟩
    · exact ⟨_, .stays rfl rfl rfl rfl, h.refl, rfl⟩
  | reserving reserve =>
    cases reserve with
    | done taken => cases taken <;> exact ⟨_, .stays rfl rfl rfl rfl, h.refl, rfl⟩
    | readLive => exact ⟨_, .stays rfl rfl rfl rfl, h.refl, rfl⟩
    | readBusy live => exact ⟨_, .stays rfl rfl rfl rfl, h.refl, rfl⟩
    | readQueued live idle =>
      simp only [step, Reserve.step]
      split
      · exact ⟨_, .stays rfl rfl rfl rfl, h.refl, rfl⟩
      · exact ⟨_, .stays rfl rfl rfl rfl, h.refl, rfl⟩
    | swap live =>
      simp only [step, Reserve.step]
      split
      · exact ⟨_, .stays rfl rfl rfl rfl, h.refl, rfl⟩
      · exact ⟨_, .stays rfl rfl rfl rfl, h.refl, rfl⟩
  | closing => exact ⟨_, .stays rfl rfl rfl rfl, h.refl, rfl⟩
  | gone => exact ⟨_, .stays rfl rfl rfl rfl, h.refl, rfl⟩

end Runner

end ClaimQueue
