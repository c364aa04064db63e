/-
  ClaimQueue.Proofs.Upkeep.Passing — a heartbeat pass gets done.

  In a fair schedule nobody is passed over for ever. A pass may have to wait, for the reports
  of its jobs or between two attempts of its scan, and idle runners may come and go in the
  meantime. But there is somebody whose turn helps (`Helps`): the pass itself, a runner with
  a job in hand, any runner while a job is in the channel, or the clock.

  `Station.left` says what is left: the phase of the pass, then the work of the phase, then
  waits and ways. A turn that helps makes it less, and any other turn makes it less or keeps
  what helps as it is (`Sound.turn_left`). Main statement: `pass_exact`.
-/

import ClaimQueue.Proofs.Upkeep.Pulses
import Mathlib.Data.Nat.Pairing
import Mathlib.Data.Prod.Lex

namespace ClaimQueue

/-- No policy has more retries. -/
def mostRetries : Nat := 2 ^ 32

theorem Site.retries_le (s : Site) (r : Request) : s.retries r ≤ mostRetries := by
  unfold Site.retries
  split
  · exact Nat.le_of_lt (UInt32.toNat_lt _)
  · exact Nat.zero_le _

/-! ## What is left to do -/

/-- How long the call waits still. -/
def Call.wait {α : Type} (time : Nat) : Call α → Nat
  | .waiting _ _ wake => wake - time
  | _ => 0

theorem Call.isReady_iff {α : Type} {call : Call α} {time : Nat} : call.isReady false time = true ↔ call.wait time = 0 := by
  cases call with
  | waiting n e wake => simp [isReady, wait, Nat.sub_eq_zero_iff_le]
  | _ => exact ⟨fun _ => rfl, fun _ => rfl⟩

theorem Call.wait_succ {α : Type} (call : Call α) (time : Nat) : call.wait (time + 1) = call.wait time - 1 := by
  cases call <;> rfl

theorem Call.step_waits {r : Request} {s : Site} {call : Call r.Reply} (unready : call.isReady false s.time = false)
    (scopes : List Scope) : call.step r false scopes s = (call, s) := by
  cases call with
  | waiting n e wake =>
    have early : ¬wake ≤ s.time := by simpa [isReady] using unready
    simp [step, early]
  | _ => cases unready

/-- Steps to the end of taking a place. -/
def Reserve.rank : Reserve → Nat
  | .readLive => 4
  | .readBusy _ => 3
  | .readQueued _ _ => 2
  | .swap _ => 1
  | .done _ => 0

theorem Reserve.step_rank {reserve : Reserve} (pending : reserve.isOver = false) (p : Pool) :
    (reserve.step p).1.rank < reserve.rank := by
  cases reserve with
  | readLive => exact Nat.lt_succ_self _
  | readBusy live => exact Nat.lt_succ_self _
  | readQueued live idle =>
    simp only [step]
    split
    · exact Nat.lt_succ_self _
    · exact Nat.succ_pos _
  | swap live =>
    simp only [step]
    split <;> exact Nat.succ_pos _
  | done taken => cases pending

namespace Runner

/-- What is left to do of the job in hand. -/
def load (r : Runner) : Nat :=
  match r.stage with
  | .took _ => 2 * mostRetries + 5
  | .counted _ => 2 * mostRetries + 4
  | .working _ call => call.left mostRetries + 2
  | _ => 0

/-- How far a runner without a job is from the channel. -/
def rank (r : Runner) : Nat :=
  match r.stage with
  | .finishing => 10
  | .retiring => 9
  | .reserving reserve => reserve.rank + 4
  | .arriving => 3
  | .lined => 2
  | .receiving _ => 1
  | .closing => 1
  | _ => 0

def wait (r : Runner) (time : Nat) : Nat :=
  match r.stage with
  | .working _ call => call.wait time
  | _ => 0

theorem wait_eq_zero {r : Runner} (idle : r.load = 0) (time : Nat) : r.wait time = 0 := by
  obtain ⟨number, stage⟩ := r
  cases stage with
  | working job call => cases idle
  | _ => rfl

theorem wait_succ (r : Runner) (time : Nat) : r.wait (time + 1) = r.wait time - 1 := by
  obtain ⟨number, stage⟩ := r
  cases stage with
  | working job call => exact call.wait_succ time
  | _ => rfl

theorem isReady_succ {r : Runner} {p : Pool} {time : Nat} (ready : r.isReady p time = true) :
    r.isReady p (time + 1) = true := by
  obtain ⟨number, stage⟩ := r
  cases stage with
  | working job call =>
    have none := Call.isReady_iff.mp ready
    exact Call.isReady_iff.mpr (by rw [call.wait_succ, none])
  | receiving wake =>
    simp only [isReady, Bool.or_eq_true, decide_eq_true_eq] at ready ⊢
    exact ready.imp_right Nat.le_succ_of_le
  | _ => exact ready

theorem load_of_job {r : Runner} (job : r.waiting ≠ [] ∨ r.answered ≠ []) : 0 < r.load := by
  obtain ⟨number, stage⟩ := r
  cases stage with
  | took job => exact Nat.succ_pos _
  | counted job => exact Nat.succ_pos _
  | working job call => exact Nat.succ_pos _
  | _ => exact absurd rfl (job.resolve_right (absurd rfl))

theorem isReady_of_wait {r : Runner} {time : Nat} (busy : 0 < r.load) (none : r.wait time = 0) (p : Pool) :
    r.isReady p time = true := by
  obtain ⟨number, stage⟩ := r
  cases stage with
  | took job => rfl
  | counted job => rfl
  | working job call => exact Call.isReady_iff.mpr none
  | _ => cases busy

/-- A runner with a job asks nothing of the pool. -/
theorem isReady_of_load {r : Runner} (busy : 0 < r.load) (p p' : Pool) (time : Nat) :
    r.isReady p time = r.isReady p' time := by
  obtain ⟨number, stage⟩ := r
  cases stage with
  | took job => rfl
  | counted job => rfl
  | working job call => rfl
  | _ => cases busy

end Runner

/-- What a pool has waiting, for a runner or to be looked at. -/
def Pool.load (p : Pool) : Nat := p.channel.length * (2 * mostRetries + 6) + p.reports.length

/-- A runner without a job walks on. -/
structure Runner.Strolls (r r' : Runner) (s s' : Scene) : Prop where
  idle : r.load = 0
  idle' : r'.load = 0
  channel : s'.desk.pool.channel = s.desk.pool.channel
  reports : s'.desk.pool.reports = s.desk.pool.reports
  site : s'.site = s.site

/-- What a step of a runner comes to. -/
inductive Runner.Paces (r r' : Runner) (s s' : Scene) : Prop
  | works : r'.load + s'.desk.pool.load < r.load + s.desk.pool.load → Paces r r' s s'
  | waits : r.isReady s.desk.pool s.time = false → r' = r → s' = s → Paces r r' s s'
  /-- It comes nearer to the channel, or there is nothing to come for. -/
  | strolls : r.Strolls r' s s' → (s.desk.pool.channel ≠ [] → r'.rank < r.rank) → Paces r r' s s'

theorem Runner.working_paces (number : Nat) (job : Job) (call : Call Unit) (s : Scene) :
    Paces ⟨number, .working job call⟩ (step ⟨number, .working job call⟩ s).1 s (step ⟨number, .working job call⟩ s).2 := by
  cases undone : call.result? with
  | some result =>
    cases call with
    | done result =>
      refine .works ?_
      simp only [step, load, goTo, Call.left, Scene.setPool, Pool.report, Pool.load, List.length_append,
        List.length_singleton]
      omega
    | _ => cases undone
  | none =>
    have step : (Runner.mk number (.working job call)).step s =
        (⟨number, .working job (s.advance (.resetHeartbeat job.id job.holding.worker) false [] call).1⟩,
          (s.advance (.resetHeartbeat job.id job.holding.worker) false [] call).2) := by
      cases call with
      | done result => cases undone
      | _ => rfl
    rw [step]
    cases ready : call.isReady false s.site.time with
    | true =>
      have nearer := Call.step_left (r := .resetHeartbeat job.id job.holding.worker) (s.site.retries_le _) undone ready []
      exact .works (Nat.add_lt_add_right (Nat.add_lt_add_right nearer 2) _)
    | false =>
      have still := Call.step_waits (r := .resetHeartbeat job.id job.holding.worker) ready []
      refine .waits ready ?_ ?_
      · show Runner.mk number (.working job (call.step (.resetHeartbeat job.id job.holding.worker) false [] s.site).1) = _
        rw [still]
      · show Scene.mk (call.step (.resetHeartbeat job.id job.holding.worker) false [] s.site).2 s.desk = s
        rw [still]

theorem Runner.reserving_paces (number : Nat) (reserve : Reserve) (s : Scene) :
    Paces ⟨number, .reserving reserve⟩ (step ⟨number, .reserving reserve⟩ s).1 s (step ⟨number, .reserving reserve⟩ s).2 := by
  obtain ⟨channel, reports⟩ := reserve.step_pool s.desk.pool
  cases finished : reserve.isOver with
  | false =>
    have nearer := Nat.add_lt_add_right (Reserve.step_rank finished s.desk.pool) 4
    cases reserve with
    | done taken => cases finished
    | _ => exact .strolls ⟨rfl, rfl, channel, reports, rfl⟩ fun _ => nearer
  | true =>
    cases reserve with
    | done taken =>
      cases taken with
      | true => exact .strolls ⟨rfl, rfl, rfl, rfl, rfl⟩ fun _ => show 3 < 4 by decide
      | false => exact .strolls ⟨rfl, rfl, rfl, rfl, rfl⟩ fun _ => show 0 < 4 by decide
    | _ => cases finished

theorem Runner.step_paces (r : Runner) (s : Scene) : r.Paces (r.step s).1 s (r.step s).2 := by
  obtain ⟨number, stage⟩ := r
  cases stage with
  | arriving => exact .strolls ⟨rfl, rfl, rfl, rfl, rfl⟩ fun _ => Nat.lt_succ_self _
  | lined =>
    simp only [step]
    split
    · exact .strolls ⟨rfl, rfl, rfl, rfl, rfl⟩ fun _ => Nat.lt_succ_self _
    · rename_i other
      exact .waits (by simpa [isReady] using other) rfl rfl
  | receiving wake =>
    cases channel : s.desk.pool.channel with
    | cons job rest =>
      simp only [step, channel]
      refine .works ?_
      simp only [Pool.load, load, goTo, Scene.setPool, Pool.leaveLine, channel, List.length_cons, Nat.succ_mul]
      omega
    | nil =>
      simp only [step, channel]
      split
      · exact .strolls ⟨rfl, rfl, rfl, rfl, rfl⟩ fun some => absurd channel some
      · rename_i opened
        split
        · exact .strolls ⟨rfl, rfl, rfl, rfl, rfl⟩ fun some => absurd channel some
        · rename_i early
          refine .waits ?_ rfl rfl
          simp [isReady, channel, opened, Nat.lt_of_not_le early]
  | took job =>
    exact .works (Nat.add_lt_add_right (Nat.lt_succ_self (2 * mostRetries + 4)) _)
  | counted job =>
    have less : (Call.start : Call Unit).left mostRetries + 2 < 2 * mostRetries + 4 := by
      show 2 * (mostRetries - 0) + 1 + 2 < 2 * mostRetries + 4
      omega
    exact .works (Nat.add_lt_add_right less _)
  | working job call => exact working_paces number job call s
  | finishing => exact .strolls ⟨rfl, rfl, rfl, rfl, rfl⟩ fun _ => show 3 < 10 by decide
  | retiring =>
    simp only [step, Pool.retire]
    split
    · exact .strolls ⟨rfl, rfl, rfl, rfl, rfl⟩ fun _ => show 8 < 9 by decide
    · exact .strolls ⟨rfl, rfl, rfl, rfl, rfl⟩ fun _ => show 3 < 9 by decide
  | reserving reserve => exact reserving_paces number reserve s
  | closing => exact .strolls ⟨rfl, rfl, rfl, rfl, rfl⟩ fun _ => Nat.lt_succ_self _
  | gone => exact .waits rfl rfl rfl

/-- What is left to do until a job is submitted, its way through the pool included. -/
def Submit.load : Submit → Nat
  | .announcing => 2 * mostRetries + 14
  | .sending => 2 * mostRetries + 13
  | .growing reserve => reserve.rank + 2
  | .done _ => 1

namespace Pass

/-- The phases of a pass, the last one first. -/
def phase : Pass → Nat
  | .done _ => 0
  | .reclaiming _ _ (.done _) => 1
  | .reclaiming _ _ (.revoking _ _) => 2
  | .reclaiming _ _ (.scanning (.done _)) => 3
  | .reclaiming _ _ (.scanning _) => 4
  | .refreshing (.done _ _) => 5
  | .refreshing .starting => 7
  | .refreshing _ => 6

theorem undone_iff {pass : Pass} : pass.result? = none ↔ 0 < pass.phase := by
  cases pass with
  | done result => exact ⟨nofun, nofun⟩
  | refreshing refresh => cases refresh <;> exact ⟨fun _ => Nat.succ_pos _, fun _ => rfl⟩
  | reclaiming refreshed lost reclaim =>
    cases reclaim with
    | scanning call => cases call <;> exact ⟨fun _ => Nat.succ_pos _, fun _ => rfl⟩
    | _ => exact ⟨fun _ => Nat.succ_pos _, fun _ => rfl⟩

/-- What is left to do in its phase. -/
def load : Pass → Nat
  | .refreshing (.submitting _ submit rest _) => submit.load + rest.length * (2 * mostRetries + 15)
  | .reclaiming _ _ (.scanning call) => call.left mostRetries
  | .reclaiming _ _ (.revoking _ rest) => rest.length
  | _ => 0

def wait (pass : Pass) (time : Nat) : Nat :=
  match pass with
  | .reclaiming _ _ (.scanning call) => call.wait time
  | _ => 0

/-- Has it come nearer to its end? -/
def Nears (pass pass' : Pass) (s s' : Scene) : Prop :=
  pass'.phase < pass.phase ∨
    pass'.phase = pass.phase ∧ pass'.load + s'.desk.pool.load < pass.load + s.desk.pool.load

theorem isReady_congr {p p' : Pool} (reports : p'.reports = p.reports) (pass : Pass) (time : Nat) :
    pass.isReady p' time = pass.isReady p time := by
  cases pass with
  | refreshing refresh => cases refresh <;> simp [isReady, Refresh.isReady, reports]
  | _ => rfl

theorem wait_succ (pass : Pass) (time : Nat) : pass.wait (time + 1) = pass.wait time - 1 := by
  cases pass with
  | reclaiming refreshed lost reclaim =>
    cases reclaim with
    | scanning call => exact call.wait_succ time
    | _ => rfl
  | _ => rfl

theorem isReady_succ {pass : Pass} {p : Pool} {time : Nat} (ready : pass.isReady p time = true) :
    pass.isReady p (time + 1) = true := by
  cases pass with
  | reclaiming refreshed lost reclaim =>
    cases reclaim with
    | scanning call =>
      have none := Call.isReady_iff.mp ready
      exact Call.isReady_iff.mpr (by rw [call.wait_succ, none])
    | _ => exact ready
  | _ => exact ready

/-- If it need not wait for an attempt, a pass waits for a report. -/
theorem collecting_of_unready {pass : Pass} {p : Pool} {time : Nat} (unready : pass.isReady p time = false)
    (none : pass.wait time = 0) :
    ∃ left refreshed lost, pass = .refreshing (.collecting (left + 1) refreshed lost) ∧ p.reports = [] := by
  cases pass with
  | done result => cases unready
  | reclaiming refreshed lost reclaim =>
    cases reclaim with
    | scanning call =>
      have ready : call.isReady false time = true := Call.isReady_iff.mpr none
      exact absurd (ready.symm.trans unready) nofun
    | _ => cases unready
  | refreshing refresh =>
    cases refresh with
    | collecting left refreshed lost =>
      cases left with
      | zero => cases unready
      | succ left => exact ⟨left, refreshed, lost, rfl, by simpa [isReady, Refresh.isReady] using unready⟩
    | _ => cases unready

variable {s : Scene}

theorem submitting_nears (job : Job) (submit : Submit) (rest : List Job) (count : Nat) :
    Nears (.refreshing (.submitting job submit rest count)) (step s (.refreshing (.submitting job submit rest count))).1
      s (step s (.refreshing (.submitting job submit rest count))).2 := by
  refine Or.inr ?_
  cases submit with
  | announcing => exact ⟨rfl, Nat.add_lt_add_right (Nat.add_lt_add_right (Nat.lt_succ_self _) _) _⟩
  | sending =>
    refine ⟨rfl, ?_⟩
    simp only [step, Refresh.step, Submit.step, load, Submit.load, Reserve.start, Reserve.rank, Scene.setPool, Pool.send,
      Pool.load, List.length_append, List.length_singleton, Nat.succ_mul]
    omega
  | growing reserve =>
    cases finished : reserve.isOver with
    | true =>
      cases reserve with
      | done taken => exact ⟨rfl, Nat.add_lt_add_right (Nat.add_lt_add_right (Nat.lt_succ_self _) _) _⟩
      | _ => cases finished
    | false =>
      have nearer := reserve.step_rank finished s.desk.pool
      obtain ⟨channel, reports⟩ := reserve.step_pool s.desk.pool
      have pool : (reserve.step s.desk.pool).2.load = s.desk.pool.load := by rw [Pool.load, channel, reports, Pool.load]
      have stepped : step s (.refreshing (.submitting job (.growing reserve) rest count)) =
          (.refreshing (.submitting job (.growing (reserve.step s.desk.pool).1) rest count),
            s.setPool (reserve.step s.desk.pool).2) := by
        cases reserve with
        | done taken => cases finished
        | _ => rfl
      rw [stepped]
      refine ⟨rfl, ?_⟩
      simp only [load, Submit.load, Scene.setPool, pool]
      omega
  | done start =>
    have pool : (step s (.refreshing (.submitting job (.done start) rest count))).2.desk.pool.load = s.desk.pool.load := by
      cases start <;> rfl
    rw [pool]
    cases rest with
    | nil => exact ⟨rfl, Nat.add_lt_add_right (Nat.succ_pos _) _⟩
    | cons next rest =>
      refine ⟨rfl, Nat.add_lt_add_right ?_ _⟩
      simp only [step, Refresh.step, Refresh.submit, load, Submit.load, List.length_cons, Nat.succ_mul]
      omega

theorem scanning_nears {refreshed : Nat} {lost : List MessageId} {call : Call (List MessageId)}
    (ready : call.isReady false s.time = true) :
    Nears (.reclaiming refreshed lost (.scanning call)) (step s (.reclaiming refreshed lost (.scanning call))).1
      s (step s (.reclaiming refreshed lost (.scanning call))).2 := by
  cases undone : call.result? with
  | some result =>
    cases call with
    | done result =>
      refine Or.inl ?_
      cases result with
      | error e => exact Nat.lt_of_lt_of_le (Nat.lt_succ_self 1) (Nat.le_succ 2)
      | ok ids =>
        cases ids with
        | nil => exact Nat.lt_of_lt_of_le (Nat.lt_succ_self 1) (Nat.le_succ 2)
        | cons id rest => exact Nat.lt_succ_self _
    | _ => cases undone
  | none =>
    let r : Request := .reclaimDead s.desk.config.heartbeat.time s.desk.config.heartbeat.lookback
    have nearer := Call.step_left (r := r) (s.site.retries_le r) undone ready []
    have before : (Pass.reclaiming refreshed lost (.scanning call)).phase = 4 := by
      cases call with
      | done result => cases undone
      | _ => rfl
    have stepped : step s (.reclaiming refreshed lost (.scanning call)) =
        (.reclaiming refreshed lost (.scanning (call.step r false [] s.site).1),
          { s with site := (call.step r false [] s.site).2 }) := by
      cases call with
      | done result => cases undone
      | _ => rfl
    rw [stepped, Nears, before]
    generalize (call.step r false [] s.site).1 = call' at nearer
    cases call' with
    | done result => exact Or.inl (Nat.lt_succ_self _)
    | _ => exact Or.inr ⟨rfl, Nat.add_lt_add_right nearer _⟩

theorem step_nears {pass : Pass} (undone : pass.result? = none)
    (ready : pass.isReady s.desk.pool s.time = true) : pass.Nears (pass.step s).1 s (pass.step s).2 := by
  cases pass with
  | done result => cases undone
  | refreshing refresh =>
    cases refresh with
    | starting =>
      refine Or.inl ?_
      simp only [step, Refresh.step]
      split
      · exact Nat.lt_of_lt_of_le (Nat.lt_succ_self 5) (Nat.le_succ 6)
      · cases s.desk.claims.entries <;> exact Nat.lt_succ_self _
    | submitting job submit rest count => exact submitting_nears job submit rest count
    | done refreshed lost => exact Or.inl (Nat.lt_succ_self _)
    | collecting left refreshed lost =>
      cases left with
      | zero => exact Or.inl (Nat.lt_succ_self _)
      | succ left =>
        cases reports : s.desk.pool.reports with
        | nil => simp [isReady, Refresh.isReady, reports] at ready
        | cons r rest =>
          refine Or.inr ?_
          simp only [step, Refresh.step, reports]
          have less : ({ s.desk.pool with reports := rest } : Pool).load < s.desk.pool.load := by
            simp only [Pool.load, reports, List.length_cons]
            omega
          unfold Refresh.settle
          split <;> exact ⟨rfl, Nat.add_lt_add_left less _⟩
  | reclaiming refreshed lost reclaim =>
    cases reclaim with
    | done result => exact Or.inl (Nat.lt_succ_self _)
    | revoking ids rest =>
      cases rest with
      | nil => exact Or.inl (Nat.lt_succ_self _)
      | cons id rest =>
        refine Or.inr ⟨rfl, ?_⟩
        have pool : (Reclaim.revoke s id).desk.pool = s.desk.pool := by rw [Reclaim.revoke_desk]
        show rest.length + (Reclaim.revoke s id).desk.pool.load < (id :: rest).length + s.desk.pool.load
        rw [pool]
        exact Nat.add_lt_add_right (Nat.lt_succ_self _) _
    | scanning call => exact scanning_nears ready

theorem step_waits {pass : Pass} (unready : pass.isReady s.desk.pool s.time = false) : pass.step s = (pass, s) := by
  cases pass with
  | done result => cases unready
  | refreshing refresh =>
    cases refresh with
    | collecting left refreshed lost =>
      cases left with
      | zero => cases unready
      | succ left =>
        have none : s.desk.pool.reports = [] := by simpa [isReady, Refresh.isReady] using unready
        simp only [step, Refresh.step, none]
    | _ => cases unready
  | reclaiming refreshed lost reclaim =>
    cases reclaim with
    | scanning call =>
      cases call with
      | waiting n e wake =>
        have early : (Call.waiting n e wake : Call (List MessageId)).isReady false s.site.time = false := unready
        have still := Call.step_waits
          (r := .reclaimDead s.desk.config.heartbeat.time s.desk.config.heartbeat.lookback) early []
        simp only [step, Reclaim.step, Scene.advance, still]
      | _ => cases unready
    | _ => cases unready

end Pass

theorem Runner.sum_wait_succ (runners : List Runner) (time : Nat) :
    (runners.map (·.wait (time + 1))).sum ≤ (runners.map (·.wait time)).sum ∧
      (0 < (runners.map (·.wait time)).sum → (runners.map (·.wait (time + 1))).sum < (runners.map (·.wait time)).sum) := by
  induction runners with
  | nil => exact ⟨Nat.le_refl _, fun none => absurd none (Nat.lt_irrefl 0)⟩
  | cons r runners ih =>
    have first := r.wait_succ time
    simp only [List.map_cons, List.sum_cons]
    omega

theorem Crew.sum_set {runners : List Runner} {i : Nat} {r : Runner} (found : runners[i]? = some r) (r' : Runner)
    (f : Runner → Nat) : ((runners.set i r').map f).sum + f r = (runners.map f).sum + f r' := by
  obtain ⟨before, after, split, changed⟩ := Crew.set_split found r'
  rw [changed, split]
  simp only [List.map_append, List.map_cons, List.sum_append, List.sum_cons]
  omega

namespace Attended

variable {p : Pool} {runners : List Runner}

/-- A job in the channel has a runner. -/
theorem someone (attended : Attended p runners []) (some : p.channel ≠ []) : ∃ r ∈ runners, r.isGone = false := by
  obtain ⟨_, _, config, past, begun, gone, sound⟩ := attended
  rw [List.append_nil] at sound
  -- somebody has a place, or is about to take one
  obtain ⟨a, mem, here⟩ : ∃ a ∈ past ++ runners.map Party.runner, 0 < a.slot ∨ a.isHopeful = true := by
    by_cases empty : p.live = 0
    · have queued : 0 < p.queued := by
        rw [toNat_pos, sound.queued]
        exact Nat.lt_of_lt_of_le (List.length_pos_iff.mpr some) (Nat.le_add_left ..)
      obtain ⟨a, mem, hopeful⟩ := sound.hope empty queued
      exact ⟨a, mem, Or.inr hopeful⟩
    · by_contra nobody
      refine empty (UInt64.toNat_inj.mp (sound.live.trans (List.sum_eq_zero fun n counted => ?_)))
      obtain ⟨a, mem, rfl⟩ := List.mem_map.mp counted
      exact Nat.eq_zero_of_not_pos fun pos => nobody ⟨a, mem, Or.inl pos⟩
  rcases List.mem_append.mp mem with mem | mem
  · obtain ⟨job, rfl⟩ := gone a mem
    rcases here with here | here <;> cases here
  · obtain ⟨r, listed, rfl⟩ := List.mem_map.mp mem
    refine ⟨r, listed, ?_⟩
    obtain ⟨number, stage⟩ := r
    cases stage with
    | gone => rcases here with here | here <;> cases here
    | _ => rfl

/-- Whoever is first in line can take a job that is in the channel. -/
theorem first (attended : Attended p runners []) (some : p.channel ≠ []) (time : Nat) {r : Runner} (mem : r ∈ runners)
    (lined : r.isLined = true) : ∃ r' ∈ runners, r'.isReady p time = true := by
  obtain ⟨i, found⟩ := List.mem_iff_getElem?.mp mem
  have inLine : i ∈ p.line := (attended.line i).mpr (by rw [found]; exact lined)
  cases line : p.line with
  | nil => rw [line] at inLine; cases inLine
  | cons n rest =>
    obtain ⟨r', found', lined'⟩ := (Option.any_eq_true _ _).mp ((attended.line n).mp (line ▸ List.mem_cons_self))
    refine ⟨r', List.mem_of_getElem? found', ?_⟩
    have own := attended.number found'
    obtain ⟨number, stage⟩ := r'
    cases stage with
    | lined => simp [Runner.isReady, line, ← own]
    | receiving wake => simp [Runner.isReady, some]
    | _ => cases lined'

/-- While there is a job in the channel and no runner has one in hand, some runner can move. -/
theorem comes (attended : Attended p runners []) (some : p.channel ≠ []) (time : Nat)
    (idle : ∀ r ∈ runners, r.load = 0) : ∃ r ∈ runners, r.isReady p time = true := by
  obtain ⟨r, mem, here⟩ := attended.someone some
  have idle := idle r mem
  cases lined : r.isLined with
  | true => exact attended.first some time mem lined
  | false =>
    refine ⟨r, mem, ?_⟩
    obtain ⟨number, stage⟩ := r
    cases stage with
    | took job => cases idle
    | counted job => cases idle
    | working job call => cases idle
    | lined => cases lined
    | receiving wake => cases lined
    | gone => cases here
    | _ => rfl

end Attended

/-! ## Turns -/

namespace Station

/-- What is left to do in the phase of the pass. -/
def work (s : Station) : Nat := s.pass.load + s.crew.desk.pool.load + (s.crew.runners.map (·.load)).sum

/-- How long is waited still for the next attempts. -/
def wait (s : Station) : Nat := s.pass.wait s.site.time + (s.crew.runners.map (·.wait s.site.time)).sum

/-- The ways of the runners to the channel, as long as there is something to come for. -/
def way (s : Station) : Nat := if s.crew.desk.pool.channel = [] then 0 else (s.crew.runners.map (·.rank)).sum

/-- The phase of the pass counts first; a new phase may bring any work, and work any wait. -/
def left (s : Station) : ℕ ×ₗ ℕ ×ₗ ℕ := toLex (s.pass.phase, toLex (s.work, s.wait + s.way))

/-- Whose turn brings the end of the pass nearer. -/
inductive Helps (s : Station) : Turn → Prop
  | pass : s.pass.isReady s.crew.desk.pool s.site.time = true → Helps s .pass
  | runner (i : Nat) (r : Runner) : s.crew.runners[i]? = some r → r.isReady s.crew.desk.pool s.site.time = true →
      (0 < r.load ∨ s.crew.desk.pool.channel ≠ []) → Helps s (.runner i)
  | tick : 0 < s.wait → Helps s .tick

variable {s s' : Station}

theorem left_lt_iff : s'.left < s.left ↔ s'.pass.phase < s.pass.phase ∨ s'.pass.phase = s.pass.phase ∧
    (s'.work < s.work ∨ s'.work = s.work ∧ s'.wait + s'.way < s.wait + s.way) := by
  simp only [left, Prod.Lex.toLex_lt_toLex]

/-- A turn that is no help leaves whoever helps. -/
structure Keeps (s s' : Station) : Prop where
  left : s'.left = s.left
  helps : ∀ t, s.Helps t → s'.Helps t

theorem Keeps.of_eq (same : s' = s) : s.Keeps s' := by
  subst same
  exact ⟨rfl, fun _ => id⟩

theorem Sound.pass_left (sound : s.Sound) (undone : s.pass.result? = none) :
    (s.turn .pass).left < s.left ∨ ¬s.Helps .pass ∧ s.Keeps (s.turn .pass) := by
  obtain ⟨new, fresh, turned, attended⟩ := sound.turn_pass
  cases ready : s.pass.isReady s.crew.desk.pool s.site.time with
  | true =>
    refine Or.inl (left_lt_iff.mpr ?_)
    -- a new runner has no job
    have idle : (new.map (·.load)).sum = 0 := by rcases fresh with rfl | rfl <;> rfl
    rcases Pass.step_nears (s := s.scene) undone ready with less | ⟨same, less⟩
    · exact Or.inl (turned ▸ less)
    · refine Or.inr ⟨turned ▸ same, Or.inl ?_⟩
      rw [turned]
      simp only [work, List.map_append, List.sum_append, idle]
      exact Nat.add_lt_add_right less _
  | false =>
    have waits := Pass.step_waits (s := s.scene) ready
    rw [waits] at turned attended
    -- nobody comes with a step that changes nothing
    have nobody : new = [] := by
      have all : (s.crew.runners ++ new).length = s.crew.desk.pool.hired := attended.length
      rw [List.length_append] at all
      have before := sound.attended.length
      exact List.length_eq_zero_iff.mp (by omega)
    have still : s.turn .pass = s := by
      rw [turned, nobody, List.append_nil]
      rfl
    refine Or.inr ⟨fun helps => ?_, .of_eq still⟩
    cases helps with
    | pass ready' => rw [ready] at ready'; cases ready'

theorem Helps.of_runner {i : Nat} {r : Runner} (helps : s.Helps (.runner i)) (found : s.crew.runners[i]? = some r) :
    r.isReady s.crew.desk.pool s.site.time = true ∧ (0 < r.load ∨ s.crew.desk.pool.channel ≠ []) := by
  cases helps with
  | runner i r' found' ready come =>
    obtain rfl : r = r' := Option.some.inj (found.symm.trans found')
    exact ⟨ready, come⟩

section

variable {i : Nat} {r : Runner}

/-- To walk on is no work, and nobody waits for it. -/
theorem Sound.strolled (sound : s.Sound) (found : s.crew.runners[i]? = some r)
    (strolls : r.Strolls (r.step s.scene).1 s.scene (r.step s.scene).2) :
    (s.turn (.runner i)).work = s.work ∧ (s.turn (.runner i)).wait = s.wait ∧
      (s.turn (.runner i)).crew.desk.pool.channel = s.crew.desk.pool.channel := by
  have turned := sound.turn_runner found
  have sum := Crew.sum_set found (r.step s.scene).1
  refine ⟨?_, ?_, turned ▸ strolls.channel⟩
  · have pool : (r.step s.scene).2.desk.pool.load = s.crew.desk.pool.load := by
      rw [Pool.load, strolls.channel, strolls.reports]
      rfl
    have sum := sum (·.load)
    simp only [strolls.idle, strolls.idle'] at sum
    simp only [turned, work, pool]
    omega
  · have time : (r.step s.scene).2.site.time = s.site.time := congrArg Site.time strolls.site
    have sum := sum (·.wait s.site.time)
    simp only [Runner.wait_eq_zero strolls.idle, Runner.wait_eq_zero strolls.idle'] at sum
    simp only [turned, wait, time]
    omega

/-- With no job in the channel it is all the same to the others. -/
theorem Sound.strolls_keeps (sound : s.Sound) (found : s.crew.runners[i]? = some r)
    (strolls : r.Strolls (r.step s.scene).1 s.scene (r.step s.scene).2) (none : s.crew.desk.pool.channel = []) :
    s.Keeps (s.turn (.runner i)) := by
  have turned := sound.turn_runner found
  obtain ⟨work, wait, channel⟩ := sound.strolled found strolls
  have pass : (s.turn (.runner i)).pass = s.pass := rfl
  have time : (s.turn (.runner i)).site.time = s.site.time := turned ▸ congrArg Site.time strolls.site
  refine ⟨?_, fun t helps => ?_⟩
  · have way : (s.turn (.runner i)).way = s.way := by rw [Station.way, Station.way, channel, if_pos none, if_pos none]
    rw [left, left, work, wait, way, pass]
  · cases helps with
    | tick waits => exact .tick (wait ▸ waits)
    | pass ready =>
      have reports : (s.turn (.runner i)).crew.desk.pool.reports = s.crew.desk.pool.reports := turned ▸ strolls.reports
      exact .pass (by rw [time, pass, Pass.isReady_congr reports]; exact ready)
    | runner j r' found' ready come =>
      have busy := come.resolve_right (absurd none)
      have other : i ≠ j := by
        rintro rfl
        obtain rfl : r = r' := Option.some.inj (found.symm.trans found')
        exact absurd strolls.idle (Nat.ne_of_gt busy)
      refine .runner j r' ?_ ?_ (Or.inl busy)
      · rw [turned]
        exact (List.getElem?_set_ne other).trans found'
      · rw [time, Runner.isReady_of_load busy _ s.crew.desk.pool]
        exact ready

end

theorem Sound.runner_left (sound : s.Sound) (i : Nat) :
    (s.turn (.runner i)).left < s.left ∨ ¬s.Helps (.runner i) ∧ s.Keeps (s.turn (.runner i)) := by
  cases found : s.crew.runners[i]? with
  | none =>
    refine Or.inr ⟨fun helps => ?_, .of_eq (sound.turn_nobody found)⟩
    cases helps with
    | runner i r found' => rw [found] at found'; cases found'
  | some r =>
    have turned := sound.turn_runner found
    have sum := Crew.sum_set found (r.step s.scene).1
    cases r.step_paces s.scene with
    | works less =>
      refine Or.inl (left_lt_iff.mpr (Or.inr ⟨turned ▸ rfl, Or.inl ?_⟩))
      rw [turned]
      have sum := sum (·.load)
      have less : (r.step s.scene).1.load + (r.step s.scene).2.desk.pool.load < r.load + s.crew.desk.pool.load := less
      simp only [work]
      omega
    | waits unready same still =>
      have there : s.crew.runners.set i r = s.crew.runners := by
        obtain ⟨lt, same⟩ := List.getElem?_eq_some_iff.mp found
        rw [← same, List.set_getElem_self]
      rw [same, still, there] at turned
      refine Or.inr ⟨fun helps => ?_, .of_eq turned⟩
      exact absurd ((helps.of_runner found).1.symm.trans unready) nofun
    | strolls strolls nearer =>
      by_cases none : s.crew.desk.pool.channel = []
      · refine Or.inr ⟨fun helps => ?_, sound.strolls_keeps found strolls none⟩
        rcases (helps.of_runner found).2 with busy | come
        · exact absurd strolls.idle (Nat.ne_of_gt busy)
        · exact come none
      · obtain ⟨work, wait, channel⟩ := sound.strolled found strolls
        refine Or.inl (left_lt_iff.mpr (Or.inr ⟨rfl, Or.inr ⟨work, ?_⟩⟩))
        have sum := sum (·.rank)
        have nearer : (r.step s.scene).1.rank < r.rank := nearer none
        rw [wait, way, way, channel, if_neg none, if_neg none, turned]
        simp only
        omega

theorem tick_left (s : Station) : (s.turn .tick).left < s.left ∨ ¬s.Helps .tick ∧ s.Keeps (s.turn .tick) := by
  have pass := s.pass.wait_succ s.site.time
  have runners := Runner.sum_wait_succ s.crew.runners s.site.time
  have wait : (s.turn .tick).wait = s.pass.wait (s.site.time + 1) +
      (s.crew.runners.map (·.wait (s.site.time + 1))).sum := rfl
  have way : (s.turn .tick).way = s.way := rfl
  have work : (s.turn .tick).work = s.work := rfl
  by_cases some : 0 < s.wait
  · refine Or.inl (left_lt_iff.mpr (Or.inr ⟨rfl, Or.inr ⟨rfl, ?_⟩⟩))
    rw [way, wait]
    unfold Station.wait at some ⊢
    omega
  · refine Or.inr ⟨fun helps => ?_, ?_, fun t helps => ?_⟩
    · cases helps with
      | tick some' => exact some some'
    · have same : (s.turn .tick).wait = s.wait := by
        rw [wait]
        unfold Station.wait at some ⊢
        omega
      rw [left, left, work, way, same]
      rfl
    · cases helps with
      | tick some' => exact absurd some' some
      | pass ready => exact .pass (Pass.isReady_succ ready)
      | runner i r found ready come => exact .runner i r found (Runner.isReady_succ ready) come

/-- A turn brings the end of the pass nearer, or it is no help, and keeps what helps. -/
theorem Sound.turn_left (sound : s.Sound) (undone : s.pass.result? = none) (t : Turn) :
    (s.turn t).left < s.left ∨ ¬s.Helps t ∧ s.Keeps (s.turn t) := by
  cases t with
  | pass => exact sound.pass_left undone
  | runner i => exact sound.runner_left i
  | tick => exact s.tick_left

/-- If no runner has the job that the pass waits for, it is in the channel. -/
theorem Sound.in_channel (sound : s.Sound) {count refreshed : Nat} {lost : List MessageId}
    (pass : s.pass = .refreshing (.collecting (count + 1) refreshed lost)) (reports : s.crew.desk.pool.reports = [])
    (idle : ∀ r ∈ s.crew.runners, r.load = 0) : s.crew.desk.pool.channel ≠ [] := by
  intro none
  have jobless : ∀ r ∈ s.crew.runners, r.waiting = [] ∧ r.answered = [] := by
    intro r mem
    by_contra job
    exact absurd (idle r mem) (Nat.ne_of_gt (Runner.load_of_job (not_and_or.mp job)))
  have waiting : s.manned.waiting = [] :=
    List.append_eq_nil_iff.mpr ⟨none, List.flatMap_eq_nil_iff.mpr fun r mem => (jobless r mem).1⟩
  have answered : s.manned.answered = [] :=
    List.append_eq_nil_iff.mpr ⟨List.flatMap_eq_nil_iff.mpr fun r mem => (jobless r mem).2, reports⟩
  have unsent : s.manned.tending.unsent = [] := by rw [manned_tending, pass]; rfl
  have balanced := sound.balanced
  rw [Crew.Balanced, Crew.jobs, unsent, waiting, answered, manned_tending, pass] at balanced
  cases balanced

/-- There is always somebody to help. -/
theorem Sound.helped (sound : s.Sound) : ∃ t, s.Helps t := by
  by_cases waits : 0 < s.wait
  · exact ⟨.tick, .tick waits⟩
  obtain ⟨passes, sum⟩ := Nat.add_eq_zero_iff.mp (Nat.eq_zero_of_not_pos waits)
  have prompt : ∀ r ∈ s.crew.runners, r.wait s.site.time = 0 := fun r mem =>
    List.sum_eq_zero_iff.mp sum _ (List.mem_map_of_mem mem)
  cases ready : s.pass.isReady s.crew.desk.pool s.site.time with
  | true => exact ⟨.pass, .pass ready⟩
  | false =>
    obtain ⟨count, refreshed, lost, pass, reports⟩ := Pass.collecting_of_unready ready passes
    by_cases busy : ∃ r ∈ s.crew.runners, 0 < r.load
    · obtain ⟨r, mem, busy⟩ := busy
      obtain ⟨i, found⟩ := List.mem_iff_getElem?.mp mem
      exact ⟨.runner i, .runner i r found (Runner.isReady_of_wait busy (prompt r mem) _) (Or.inl busy)⟩
    · have idle : ∀ r ∈ s.crew.runners, r.load = 0 := fun r mem =>
        Nat.eq_zero_of_not_pos fun busy' => busy ⟨r, mem, busy'⟩
      have some := sound.in_channel pass reports idle
      have attended := sound.attended
      rw [pass] at attended
      obtain ⟨r, mem, ready⟩ := Attended.comes attended some s.site.time idle
      obtain ⟨i, found⟩ := List.mem_iff_getElem?.mp mem
      exact ⟨.runner i, .runner i r found ready (Or.inr some)⟩

/-! ## Fair schedules -/

/-- Whatever happens, everybody gets another turn. -/
def Fair (sched : Nat → Turn) : Prop := ∀ t n, ∃ m, n ≤ m ∧ sched m = t

/-- The station after `n` turns of a schedule. -/
def after (s : Station) (sched : Nat → Turn) (n : Nat) : Station := s.turns ((List.range n).map sched)

theorem Fair.later {sched : Nat → Turn} (fair : Fair sched) (k : Nat) : Fair fun n => sched (k + n) := by
  intro t n
  obtain ⟨m, le, same⟩ := fair t (k + n)
  refine ⟨m - k, Nat.le_sub_of_add_le' le, ?_⟩
  show sched (k + (m - k)) = t
  rw [Nat.add_sub_cancel' (by omega), same]

theorem after_add (s : Station) (sched : Nat → Turn) (k n : Nat) :
    s.after sched (k + n) = (s.after sched k).after (fun n => sched (k + n)) n := by
  simp only [after, turns, List.range_add, List.map_append, List.foldl_append, List.map_map]
  rfl

theorem after_succ (s : Station) (sched : Nat → Turn) (n : Nat) : s.after sched (n + 1) = (s.after sched n).turn (sched n) := by
  simp [after, turns, List.range_succ]

theorem Sound.after (sound : s.Sound) (sched : Nat → Turn) (n : Nat) : (s.after sched n).Sound := by
  induction n with
  | zero => exact sound
  | succ n ih => exact after_succ s sched n ▸ ih.turn _

theorem undone_of_left (same : s'.left = s.left) (undone : s.pass.result? = none) : s'.pass.result? = none := by
  have phase : s'.pass.phase = s.pass.phase := congrArg (fun left => (ofLex left).1) same
  exact Pass.undone_iff.mpr (phase ▸ Pass.undone_iff.mp undone)

/-- When whoever helps has had a turn, the end is nearer. -/
theorem Sound.nearer (sound : s.Sound) (undone : s.pass.result? = none) {sched : Nat → Turn} {m : Nat}
    (helps : s.Helps (sched m)) : ∃ n, (s.after sched n).left < s.left := by
  by_contra never
  -- until then nothing comes nearer, so the one that helps helps still
  have kept : ∀ n ≤ m, (s.after sched n).left = s.left ∧ (s.after sched n).Helps (sched m) := by
    intro n
    induction n with
    | zero => exact fun _ => ⟨rfl, helps⟩
    | succ n ih =>
      intro le
      obtain ⟨same, helps⟩ := ih (Nat.le_of_succ_le le)
      rcases (sound.after sched n).turn_left (undone_of_left same undone) (sched n) with less | ⟨_, keeps⟩
      · exact absurd ⟨n + 1, after_succ s sched n ▸ same ▸ less⟩ never
      · rw [after_succ]
        exact ⟨keeps.left.trans same, keeps.helps _ helps⟩
  obtain ⟨same, helps⟩ := kept m (Nat.le_refl m)
  rcases (sound.after sched m).turn_left (undone_of_left same undone) (sched m) with less | ⟨idle, _⟩
  · exact never ⟨m + 1, after_succ s sched m ▸ same ▸ less⟩
  · exact idle helps

/-- In a fair schedule every pass gets done. -/
theorem Sound.gets_done (sound : s.Sound) {sched : Nat → Turn} (fair : Fair sched) :
    ∃ n, (s.after sched n).pass.result?.isSome = true := by
  induction left : s.left using WellFoundedLT.induction generalizing s sched with
  | ind left ih =>
    subst left
    cases undone : s.pass.result? with
    | some result => exact ⟨0, congrArg Option.isSome undone⟩
    | none =>
      obtain ⟨t, helps⟩ := sound.helped
      obtain ⟨m, _, turn⟩ := fair t 0
      obtain ⟨k, less⟩ := sound.nearer undone (turn ▸ helps)
      obtain ⟨n, ended⟩ := ih _ less (sound.after sched k) (fair.later k) rfl
      exact ⟨k + n, s.after_add sched k n ▸ ended⟩

end Station

open Station in
/-- A heartbeat pass under a clock that stands still, whatever is stored and on the book, and in
whatever order the runners of its pool take turns with it. If it is over it counted the claims
that are held, dropped the others once each and cancelled their tokens, took back the
overdue claims but for those that it refreshed, and changed nothing else (`Pulsed`). In a fair
schedule it gets there. -/
theorem pass_exact {s : Station} (reached : s.Reached) (start : s.pass = .start) {now : Instant}
    (clock : s.site.clock = .manual now) :
    (∀ ts result, (s.turns ts).pass.result? = some result →
      ∃ pulse, result = .ok pulse ∧ s.Pulsed now pulse (s.turns ts) ∧ pulse.lost.Nodup ∧
        ∀ e ∈ s.claims.entries, s.store.held e.1 e.2.worker = true → e.1 ∉ pulse.reclaimed) ∧
      ∀ sched, Fair sched → ∃ n, (s.after sched n).pass.result?.isSome = true := by
  have sound := reached.sound
  refine ⟨fun ts result ended => ?_, fun sched fair => sound.gets_done fair⟩
  have done : (s.turns ts).pass = .done result := by
    cases pass : (s.turns ts).pass with
    | done result' =>
      rw [pass] at ended
      rw [Option.some.inj ended]
    | _ => rw [pass] at ended; cases ended
  obtain ⟨pulse, ok, pulsed⟩ := (sound.course start clock ts).result done
  refine ⟨pulse, ok, pulsed, ?_, fun e mem held taken => ?_⟩
  · refine pulsed.lost.nodup_iff.mpr ?_
    exact (List.filter_sublist.map _).nodup sound.keyed
  · have none := pulsed.unlisted sound.distinct taken
    have listed : (e.1, e.2) ∈ (s.turns ts).claims.entries := pulsed.book ▸ List.mem_filter.mpr ⟨mem, held⟩
    exact absurd (none.symm.trans ((reached.turns ts).sound.keyed.get?_of_mem listed)) nofun

/-! ## A book and a store that overlap -/

namespace Overlapping

def minute : Instant := (Instant.ofMillis? 60000).getD .epoch

def claimed (id : Nat) (owner : String) (beat : Instant) : Message :=
  { Message.blank ⟨id⟩ with status := .working, owner := some ⟨owner⟩, heartbeatAt := some beat, version := 1 }

/-- Two claims that have been silent for a minute, one just heard of, and a message that waits. -/
def store : Store where
  entries := [⟨claimed 0 "worker" .epoch, 0⟩, ⟨claimed 1 "stranger" .epoch, 1⟩, ⟨claimed 2 "stranger" minute, 2⟩,
    ⟨.blank ⟨3⟩, 3⟩]
  nextSeq := 4

/-- The first claim is held here, the second one no more, and the third message of the book is gone. -/
def book : ClaimBook := ⟨[(⟨0⟩, ⟨⟨"worker"⟩, ⟨0⟩⟩), (⟨1⟩, ⟨⟨"worker"⟩, ⟨1⟩⟩), (⟨4⟩, ⟨⟨"worker"⟩, ⟨2⟩⟩)]⟩

def site : Site := { (Engine.blank {} fun _ => []).site with backend := { name := "jobs", store }, clock := .manual minute }

def station : Station := .fresh { heartbeat := { time := .ofMillis 1000 } } {} book { next := 3 } site

theorem admits : Station.Admits book site where
  settled := ⟨⟨rfl, fun _ _ => nofun⟩, Policies.get_withDefaults Policies.empty {}⟩
  distinct := by unfold Store.Distinct; decide +kernel
  keyed := by unfold ClaimBook.Keyed; decide +kernel
  few := by decide

/-- The pass and its first runner, one after the other. -/
def turns : List Station.Turn := (List.replicate 40 [.pass, .runner 0]).flatten

/-- Every turn comes again and again. -/
def schedule (n : Nat) : Station.Turn :=
  match n.unpair.1 with
  | 0 => .pass
  | 1 => .tick
  | i + 2 => .runner i

theorem fair : Station.Fair schedule := by
  intro t n
  obtain ⟨code, turn⟩ : ∃ code : Nat, schedule (code.pair n) = t := by
    cases t with
    | pass => exact ⟨0, by simp [schedule]⟩
    | tick => exact ⟨1, by simp [schedule]⟩
    | runner i => exact ⟨i + 2, by simp [schedule]⟩
  exact ⟨code.pair n, Nat.right_le_pair code n, turn⟩

end Overlapping

/-- The claim held here is refreshed, however silent it was; the two others are lost, and one of them is
taken back from its new owner. -/
theorem pass_exact_overlapping :
    let s := Overlapping.station
    s.Reached ∧ s.pass = .start ∧ s.site.clock = .manual Overlapping.minute ∧
      (∃ pulse, (s.turns Overlapping.turns).pass.result? = some (.ok pulse) ∧
        s.Pulsed Overlapping.minute pulse (s.turns Overlapping.turns) ∧
        pulse.refreshed = 1 ∧ pulse.lost = [⟨1⟩, ⟨4⟩] ∧ pulse.reclaimed = [⟨1⟩]) ∧
      Station.Fair Overlapping.schedule ∧ ∃ n, (s.after Overlapping.schedule n).pass.result?.isSome = true := by
  intro s
  have reached : s.Reached := .fresh _ _ _ _ _ Overlapping.admits
  obtain ⟨exact_, done⟩ := pass_exact reached rfl rfl
  have told : ((s.turns Overlapping.turns).pass.result?.bind (·.toOption)).map
      (fun pulse => (pulse.refreshed, pulse.lost, pulse.reclaimed)) = some (1, [⟨1⟩, ⟨4⟩], [⟨1⟩]) := by
    decide +kernel
  refine ⟨reached, rfl, rfl, ?_, Overlapping.fair, done _ Overlapping.fair⟩
  cases result : (s.turns Overlapping.turns).pass.result? with
  | none => rw [result] at told; cases told
  | some result' =>
    obtain ⟨pulse, rfl, pulsed, _⟩ := exact_ _ _ result
    rw [result] at told
    simp only [Except.toOption, Option.bind_some, Option.map_some, Option.some.injEq, Prod.mk.injEq] at told
    exact ⟨pulse, rfl, pulsed, told⟩

end ClaimQueue
