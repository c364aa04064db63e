/-
  ClaimQueue.Proofs.Upkeep.Station — a heartbeat pass, and the runners of its pool.

  At a station nobody works. The pass makes its steps, the runners make theirs and time goes
  by, in any order (`Turn`); when a pass is over, anything may have happened to the store, the
  book and the tokens before the next one, while the runners stay what they are (`Reached`).

  What holds at all times: the runners are numbered as they were hired, just those at the
  channel stand in line, and together with the callers that submitted the jobs they are a
  sound floor (`Attended`). So the pool never counts wrong, and for every report that the pass
  waits for there is a job under way (`Sound`).
-/

import ClaimQueue.Proofs.Crew.Accounts
import ClaimQueue.Proofs.Upkeep.Floor

namespace ClaimQueue

structure Station where
  pass : Pass
  crew : Crew
  site : Site

namespace Station

inductive Turn where
  | pass
  | runner (i : Nat)
  /-- A millisecond goes by. -/
  | tick
  deriving DecidableEq, Repr

def scene (s : Station) : Scene := ⟨s.site, s.crew.desk⟩

def turn (s : Station) : Turn → Station
  | .pass =>
    let (pass, scene) := s.pass.step s.scene
    ⟨pass, { s.crew with desk := scene.desk }.muster, scene.site⟩
  | .runner i =>
    let (crew, site) := s.crew.move s.site (.runner i)
    { s with crew := crew.muster, site }
  | .tick => { s with site := { s.site with time := s.site.time + 1 } }

def turns (s : Station) (ts : List Turn) : Station := ts.foldl turn s

/-- A station at which no pass was made yet. -/
def fresh (config : QueueConfig) (filter : ClaimFilter) (claims : ClaimBook) (tokens : Tokens) (site : Site) : Station where
  pass := .start
  crew := { desk := { Desk.ofConfig config filter with claims, tokens } }
  site

/-- The next pass, whatever became of the store, the book and the tokens. -/
def again (s : Station) (claims : ClaimBook) (tokens : Tokens) (site : Site) : Station where
  pass := .start
  crew := { s.crew with desk := { s.crew.desk with claims, tokens } }
  site

/-- A store and a book as they can be: no id is there twice, and the claims can be counted. -/
structure Admits (claims : ClaimBook) (site : Site) : Prop where
  settled : site.Settled
  distinct : site.store.Distinct
  keyed : claims.Keyed
  few : claims.size < 2 ^ 64

/-- The stations that passes, one after the other, lead to. -/
inductive Reached : Station → Prop
  | fresh (config : QueueConfig) (filter : ClaimFilter) (claims : ClaimBook) (tokens : Tokens) (site : Site) :
      Admits claims site → Reached (.fresh config filter claims tokens site)
  | turn (s : Station) (t : Turn) : Reached s → Reached (s.turn t)
  | again (s : Station) (claims : ClaimBook) (tokens : Tokens) (site : Site) : Reached s → s.pass.result?.isSome = true →
      Admits claims site → Reached (s.again claims tokens site)

/-- The crew as if its heartbeat monitor made the pass. -/
def manned (s : Station) : Crew := { s.crew with monitors := [⟨.heartbeat, .passing (.heartbeat s.pass)⟩] }

end Station

/-! ## The floor of a pass -/

/-- The job that is being submitted. -/
def Pass.caller : Pass → List Party
  | .refreshing (.submitting job submit _ _) => [.caller job submit]
  | _ => []

/-- Is the runner at the channel? -/
def Runner.isLined (r : Runner) : Bool :=
  match r.stage with
  | .lined => true
  | .receiving _ => true
  | _ => false

/-- The pool with its runners, while the callers submit. -/
structure Attended (p : Pool) (runners : List Runner) (callers : List Party) : Prop where
  numbered : runners.map (·.number) = List.range p.hired
  line : ∀ n, n ∈ p.line ↔ (runners[n]?).any (·.isLined) = true
  floor : ∃ config past begun, (∀ a ∈ past, ∃ job, a = .caller job (.done false)) ∧
    Floor.Sound config ⟨p, past ++ runners.map .runner ++ callers, begun⟩

namespace Floor.Sound

variable {config : PoolConfig} {f : Floor}

theorem perm (sound : f.Sound config) {ps : List Party} (perm : f.parties.Perm ps) :
    Sound config { f with parties := ps } := by
  have sum : ∀ g, Party.total g ps = Party.total g f.parties := fun g => (perm.map g).sum_eq.symm
  refine ⟨sound.setup, sound.isOpen, sound.live.trans (sum _).symm, sound.busy.trans (sum _).symm, ?_, sound.within,
    fun a mem => sound.fits a (perm.mem_iff.mpr mem), ?_, ?_⟩
  · rw [underway, sum]
    exact sound.queued
  · intro job
    rw [sum, sum]
    exact sound.jobs job
  · intro empty left
    obtain ⟨a, mem, hopeful⟩ := sound.hope empty left
    exact ⟨a, perm.mem_iff.mp mem, hopeful⟩

/-- Nobody counts on the reports, the line or who was hired. -/
theorem of_tally (sound : f.Sound config) {p : Pool} (same : p.tally = f.pool.tally) :
    Sound config { f with pool := p } := by
  simp only [Pool.tally, Prod.mk.injEq] at same
  obtain ⟨setup, closed, live, busy, queued, channel⟩ := same
  refine ⟨setup.trans sound.setup, closed.trans sound.isOpen, ?_, ?_, ?_, ?_, sound.fits, ?_, ?_⟩
  · exact (congrArg UInt64.toNat live).trans sound.live
  · exact (congrArg UInt64.toNat busy).trans sound.busy
  · refine (congrArg UInt64.toNat queued).trans (sound.queued.trans ?_)
    rw [underway, underway, channel]
  · exact live ▸ sound.within
  · exact channel ▸ sound.jobs
  · intro empty left
    exact sound.hope (live.symm.trans empty) (queued ▸ left)

end Floor.Sound

namespace Attended

variable {p p' : Pool} {runners : List Runner} {callers : List Party}

theorem fresh (config : PoolConfig) : Attended { config } [] [] :=
  ⟨rfl, fun n => by simp, config, [], [], fun _ => nofun, .start⟩

theorem length (attended : Attended p runners callers) : runners.length = p.hired := by
  simpa using congrArg List.length attended.numbered

/-- The pool counts as before. -/
theorem same (attended : Attended p runners callers) (tally : p'.tally = p.tally) (hired : p'.hired = p.hired)
    (line : p'.line = p.line) : Attended p' runners callers := by
  obtain ⟨numbered, lined, config, past, begun, gone, sound⟩ := attended
  exact ⟨hired ▸ numbered, line ▸ lined, config, past, begun, gone, sound.of_tally tally⟩

/-- Somebody is about to submit a job. -/
theorem calls (attended : Attended p runners []) (job : Job) : Attended p runners [.caller job .announcing] := by
  obtain ⟨numbered, line, config, past, begun, gone, sound⟩ := attended
  rw [List.append_nil] at sound
  refine ⟨numbered, line, config, past, begun, gone, sound.turn (.submit job) ?_⟩
  -- nothing is announced yet
  have same : Party.total Party.ahead (past ++ runners.map .runner ++ [.caller job .announcing]) =
      Party.total Party.ahead (past ++ runners.map .runner) := Party.total_append _ _ [.caller job .announcing]
  have counted := sound.queued
  have small := p.queued.toNat_lt
  unfold Floor.underway at counted ⊢
  simp only [Floor.turn, same] at counted ⊢
  omega

/-- Who has submitted its job stays out of it. -/
theorem leaves {job : Job} (attended : Attended p runners [.caller job (.done false)]) : Attended p runners [] := by
  obtain ⟨numbered, line, config, past, begun, gone, sound⟩ := attended
  refine ⟨numbered, line, config, past ++ [.caller job (.done false)], begun, ?_, sound.perm ?_⟩
  · intro a mem
    rcases List.mem_append.mp mem with mem | mem
    · exact gone a mem
    · exact ⟨job, List.mem_singleton.mp mem⟩
  · rw [List.append_nil, List.append_assoc, List.append_assoc]
    exact List.perm_append_comm.append_left _

/-- The runner that comes with a step of whoever submits. -/
def hires (p : Pool) : Submit → List Runner
  | .done true => [{ number := p.hired }]
  | _ => []

/-- To submit a job is no matter of the line; a runner is hired in the last step only. -/
theorem caller_line (p : Pool) (s : Scene) (job : Job) (submit : Submit) :
    ((Party.caller job submit).step p s).2.line = p.line ∧
      ((Party.caller job submit).step p s).2.hired = p.hired + (hires p submit).length ∧
      (Party.caller job submit).hires p = (hires p submit).map .runner := by
  cases submit with
  | done start => cases start <;> exact ⟨rfl, rfl, rfl⟩
  | announcing => exact ⟨rfl, rfl, rfl⟩
  | sending => exact ⟨rfl, rfl, rfl⟩
  | growing reserve =>
    cases reserve with
    | readQueued live idle =>
      simp only [Party.step, Submit.step, Reserve.step]
      split <;> exact ⟨rfl, rfl, rfl⟩
    | swap live =>
      simp only [Party.step, Submit.step, Reserve.step]
      split <;> exact ⟨rfl, rfl, rfl⟩
    | _ => exact ⟨rfl, rfl, rfl⟩

theorem hires_cases (p : Pool) (submit : Submit) : hires p submit = [] ∨ hires p submit = [{ number := p.hired }] := by
  unfold hires
  split
  · exact Or.inr rfl
  · exact Or.inl rfl

/-- A step of whoever submits; the runner that was hired for it is there at once. -/
theorem caller {job : Job} {submit : Submit} (attended : Attended p runners [.caller job submit])
    (room : submit = .announcing → p.queued.toNat + 1 < 2 ^ 64) (s : Scene) :
    Attended ((Party.caller job submit).step p s).2 (runners ++ hires p submit)
      [((Party.caller job submit).step p s).1] := by
  obtain ⟨numbered, line, config, past, begun, gone, sound⟩ := attended
  let parties := past ++ runners.map Party.runner
  have last : (parties ++ [.caller job submit])[parties.length]? = some (.caller job submit) := by simp
  have mem := List.mem_of_getElem? last
  have shift := Party.caller_shift (s := s) (sound.setup ▸ sound.fits _ mem) (sound.setup ▸ sound.within) room
  have sound' : Floor.Sound config ⟨_, _, _⟩ := sound.shift last shift (Party.hires_fresh _ p) rfl rfl
  obtain ⟨sameLine, hired, new⟩ := caller_line p s job submit
  refine ⟨?_, ?_, config, past, _, gone, sound'.perm ?_⟩
  · rw [hired, List.map_append, numbered]
    rcases hires_cases p submit with none | one
    · simp [none]
    · simp [one, List.range_succ]
  · intro n
    rw [sameLine, line n]
    rcases hires_cases p submit with none | one
    · rw [none, List.append_nil]
    · rw [one, List.getElem?_append]
      split
      · rfl
      · rename_i beyond
        -- the runner that is new is not at the channel yet
        have none : runners[n]? = none := List.getElem?_eq_none (Nat.not_lt.mp beyond)
        rw [none, List.getElem?_singleton]
        split <;> rfl
  · have changed : (parties ++ [Party.caller job submit]).set parties.length ((Party.caller job submit).step p s).1 =
        parties ++ [((Party.caller job submit).step p s).1] := by simp
    rw [new, changed, List.map_append, List.append_assoc, ← List.append_assoc past]
    rw [List.append_assoc parties]
    exact List.perm_append_comm.append_left _

theorem number (attended : Attended p runners callers) {i : Nat} {r : Runner} (found : runners[i]? = some r) :
    r.number = i := by
  have listed : (runners.map (·.number))[i]? = some r.number := by simp [found]
  rw [attended.numbered] at listed
  obtain ⟨lt, same⟩ := List.getElem?_eq_some_iff.mp listed
  simpa using same.symm

end Attended

namespace Runner

/-- What a step has to do with the line. -/
inductive Lines (r r' : Runner) (p p' : Pool) : Prop
  | stays : r'.isLined = r.isLined → p'.line = p.line → Lines r r' p p'
  | joins : r.isLined = false → r'.isLined = true → p'.line = p.line ++ [r.number] → Lines r r' p p'
  | leaves : r.isLined = true → r'.isLined = false → p'.line = p.line.filter (· != r.number) → Lines r r' p p'

theorem step_line (r : Runner) (s : Scene) :
    Lines r (r.step s).1 s.desk.pool (r.step s).2.desk.pool ∧ (r.step s).1.number = r.number ∧
      (r.step s).2.desk.pool.hired = s.desk.pool.hired := by
  obtain ⟨number, stage⟩ := r
  cases stage with
  | arriving => exact ⟨.joins rfl rfl rfl, rfl, rfl⟩
  | lined =>
    simp only [step]
    split <;> exact ⟨.stays rfl rfl, rfl, rfl⟩
  | receiving wake =>
    simp only [step]
    split
    · exact ⟨.leaves rfl rfl rfl, rfl, rfl⟩
    · split
      · exact ⟨.leaves rfl rfl rfl, rfl, rfl⟩
      · split
        · exact ⟨.leaves rfl rfl rfl, rfl, rfl⟩
        · exact ⟨.stays rfl rfl, rfl, rfl⟩
  | took job => exact ⟨.stays rfl rfl, rfl, rfl⟩
  | counted job => exact ⟨.stays rfl rfl, rfl, rfl⟩
  | working job call => cases call <;> exact ⟨.stays rfl rfl, rfl, rfl⟩
  | finishing => exact ⟨.stays rfl rfl, rfl, rfl⟩
  | retiring =>
    simp only [step, Pool.retire]
    split <;> exact ⟨.stays rfl rfl, rfl, rfl⟩
  | reserving reserve =>
    cases reserve with
    | done taken => cases taken <;> exact ⟨.stays rfl rfl, rfl, rfl⟩
    | readQueued live idle =>
      simp only [step, Reserve.step]
      split <;> exact ⟨.stays rfl rfl, rfl, rfl⟩
    | swap live =>
      simp only [step, Reserve.step]
      split <;> exact ⟨.stays rfl rfl, rfl, rfl⟩
    | _ => exact ⟨.stays rfl rfl, rfl, rfl⟩
  | closing => exact ⟨.stays rfl rfl, rfl, rfl⟩
  | gone => exact ⟨.stays rfl rfl, rfl, rfl⟩

end Runner

namespace Attended

variable {runners : List Runner} {callers : List Party} {s : Scene} {r : Runner} {i : Nat}

/-- A step of a runner. -/
theorem runner (attended : Attended s.desk.pool runners callers) (found : runners[i]? = some r) :
    Attended (r.step s).2.desk.pool (runners.set i (r.step s).1) callers := by
  have own := attended.number found
  obtain ⟨numbered, line, config, past, begun, gone, sound⟩ := attended
  obtain ⟨lines, number, hired⟩ := r.step_line s
  obtain ⟨lt, _⟩ := List.getElem?_eq_some_iff.mp found
  obtain ⟨before, after, split, changed⟩ := Crew.set_split found (r.step s).1
  refine ⟨?_, ?_, config, past, begun ++ (Party.runner r).begins, gone, ?_⟩
  · rw [changed, hired, ← numbered, split]
    simp [number]
  · intro n
    rw [List.getElem?_set]
    by_cases same : i = n
    · subst same
      have before := line i
      rw [found] at before
      rw [if_pos rfl, if_pos lt]
      cases lines with
      | stays lined kept => rw [kept, before, Option.any_some, Option.any_some, lined]
      | joins _ lined joined => simp [joined, own, lined]
      | leaves _ lined left => simp [left, own, lined]
    · rw [if_neg same, ← line n]
      cases lines with
      | stays _ kept => rw [kept]
      | joins _ _ joined => simp [joined, own, Ne.symm same]
      | leaves _ _ left => simp [left, own, Ne.symm same]
  · let first := past ++ before.map Party.runner
    let last := after.map Party.runner ++ callers
    have parties : past ++ runners.map Party.runner ++ callers = first ++ .runner r :: last := by simp [split, first, last]
    have parties' : past ++ (runners.set i (r.step s).1).map Party.runner ++ callers =
        first ++ .runner (r.step s).1 :: last := by simp [changed, first, last]
    rw [parties] at sound
    rw [parties']
    have there : (first ++ .runner r :: last)[first.length]? = some (.runner r) := by simp
    have shift := sound.runner_shift (List.mem_of_getElem? there) s
    refine sound.shift there shift nofun ?_ rfl
    simp
    rfl

/-- Whoever has more jobs to submit goes on with the next one. -/
theorem submits {p : Pool} (attended : Attended p runners []) (jobs : List Job) (count : Nat) :
    Attended p runners (Pass.refreshing (.submit jobs count)).caller := by
  cases jobs with
  | nil => exact attended
  | cons job rest => exact attended.calls job

/-- A job counts as queued until a runner counts it off, and no job but these. -/
theorem queued_le {p : Pool} {job : Job} (attended : Attended p runners [.caller job .announcing]) :
    p.queued.toNat ≤ p.channel.length + (runners.flatMap (·.waiting)).length := by
  obtain ⟨_, _, config, past, begun, gone, sound⟩ := attended
  have none : Party.total Party.ahead past = 0 := by
    refine List.sum_eq_zero fun n mem => ?_
    obtain ⟨a, old, rfl⟩ := List.mem_map.mp mem
    obtain ⟨job, rfl⟩ := gone a old
    rfl
  have few : Party.total Party.ahead (runners.map .runner) ≤ (runners.flatMap (·.waiting)).length := by
    rw [List.length_flatMap, Party.total, List.map_map]
    refine List.sum_le_sum fun r _ => ?_
    obtain ⟨number, stage⟩ := r
    cases stage <;> first | exact Nat.le_refl _ | exact Nat.zero_le _
  rw [sound.queued, Floor.underway, Party.total_append, Party.total_append, none]
  have last : Party.total Party.ahead [.caller job .announcing] = 0 := rfl
  show 0 + Party.total Party.ahead (runners.map .runner) + _ + p.channel.length ≤ _
  omega

end Attended

/-! ## Steps of the pass -/

/-- A step of the pass at the pool; a runner comes with it at most. -/
theorem Pass.step_attended {pass : Pass} {runners : List Runner} {s : Scene}
    (attended : Attended s.desk.pool runners pass.caller)
    (room : ∀ job, pass.caller = [.caller job .announcing] → s.desk.pool.queued.toNat + 1 < 2 ^ 64) :
    ∃ new, Attended (pass.step s).2.desk.pool (runners ++ new) (pass.step s).1.caller ∧
      (new = [] ∨ new = [{ number := s.desk.pool.hired }]) := by
  -- nobody submits, and the pool counts as before
  have rests : ∀ {p : Pool} {callers : List Party}, pass.caller = [] → callers = [] → p.tally = s.desk.pool.tally →
      p.hired = s.desk.pool.hired → p.line = s.desk.pool.line →
      ∃ new, Attended p (runners ++ new) callers ∧ (new = [] ∨ new = [{ number := s.desk.pool.hired }]) := by
    rintro p _ free rfl tally hired line
    rw [free] at attended
    exact ⟨[], by simpa using attended.same tally hired line, Or.inl rfl⟩
  cases pass with
  | done result => exact rests rfl rfl rfl rfl rfl
  | reclaiming refreshed lost reclaim =>
    cases reclaim with
    | done result => exact rests rfl rfl rfl rfl rfl
    | scanning call =>
      cases call with
      | done result => cases result <;> exact rests rfl rfl rfl rfl rfl
      | _ => exact rests rfl rfl rfl rfl rfl
    | revoking reclaimed rest =>
      cases rest with
      | nil => exact rests rfl rfl rfl rfl rfl
      | cons id rest =>
        have pool : (Reclaim.revoke s id).desk.pool = s.desk.pool := by rw [Reclaim.revoke_desk]
        exact rests rfl rfl (congrArg Pool.tally pool) (congrArg Pool.hired pool) (congrArg Pool.line pool)
  | refreshing refresh =>
    cases refresh with
    | done refreshed lost => exact rests rfl rfl rfl rfl rfl
    | starting =>
      refine ⟨[], ?_, Or.inl rfl⟩
      rw [List.append_nil]
      simp only [step, Refresh.step]
      split
      · exact attended
      · exact attended.submits _ 0
    | collecting left refreshed lost =>
      cases left with
      | zero => exact rests rfl rfl rfl rfl rfl
      | succ left =>
        cases reports : s.desk.pool.reports with
        | nil =>
          simp only [step, Refresh.step, reports]
          exact rests rfl rfl rfl rfl rfl
        | cons r rest =>
          simp only [step, Refresh.step, reports, Refresh.settle]
          split <;> exact rests rfl rfl rfl rfl rfl
    | submitting job stage rest count =>
      have moved := Attended.caller attended (fun announcing => room job (by rw [announcing]; rfl)) s
      refine ⟨_, ?_, Attended.hires_cases s.desk.pool stage⟩
      cases stage with
      | done start =>
        cases start with
        | true => exact moved.leaves.submits rest count
        | false => exact moved.leaves.submits rest count
      | _ => exact moved

namespace Crew

theorem muster_hires {c : Crew} {new : List Runner} (hired : (c.runners ++ new).length = c.desk.pool.hired)
    (fresh : new = [] ∨ new = [{ number := c.runners.length }]) : c.muster = { c with runners := c.runners ++ new } := by
  unfold muster
  rw [← hired]
  rcases fresh with rfl | rfl
  · simp
  · simp [List.range'_one]

theorem muster_same {c : Crew} (hired : c.runners.length = c.desk.pool.hired) : c.muster = c := by
  simp [muster, hired]

end Crew

/-! ## Turns -/

namespace Station

variable {s : Station} {t : Turn}

/-- What holds of a station at all times. -/
structure Sound (s : Station) : Prop extends Admits s.crew.desk.claims s.site where
  balanced : s.manned.Balanced
  counted : s.pass.tending.due < 2 ^ 64
  attended : Attended s.crew.desk.pool s.crew.runners s.pass.caller

/-- A turn that is not the clock's is a step of the crew. -/
structure Tends (s s' : Station) (asked : Option Asked) : Prop where
  tends : Crew.Tends s.manned s'.manned s.site asked
  site : s.site.Leads asked s'.site
  config : s'.crew.desk.config = s.crew.desk.config

theorem manned_tending (s : Station) : s.manned.tending = s.pass.tending := rfl

theorem manned_staffed (s : Station) : s.manned.Staffed := by
  refine ⟨List.nodup_singleton _, fun m mem => Or.inr ?_⟩
  cases List.mem_singleton.mp mem
  rfl

theorem pass_tends (settled : s.site.Settled) : ∃ asked, Tends s (s.turn .pass) asked := by
  obtain ⟨asked, step⟩ := Pass.step_moves (s := s.scene) settled s.pass
  let c' : Crew := { s.manned with
    desk := (s.pass.step s.scene).2.desk
    monitors := [⟨.heartbeat, .passing (.heartbeat (s.pass.step s.scene).1)⟩] }
  have moves : Tending.Moves s.manned.tending c'.tending ⟨s.site, s.manned.desk⟩ ⟨(s.turn .pass).site, c'.desk⟩ asked :=
    step.moves
  rcases Crew.tends_of_heartbeat moves rfl with tends | ⟨⟨idle, idle'⟩, _⟩
  · exact ⟨asked, tends, step.site, step.config⟩
  · -- a pass that is over does nothing any more
    have still : (s.pass.step s.scene).2 = s.scene := by
      have idle : s.pass.tending = .idle := idle
      cases pass : s.pass with
      | done result => rfl
      | refreshing refresh => rw [pass] at idle; cases refresh <;> cases idle
      | reclaiming refreshed lost reclaim =>
        rw [pass] at idle
        cases reclaim with
        | done result => rfl
        | revoking reclaimed rest => cases idle
        | scanning call =>
          cases call with
          | done result => cases result <;> cases idle
          | _ => cases idle
    have desk : (s.pass.step s.scene).2.desk = s.crew.desk := congrArg Scene.desk still
    have site : (s.pass.step s.scene).2.site = s.site := congrArg Scene.site still
    refine ⟨none, ?_, ?_, congrArg Desk.config desk⟩
    · have jobs : Crew.SameJobs s.manned c'.muster := Crew.sameJobs_desk desk rfl
      have book : Crew.SameBook s.manned c'.muster := Crew.sameBook_desk desk
      exact .stays (idle'.trans idle.symm) jobs book
    · show s.site.Leads none (s.pass.step s.scene).2.site
      rw [site]
      exact settled.refl

theorem runner_tends (settled : s.site.Settled) (i : Nat) : ∃ asked, Tends s (s.turn (.runner i)) asked := by
  obtain ⟨asked, step, tends⟩ := Crew.step_runner (c := s.manned) settled s.manned_staffed i
  have same : ((s.manned.move s.site (.runner i)).1.muster, (s.manned.move s.site (.runner i)).2) =
      ((s.turn (.runner i)).manned, (s.turn (.runner i)).site) := by
    have runners : s.manned.runners = s.crew.runners := rfl
    simp only [turn, Crew.move, runners]
    cases s.crew.runners[i]? <;> rfl
  simp only [Prod.mk.injEq] at same
  rw [same.1, same.2] at step
  rw [same.1] at tends
  exact ⟨asked, tends, step.site, step.config⟩

/-- The book does not grow, and no more reports become due than it has claims. -/
theorem Tends.counted {s' : Station} {asked : Option Asked} (tends : Tends s s' asked)
    (few : s.crew.desk.claims.size < 2 ^ 64) (counted : s.pass.tending.due < 2 ^ 64) :
    s'.crew.desk.claims.size < 2 ^ 64 ∧ s'.pass.tending.due < 2 ^ 64 := by
  constructor
  · have without : ∀ id, (s.crew.desk.claims.without id).size ≤ s.crew.desk.claims.size := fun id =>
      List.length_filter_le _ _
    have claims : ∀ {b : ClaimBook}, s'.crew.desk.claims = b → b.size ≤ s.crew.desk.claims.size →
        s'.crew.desk.claims.size < 2 ^ 64 := fun same le => same ▸ Nat.lt_of_le_of_lt le few
    rcases tends.tends.book with ⟨same, _⟩ | ⟨r, _, _, same, _⟩ | ⟨id, _, _, _, same, _⟩
    · exact claims same (Nat.le_refl _)
    · refine claims same ?_
      rcases s.crew.desk.claims.remove_cases r.job.id r.job.holding.worker with ⟨_, _, _, e⟩ | ⟨_, e⟩
      · exact e ▸ without r.job.id
      · exact e ▸ Nat.le_refl _
    · refine claims same ?_
      rcases s.crew.desk.claims.revoke_cases id with ⟨_, _, e⟩ | ⟨_, e⟩
      · exact e ▸ without id
      · exact e ▸ Nat.le_refl _
  · have before : ∀ {t : Tending}, s.manned.tending = t → t.due < 2 ^ 64 := fun same => same ▸ counted
    show s'.manned.tending.due < 2 ^ 64
    cases tends.tends with
    | stays same => exact same ▸ counted
    | serves _ same => exact same ▸ counted
    | turns turned =>
      rcases turned with ⟨_, after⟩ | ⟨_, after⟩
      · exact after ▸ Nat.two_pow_pos 64
      · exact after ▸ Nat.two_pow_pos 64
    | takes _ after =>
      rw [after]
      split
      · exact Nat.two_pow_pos 64
      · show s.crew.desk.claims.jobs.length < 2 ^ 64
        rw [ClaimBook.jobs, List.length_map]
        exact few
    | sends job rest due started after => exact after ▸ (before started : due < 2 ^ 64)
    | looks r left started after => exact after ▸ Nat.lt_of_succ_lt (before started)
    | drops r left started after => exact after ▸ Nat.lt_of_succ_lt (before started)
    | completes _ after => exact after ▸ Nat.two_pow_pos 64
    | scans ids _ after => exact after ▸ Nat.two_pow_pos 64
    | revokes id rest _ after => exact after ▸ Nat.two_pow_pos 64

/-- The pool has room for a job that is about to be announced. -/
theorem Sound.room (sound : s.Sound) {job : Job} (announcing : s.pass.caller = [.caller job .announcing]) :
    s.crew.desk.pool.queued.toNat + 1 < 2 ^ 64 := by
  have attended := sound.attended
  rw [announcing] at attended
  have queued := attended.queued_le
  have balanced := sound.balanced
  have counted := sound.counted
  unfold Crew.Balanced at balanced
  rw [Crew.length_jobs, manned_tending] at balanced
  have unsent : 0 < s.pass.tending.unsent.length := by
    cases pass : s.pass with
    | refreshing refresh =>
      rw [pass] at announcing
      cases refresh with
      | submitting job stage rest count =>
        cases announcing
        exact Nat.succ_pos _
      | _ => cases announcing
    | _ => rw [pass] at announcing; cases announcing
  have waiting : s.manned.waiting.length =
      s.crew.desk.pool.channel.length + (s.crew.runners.flatMap (·.waiting)).length := List.length_append
  omega

/-- What the members do at the desk is settled by `Tends`; the pool is the other half. -/
theorem Sound.tends {s' : Station} {asked : Option Asked} (sound : s.Sound) (tends : Tends s s' asked)
    (attended : Attended s'.crew.desk.pool s'.crew.runners s'.pass.caller) : s'.Sound := by
  obtain ⟨few, counted⟩ := tends.counted sound.few sound.counted
  have distinct : s'.site.store.Distinct := by
    rw [tends.site.store]
    exact Store.distinct_after sound.distinct asked
  exact ⟨⟨tends.site.settled, distinct, tends.tends.keyed sound.keyed, few⟩, sound.balanced.tends tends.tends, counted,
    attended⟩

/-- A step of the pass; a runner comes with it at most. -/
theorem Sound.turn_pass (sound : s.Sound) : ∃ new, (new = [] ∨ new = [{ number := s.crew.runners.length }]) ∧
    s.turn .pass = ⟨(s.pass.step s.scene).1,
      { s.crew with desk := (s.pass.step s.scene).2.desk, runners := s.crew.runners ++ new },
      (s.pass.step s.scene).2.site⟩ ∧ Attended (s.pass.step s.scene).2.desk.pool (s.crew.runners ++ new)
        (s.pass.step s.scene).1.caller := by
  obtain ⟨new, attended, fresh⟩ := Pass.step_attended (s := s.scene) sound.attended fun job => sound.room
  have all : s.scene.desk.pool.hired = s.crew.runners.length := sound.attended.length.symm
  rw [all] at fresh
  have mustered := Crew.muster_hires (c := { s.crew with desk := (s.pass.step s.scene).2.desk }) attended.length fresh
  refine ⟨new, fresh, ?_, attended⟩
  show Station.mk (s.pass.step s.scene).1 ({ s.crew with desk := (s.pass.step s.scene).2.desk } : Crew).muster
    (s.pass.step s.scene).2.site = _
  rw [mustered]

/-- A step of a runner that is there. -/
theorem Sound.turn_runner (sound : s.Sound) {i : Nat} {r : Runner} (found : s.crew.runners[i]? = some r) :
    s.turn (.runner i) = ⟨s.pass,
      { s.crew with desk := (r.step s.scene).2.desk, runners := s.crew.runners.set i (r.step s.scene).1 },
      (r.step s.scene).2.site⟩ := by
  have attended := Attended.runner (s := s.scene) sound.attended found
  have mustered := Crew.muster_same
    (c := { s.crew with desk := (r.step s.scene).2.desk, runners := s.crew.runners.set i (r.step s.scene).1 })
    attended.length
  have moved : s.crew.move s.site (.runner i) =
      ({ s.crew with desk := (r.step s.scene).2.desk, runners := s.crew.runners.set i (r.step s.scene).1 },
        (r.step s.scene).2.site) := by
    simp only [Crew.move, found]
    rfl
  simp only [turn, moved, mustered]

theorem Sound.turn_nobody (sound : s.Sound) {i : Nat} (none : s.crew.runners[i]? = none) : s.turn (.runner i) = s := by
  have mustered := Crew.muster_same sound.attended.length
  simp only [turn, Crew.move, none, mustered]

theorem Sound.turn (sound : s.Sound) (t : Turn) : (s.turn t).Sound := by
  cases t with
  | tick =>
    have settled : (s.turn .tick).site.Settled :=
      ⟨⟨sound.settled.reached, sound.settled.faultless⟩, sound.settled.policy⟩
    exact ⟨⟨settled, sound.distinct, sound.keyed, sound.few⟩, sound.balanced, sound.counted, sound.attended⟩
  | pass =>
    obtain ⟨asked, tends⟩ := s.pass_tends sound.settled
    obtain ⟨new, _, moved, attended⟩ := sound.turn_pass
    exact sound.tends tends (moved ▸ attended)
  | runner i =>
    obtain ⟨asked, tends⟩ := s.runner_tends sound.settled i
    cases found : s.crew.runners[i]? with
    | none =>
      rw [sound.turn_nobody found]
      exact sound
    | some r =>
      refine sound.tends tends ?_
      rw [sound.turn_runner found]
      exact Attended.runner (s := s.scene) sound.attended found

theorem Reached.sound (reached : s.Reached) : s.Sound := by
  induction reached with
  | fresh config filter claims tokens site admits =>
    exact ⟨admits, rfl, Nat.two_pow_pos 64, .fresh config.heartbeat.pool⟩
  | turn s t _ sound => exact sound.turn t
  | again s claims tokens site _ ended admits sound =>
    obtain ⟨result, ended⟩ : ∃ result, s.pass = .done result := by
      cases pass : s.pass with
      | done result => exact ⟨result, rfl⟩
      | _ => rw [pass] at ended; cases ended
    have none : s.manned.jobs = [] := sound.balanced.no_jobs (by rw [manned_tending, ended]; rfl)
    refine ⟨admits, ?_, Nat.two_pow_pos 64, ?_⟩
    · -- the jobs are with the pool, and there are none
      have pool : s.manned.waiting = [] ∧ s.manned.answered.map (·.job) = [] := by
        simp only [Crew.jobs, List.append_eq_nil_iff] at none
        exact ⟨none.1.2, none.2⟩
      have jobs : (s.again claims tokens site).manned.jobs = [] ++ s.manned.waiting ++ s.manned.answered.map (·.job) :=
        rfl
      rw [pool.1, pool.2] at jobs
      exact (congrArg List.length jobs).symm
    · have attended := sound.attended
      rw [ended] at attended
      exact attended

theorem Reached.turns (reached : s.Reached) (ts : List Turn) : (s.turns ts).Reached := by
  induction ts generalizing s with
  | nil => exact reached
  | cons t ts ih => exact ih (.turn s t reached)

end Station

end ClaimQueue
