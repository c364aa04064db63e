/-
  ClaimQueue.Proofs.Upkeep.Floor — everybody at the pool, and the jobs between them.

  On the floor are the callers that submit jobs and the runners that take them, any number
  of each, and they move one counter, one load or one job at a time, in any order. A runner's
  idle time may run out although a job is there.

  The counters of the pool are sums over the parties: places taken (`slot`), runners at work
  (`busy`), jobs announced and not counted off yet (`ahead`, and the channel). `Shift` is what
  a step may do to them. The rule that strands no job is `Sound.hope`: if there is no runner
  left while a job is queued, somebody has yet to send it, or is about to take a place and
  has seen nothing that keeps it from doing so. Main statement: `no_job_stranded`.
-/

import ClaimQueue.Proofs.Crew.Moves
import ClaimQueue.Proofs.Work.Counters
import Mathlib.Algebra.GroupWithZero.Nat
import Mathlib.Algebra.Order.BigOperators.Group.List
import Mathlib.Algebra.Order.Group.Nat

namespace ClaimQueue

namespace Reserve

def isOver : Reserve → Bool
  | .done _ => true
  | _ => false

/-- The place that was taken. -/
def slot : Reserve → Nat
  | .done taken => taken.toNat
  | _ => 0

/-- Is a place taken only where one is free? -/
def Fits (c : PoolConfig) : Reserve → Prop
  | .swap live => live < max c.most 1
  | _ => True

/-- Has it seen nobody live, and nobody idle? -/
def isHopeful : Reserve → Bool
  | .readLive => true
  | .readBusy live => live == 0
  | .readQueued live idle => live == 0 && idle == 0
  | .swap live => live == 0
  | .done _ => false

/-- What a step of taking a place may do. -/
structure Takes (r r' : Reserve) (p p' : Pool) : Prop where
  pool : p' = { p with live := p'.live }
  live : p'.live.toNat + r.slot = p.live.toNat + r'.slot
  grows : p.live ≤ p'.live
  within : p'.live ≤ max p.config.most 1
  fits : r'.Fits p.config
  hope : p'.live = 0 → 0 < p.queued → p.live = 0 ∧ (r.isHopeful = true → r'.isHopeful = true)

theorem Takes.reads {r r' : Reserve} {p : Pool} (slot : r'.slot = r.slot) (within : p.live ≤ max p.config.most 1)
    (fits : r'.Fits p.config) (hope : p.live = 0 → 0 < p.queued → r.isHopeful = true → r'.isHopeful = true) :
    Takes r r' p p :=
  ⟨rfl, by rw [slot], UInt64.le_refl _, within, fits, fun empty left => ⟨empty, hope empty left⟩⟩

theorem step_takes {r : Reserve} {p : Pool} (fits : r.Fits p.config) (within : p.live ≤ max p.config.most 1) :
    Takes r (r.step p).1 p (r.step p).2 := by
  cases r with
  | readLive =>
    refine .reads rfl within trivial fun empty _ _ => ?_
    rw [step, empty]
    rfl
  | readBusy live =>
    refine .reads rfl within trivial fun empty _ hopeful => ?_
    cases eq_of_beq hopeful
    have idle : (if p.busy ≤ 0 then 0 - p.busy else 0) = 0 := by
      split
      · rename_i none
        rw [UInt64.le_zero_iff.mp none]
        rfl
      · rfl
    rw [step, idle]
    rfl
  | readQueued live idle =>
    simp only [step]
    split
    · rename_i free
      exact .reads rfl within free.2 fun _ _ hopeful => (Bool.and_eq_true_iff.mp hopeful).1
    · rename_i full
      refine .reads rfl within trivial fun empty left hopeful => ?_
      obtain ⟨live', idle'⟩ := Bool.and_eq_true_iff.mp hopeful
      cases eq_of_beq live'
      cases eq_of_beq idle'
      exact absurd ⟨left, p.place_pos⟩ full
  | swap live =>
    simp only [step]
    split
    · rename_i same
      subst same
      -- a swap that succeeds finds the count that was read, and that one had room
      have free : p.live.toNat < (max p.config.most 1).toNat := UInt64.lt_iff_toNat_lt.mp fits
      have small := (max p.config.most 1).toNat_lt
      have more : (p.live + 1).toNat = p.live.toNat + 1 := toNat_add_one (by omega)
      have grows : p.live ≤ p.live + 1 := UInt64.le_iff_toNat_le.mpr (by omega)
      have within' : p.live + 1 ≤ max p.config.most 1 := UInt64.le_iff_toNat_le.mpr (by omega)
      refine ⟨rfl, more, grows, within', trivial, fun empty => ?_⟩
      have none : (p.live + 1).toNat = 0 := congrArg UInt64.toNat empty
      omega
    · rename_i other
      refine .reads rfl within trivial fun empty _ hopeful => ?_
      exact absurd (empty.trans (eq_of_beq hopeful).symm) other
  | done taken => exact .reads rfl within trivial fun _ _ hopeful => hopeful

end Reserve

/-- What the parties count on at the pool. -/
def Pool.tally (p : Pool) : PoolConfig × Bool × UInt64 × UInt64 × UInt64 × List Job :=
  (p.config, p.closed, p.live, p.busy, p.queued, p.channel)

/-- Who is at the pool. -/
inductive Party where
  | caller (job : Job) (submit : Submit)
  | runner (r : Runner)

namespace Party

def step (p : Pool) (s : Scene) : Party → Party × Pool
  | .caller job (.done start) => (.caller job (.done false), if start then p.hire else p)
  | .caller job submit => let (submit, p) := submit.step p job; (.caller job submit, p)
  | .runner r => let (r, s) := r.step (s.setPool p); (.runner r, s.desk.pool)

/-- The runner that comes with the step. -/
def hires (p : Pool) : Party → List Party
  | .caller _ (.done true) => [.runner { number := p.hired }]
  | _ => []

/-- The job that the step begins to run. -/
def begins : Party → List Job
  | .runner ⟨_, .counted job⟩ => [job]
  | _ => []

/-- The place it holds: a runner's own until it gave it up, or one taken for a runner to come. -/
def slot : Party → Nat
  | .caller _ (.growing reserve) => reserve.slot
  | .caller _ (.done start) => start.toNat
  | .caller _ _ => 0
  | .runner ⟨_, .reserving reserve⟩ => reserve.slot
  | .runner ⟨_, .gone⟩ => 0
  | .runner _ => 1

def busy : Party → Nat
  | .runner ⟨_, .working _ _⟩ => 1
  | .runner ⟨_, .finishing⟩ => 1
  | _ => 0

/-- A job announced and not sent yet, or taken and not counted off yet. -/
def ahead : Party → Nat
  | .caller _ .sending => 1
  | .runner ⟨_, .took _⟩ => 1
  | _ => 0

/-- The job that was sent. -/
def sent : Party → List Job
  | .caller job (.growing _) => [job]
  | .caller job (.done _) => [job]
  | _ => []

/-- The job that was taken and not begun yet. -/
def inHand : Party → List Job
  | .runner ⟨_, .took job⟩ => [job]
  | .runner ⟨_, .counted job⟩ => [job]
  | _ => []

def Fits (c : PoolConfig) : Party → Prop
  | .caller _ (.growing reserve) => reserve.Fits c
  | .runner ⟨_, .reserving reserve⟩ => reserve.Fits c
  | .runner ⟨_, .closing⟩ => False
  | _ => True

/-- Between announcing a job and sending it, or in the middle of taking a place. -/
def isPending : Party → Bool
  | .caller _ .sending => true
  | .caller _ (.growing reserve) => !reserve.isOver
  | .runner ⟨_, .reserving reserve⟩ => !reserve.isOver
  | _ => false

def isHopeful : Party → Bool
  | .caller _ .sending => true
  | .caller _ (.growing reserve) => reserve.isHopeful
  | .runner ⟨_, .reserving reserve⟩ => reserve.isHopeful
  | _ => false

/-- What a party counts for. -/
def tally (a : Party) : Nat × Nat × Nat × List Job × List Job := (a.slot, a.busy, a.ahead, a.sent, a.inHand)

def total (f : Party → Nat) (ps : List Party) : Nat := (ps.map f).sum

end Party

structure Floor where
  pool : Pool
  parties : List Party := []
  /-- The jobs that runners began to run. -/
  begun : List Job := []

namespace Floor

inductive Turn where
  | submit (job : Job)
  | move (i : Nat) (scene : Scene)
  /-- The idle time of a runner runs out, whether or not a job is there. -/
  | lapse (i : Nat)
  /-- Somebody looks at the first report. -/
  | look

def turn (f : Floor) : Turn → Floor
  | .submit job => { f with parties := f.parties ++ [.caller job .announcing] }
  | .move i scene =>
    match f.parties[i]? with
    | some a =>
      let (a', pool) := a.step f.pool scene
      { pool, parties := f.parties.set i a' ++ a.hires f.pool, begun := f.begun ++ a.begins }
    | none => f
  | .lapse i =>
    match f.parties[i]? with
    | some (.runner ⟨number, .receiving _⟩) =>
      { f with pool := f.pool.leaveLine number, parties := f.parties.set i (.runner ⟨number, .retiring⟩) }
    | _ => f
  | .look => { f with pool := { f.pool with reports := f.pool.reports.tail } }

/-- Jobs announced that no runner has counted off yet. -/
def underway (f : Floor) : Nat := Party.total Party.ahead f.parties + f.pool.channel.length

/-- The floors that runs lead to; there is no room for more jobs than the pool can count. -/
inductive Reached (config : PoolConfig) : Floor → Prop
  | start : Reached config { pool := { config } }
  | turn (f : Floor) (t : Turn) : Reached config f → (f.turn t).underway < 2 ^ 64 → Reached config (f.turn t)

end Floor

namespace Party

/-- What a step of `a` may do: `a'` is what it becomes, `new` who comes with it. -/
structure Shift (a a' : Party) (new : List Party) (p p' : Pool) : Prop where
  config : p'.config = p.config
  closed : p'.closed = p.closed
  live : p'.live.toNat + a.slot = p.live.toNat + a'.slot + total slot new
  busy : p'.busy.toNat + a.busy = p.busy.toNat + a'.busy
  queued : p'.queued.toNat + p.channel.length + a.ahead = p.queued.toNat + p'.channel.length + a'.ahead
  jobs : ∀ job, p'.channel.count job + a'.inHand.count job + a.begins.count job + a.sent.count job =
    p.channel.count job + a.inHand.count job + a'.sent.count job
  within : p.live ≤ max p.config.most 1 → p'.live ≤ max p.config.most 1
  fits : a'.Fits p.config
  least : p'.live < p.live → p.config.least ≤ p'.live
  hope : p'.live = 0 → 0 < p'.queued → a'.isHopeful = true ∨ (p.live = 0 ∧ 0 < p.queued ∧ a.isHopeful = false)

variable {p : Pool} {a a' : Party} {s : Scene}

/-- Nothing that counts has changed, and nothing was hoped for. -/
theorem Shift.still {p' : Pool} (pool : p'.tally = p.tally) (party : a'.tally = a.tally) (begins : a.begins = [])
    (fits : a'.Fits p.config) (hopeless : a.isHopeful = false) : Shift a a' [] p p' := by
  simp only [Pool.tally, Prod.mk.injEq] at pool
  simp only [tally, Prod.mk.injEq] at party
  obtain ⟨config, closed, live, busy, queued, channel⟩ := pool
  obtain ⟨slot, busy', ahead, sent, inHand⟩ := party
  refine ⟨config, closed, ?_, ?_, ?_, ?_, ?_, fits, ?_, ?_⟩
  · rw [live, slot]
    rfl
  · rw [busy, busy']
  · rw [queued, channel, ahead]
  · intro job
    rw [channel, inHand, sent, begins]
    rfl
  · rw [live]
    exact id
  · rw [live]
    exact fun less => absurd less (UInt64.lt_irrefl _)
  · rw [live, queued]
    exact fun empty left => Or.inr ⟨empty, left, hopeless⟩

/-- A step of somebody who takes a place. -/
theorem Shift.takes {reserve reserve' : Reserve} {p' : Pool} (takes : reserve.Takes reserve' p p')
    (slot : a.slot = reserve.slot) (slot' : a'.slot = reserve'.slot)
    (rest : (a'.busy, a'.ahead, a'.sent, a'.inHand) = (a.busy, a.ahead, a.sent, a.inHand)) (begins : a.begins = [])
    (fits : reserve'.Fits p.config → a'.Fits p.config) (hope : a.isHopeful = reserve.isHopeful)
    (hope' : a'.isHopeful = reserve'.isHopeful) : Shift a a' [] p p' := by
  simp only [Prod.mk.injEq] at rest
  obtain ⟨busy, ahead, sent, inHand⟩ := rest
  obtain ⟨pool, live, grows, within, fits', hopes⟩ := takes
  have queued : p'.queued = p.queued := by rw [pool]
  have channel : p'.channel = p.channel := by rw [pool]
  refine ⟨by rw [pool], by rw [pool], ?_, ?_, ?_, ?_, fun _ => within, fits fits', ?_, ?_⟩
  · rw [slot, slot', live]
    rfl
  · rw [busy, pool]
  · rw [queued, channel, ahead]
  · intro job
    rw [channel, inHand, sent, begins]
    rfl
  · exact fun less => absurd less (UInt64.not_lt.mpr grows)
  · rw [queued, hope, hope']
    intro empty left
    obtain ⟨empty', keeps⟩ := hopes empty left
    cases hopeful : reserve.isHopeful with
    | true => exact Or.inl (keeps hopeful)
    | false => exact Or.inr ⟨empty', left, rfl⟩

theorem caller_shift {job : Job} {submit : Submit} (fits : (caller job submit).Fits p.config)
    (within : p.live ≤ max p.config.most 1) (room : submit = .announcing → p.queued.toNat + 1 < 2 ^ 64) :
    Shift (.caller job submit) ((caller job submit).step p s).1 ((caller job submit).hires p) p
      ((caller job submit).step p s).2 := by
  cases submit with
  | announcing =>
    have queued := Pool.announce_queued (room rfl)
    refine ⟨rfl, rfl, rfl, rfl, ?_, fun _ => rfl, id, trivial, ?_, ?_⟩
    · show p.announce.queued.toNat + p.channel.length + 0 = p.queued.toNat + p.channel.length + 1
      rw [queued]
      omega
    · exact fun less => absurd less (UInt64.lt_irrefl _)
    · exact fun _ _ => Or.inl rfl
  | sending =>
    refine ⟨rfl, rfl, rfl, rfl, ?_, ?_, id, trivial, ?_, ?_⟩
    · show p.queued.toNat + p.channel.length + 1 = p.queued.toNat + (p.channel ++ [job]).length + 0
      rw [List.length_append]
      rfl
    · intro other
      show (p.channel ++ [job]).count other + 0 + 0 + 0 = p.channel.count other + 0 + [job].count other
      rw [List.count_append]
      omega
    · exact fun less => absurd less (UInt64.lt_irrefl _)
    · exact fun _ _ => Or.inl rfl
  | growing reserve =>
    have takes : reserve.Fits p.config → reserve.Takes (reserve.step p).1 p (reserve.step p).2 :=
      fun fits => Reserve.step_takes fits within
    cases reserve with
    | done taken => exact .still rfl rfl rfl trivial rfl
    | _ => exact .takes (takes fits) rfl rfl rfl rfl id rfl rfl
  | done start =>
    cases start with
    | false => exact .still rfl rfl rfl trivial rfl
    | true =>
      refine ⟨rfl, rfl, rfl, rfl, rfl, fun _ => rfl, id, trivial, ?_, fun empty left => Or.inr ⟨empty, left, rfl⟩⟩
      exact fun less => absurd less (UInt64.lt_irrefl _)

theorem runner_shift {r : Runner} (fits : (runner r).Fits p.config) (within : p.live ≤ max p.config.most 1)
    (open_ : p.closed = false) (busy : (runner r).busy ≤ p.busy.toNat) (ahead : (runner r).ahead ≤ p.queued.toNat)
    (room : p.busy.toNat + (runner r).slot ≤ p.live.toNat + (runner r).busy) :
    Shift (.runner r) ((runner r).step p s).1 [] p ((runner r).step p s).2 := by
  obtain ⟨number, stage⟩ := r
  have same : ¬p.live < p.live := UInt64.lt_irrefl _
  cases stage with
  | arriving => exact .still rfl rfl rfl trivial rfl
  | lined =>
    simp only [step, Runner.step]
    split
    · exact .still rfl rfl rfl trivial rfl
    · exact .still rfl rfl rfl trivial rfl
  | receiving wake =>
    cases channel : p.channel with
    | nil =>
      by_cases late : wake ≤ s.site.time
      · simp only [step, Runner.step, Scene.setPool, Scene.time, channel, open_, late, Bool.false_eq_true, if_false,
          if_true]
        exact .still rfl rfl rfl trivial rfl
      · simp only [step, Runner.step, Scene.setPool, Scene.time, channel, open_, late, Bool.false_eq_true, if_false]
        exact .still rfl rfl rfl trivial rfl
    | cons job rest =>
      simp only [step, Runner.step, Scene.setPool, channel]
      refine ⟨rfl, rfl, rfl, rfl, ?_, ?_, id, trivial, fun less => absurd less same, ?_⟩
      · show p.queued.toNat + p.channel.length + 0 = p.queued.toNat + rest.length + 1
        rw [channel]
        rfl
      · intro other
        show rest.count other + [job].count other + 0 + 0 = p.channel.count other + 0 + 0
        simp only [channel, List.count_cons, List.count_nil]
        omega
      · exact fun empty left => Or.inr ⟨empty, left, rfl⟩
  | took job =>
    have queued := toNat_sub_one ahead
    refine ⟨rfl, rfl, rfl, rfl, ?_, fun _ => rfl, id, trivial, fun less => absurd less same, fun empty left => ?_⟩
    · show (p.queued - 1).toNat + p.channel.length + 1 = p.queued.toNat + p.channel.length + 0
      omega
    · exact Or.inr ⟨empty, toNat_pos.mpr ahead, rfl⟩
  | counted job =>
    -- whoever begins a job has a place and is not counted as busy yet, so the count of those has room
    have small := p.live.toNat_lt
    have more : (p.busy + 1).toNat = p.busy.toNat + 1 := toNat_add_one (Nat.lt_of_le_of_lt room small)
    refine ⟨rfl, rfl, rfl, more, rfl, fun other => ?_, id, trivial, fun less => absurd less same, fun empty left => ?_⟩
    · show p.channel.count other + 0 + [job].count other + 0 = p.channel.count other + [job].count other + 0
      omega
    · exact Or.inr ⟨empty, left, rfl⟩
  | working job call =>
    cases call with
    | done result => exact .still rfl rfl rfl trivial rfl
    | _ => exact .still rfl rfl rfl trivial rfl
  | finishing =>
    have less := toNat_sub_one busy
    refine ⟨rfl, rfl, rfl, less, rfl, fun _ => rfl, id, trivial, fun less => absurd less same, fun empty left => ?_⟩
    exact Or.inr ⟨empty, left, rfl⟩
  | retiring =>
    rcases p.retire_cases with stays | ⟨enough, leaves⟩
    · simp only [step, Runner.step, Scene.setPool, stays, Bool.false_eq_true, if_false]
      exact .still rfl rfl rfl trivial rfl
    · simp only [step, Runner.step, Scene.setPool, leaves, if_true]
      have floor : p.config.least.toNat < p.live.toNat := UInt64.lt_iff_toNat_lt.mp enough
      have less := toNat_sub_one (Nat.zero_lt_of_lt floor)
      have below : p.live - 1 ≤ p.live := UInt64.le_iff_toNat_le.mpr (by omega)
      have above : p.config.least ≤ p.live - 1 := UInt64.le_iff_toNat_le.mpr (by omega)
      exact ⟨rfl, rfl, less, rfl, rfl, fun _ => rfl, UInt64.le_trans below, trivial, fun _ => above,
        fun _ _ => Or.inl rfl⟩
  | reserving reserve =>
    have takes : reserve.Fits p.config → reserve.Takes (reserve.step p).1 p (reserve.step p).2 :=
      fun fits => Reserve.step_takes fits within
    cases reserve with
    | done taken => cases taken <;> exact .still rfl rfl rfl trivial rfl
    | _ => exact .takes (takes fits) rfl rfl rfl rfl id rfl rfl
  | closing => exact fits.elim
  | gone => exact .still rfl rfl rfl trivial rfl

/-! ## Sums over the parties -/

variable {f g : Party → Nat} {ps : List Party} {i : Nat}

theorem total_append (f : Party → Nat) (ps qs : List Party) : total f (ps ++ qs) = total f ps + total f qs := by
  rw [total, List.map_append, List.sum_append]
  rfl

/-- One party changes, and others come. -/
theorem total_set (f : Party → Nat) (found : ps[i]? = some a) (a' : Party) (new : List Party) :
    total f (ps.set i a' ++ new) + f a = total f ps + f a' + total f new := by
  obtain ⟨before, after, split, changed⟩ := Crew.set_split found a'
  rw [total_append, changed, split]
  simp only [total, List.map_append, List.map_cons, List.sum_append, List.sum_cons]
  omega

/-- What one party has more of in `g` than in `f`, all have more of. -/
theorem total_le (le : ∀ a, f a ≤ g a) (mem : a ∈ ps) : total f ps + g a ≤ total g ps + f a := by
  obtain ⟨before, after, rfl⟩ := List.append_of_mem mem
  have le₁ : total f before ≤ total g before := List.sum_le_sum fun a _ => le a
  have le₂ : total f after ≤ total g after := List.sum_le_sum fun a _ => le a
  simp only [total, List.map_append, List.map_cons, List.sum_append, List.sum_cons] at le₁ le₂ ⊢
  omega

theorem le_total (f : Party → Nat) (mem : a ∈ ps) : f a ≤ total f ps :=
  List.le_sum_of_mem (List.mem_map_of_mem mem)

/-- Who has just been hired counts for his place and nothing else. -/
theorem total_hired {new : List Party} (fresh : ∀ b ∈ new, ∃ number, b = .runner { number }) (f : Party → Nat)
    (none : ∀ number, f (.runner { number }) = 0) : total f new = 0 := by
  refine List.sum_eq_zero fun n mem => ?_
  obtain ⟨b, hired, rfl⟩ := List.mem_map.mp mem
  obtain ⟨number, rfl⟩ := fresh b hired
  exact none number

theorem hires_fresh (a : Party) (p : Pool) : ∀ b ∈ a.hires p, ∃ number, b = .runner { number } := by
  intro b mem
  unfold hires at mem
  split at mem
  · exact ⟨_, List.mem_singleton.mp mem⟩
  · cases mem

theorem pending_of_hopeful (a : Party) (hopeful : a.isHopeful = true) : a.isPending = true := by
  have unfinished : ∀ r : Reserve, r.isHopeful = true → (!r.isOver) = true := by
    intro r hopeful
    cases r with
    | done taken => cases hopeful
    | _ => rfl
  unfold isHopeful at hopeful
  unfold isPending
  split at hopeful
  · rfl
  · exact unfinished _ hopeful
  · exact unfinished _ hopeful
  · cases hopeful

theorem busy_le_slot (a : Party) : a.busy ≤ a.slot := by
  unfold busy
  split
  · exact Nat.le_refl _
  · exact Nat.le_refl _
  · exact Nat.zero_le _

end Party

namespace Floor

open Party (total)

structure Sound (config : PoolConfig) (f : Floor) : Prop where
  setup : f.pool.config = config
  isOpen : f.pool.closed = false
  live : f.pool.live.toNat = total Party.slot f.parties
  busy : f.pool.busy.toNat = total Party.busy f.parties
  queued : f.pool.queued.toNat = f.underway
  within : f.pool.live ≤ max config.most 1
  fits : ∀ a ∈ f.parties, a.Fits config
  jobs : ∀ job, total (·.sent.count job) f.parties =
    f.pool.channel.count job + total (·.inHand.count job) f.parties + f.begun.count job
  hope : f.pool.live = 0 → 0 < f.pool.queued → ∃ a ∈ f.parties, a.isHopeful = true

variable {config : PoolConfig} {f f' : Floor} {a a' : Party} {new : List Party} {i : Nat}

theorem Sound.start : Sound config { pool := { config } } where
  setup := rfl
  isOpen := rfl
  live := rfl
  busy := rfl
  queued := rfl
  within := UInt64.le_of_lt (Pool.place_pos { config })
  fits _ := nofun
  jobs _ := rfl
  hope _ := nofun

/-- The counters stay the sums they are whatever one party does. -/
theorem Sound.shift (sound : f.Sound config) (found : f.parties[i]? = some a) (shift : a.Shift a' new f.pool f'.pool)
    (fresh : ∀ b ∈ new, ∃ number, b = .runner { number }) (parties : f'.parties = f.parties.set i a' ++ new)
    (begun : f'.begun = f.begun ++ a.begins) : f'.Sound config := by
  have mem := List.mem_of_getElem? found
  have sum : ∀ g, total g f'.parties + g a = total g f.parties + g a' + total g new := by
    intro g
    rw [parties]
    exact Party.total_set g found a' new
  have none : ∀ g : Party → Nat, (∀ number, g (.runner { number }) = 0) → total g new = 0 :=
    fun g => Party.total_hired fresh g
  refine ⟨shift.config.trans sound.setup, shift.closed.trans sound.isOpen, ?_, ?_, ?_, ?_, ?_, ?_, ?_⟩
  · have sum := sum Party.slot
    have live := shift.live
    rw [sound.live] at live
    omega
  · have sum := sum Party.busy
    have busy := shift.busy
    rw [sound.busy] at busy
    rw [none Party.busy fun _ => rfl] at sum
    omega
  · have sum := sum Party.ahead
    have queued := shift.queued
    rw [sound.queued] at queued
    rw [none Party.ahead fun _ => rfl] at sum
    unfold underway at queued ⊢
    omega
  · have within := sound.setup ▸ sound.within
    exact sound.setup ▸ shift.within within
  · intro b mem_b
    rw [parties] at mem_b
    rcases List.mem_append.mp mem_b with old | hired
    · rcases List.mem_or_eq_of_mem_set old with old | rfl
      · exact sound.fits b old
      · exact sound.setup ▸ shift.fits
    · obtain ⟨number, rfl⟩ := fresh b hired
      trivial
  · intro job
    have sent := sum (·.sent.count job)
    have inHand := sum (·.inHand.count job)
    have jobs := shift.jobs job
    have before := sound.jobs job
    rw [none (·.sent.count job) fun _ => rfl] at sent
    rw [none (·.inHand.count job) fun _ => rfl] at inHand
    rw [begun, List.count_append]
    omega
  · intro empty left
    obtain ⟨before, after, split, changed⟩ := Crew.set_split found a'
    rw [parties, changed]
    rcases shift.hope empty left with hopeful | ⟨empty, left, hopeless⟩
    · exact ⟨a', by simp, hopeful⟩
    · obtain ⟨b, mem_b, hopeful⟩ := sound.hope empty left
      refine ⟨b, ?_, hopeful⟩
      rw [split] at mem_b
      rcases List.mem_append.mp mem_b with first | rest
      · exact List.mem_append_left _ (List.mem_append_left _ first)
      · rcases List.mem_cons.mp rest with rfl | last
        · rw [hopeless] at hopeful
          cases hopeful
        · exact List.mem_append_left _ (List.mem_append_right _ (List.mem_cons_of_mem _ last))

/-- A runner has room for its step. -/
theorem Sound.runner_shift {r : Runner} (sound : f.Sound config) (mem : .runner r ∈ f.parties) (s : Scene) :
    (Party.runner r).Shift ((Party.runner r).step f.pool s).1 [] f.pool ((Party.runner r).step f.pool s).2 := by
  refine Party.runner_shift (sound.setup ▸ sound.fits _ mem) (sound.setup ▸ sound.within) sound.isOpen ?_ ?_ ?_
  · rw [sound.busy]
    exact Party.le_total Party.busy mem
  · rw [sound.queued]
    exact Nat.le_add_right_of_le (Party.le_total Party.ahead mem)
  · rw [sound.busy, sound.live]
    exact Party.total_le Party.busy_le_slot mem

/-- A step of whoever it is. -/
theorem Sound.step_shift (sound : f.Sound config) (found : f.parties[i]? = some a) (s : Scene)
    (room : (f.turn (.move i s)).underway < 2 ^ 64) :
    a.Shift (a.step f.pool s).1 (a.hires f.pool) f.pool (a.step f.pool s).2 := by
  have mem := List.mem_of_getElem? found
  have fits : a.Fits f.pool.config := sound.setup ▸ sound.fits a mem
  have within : f.pool.live ≤ max f.pool.config.most 1 := sound.setup ▸ sound.within
  cases a with
  | caller job submit =>
    refine Party.caller_shift fits within fun announcing => ?_
    subst announcing
    have sum : total Party.ahead (f.parties.set i (.caller job .sending) ++ []) + 0 = total Party.ahead f.parties + 1 :=
      Party.total_set Party.ahead found (.caller job .sending) []
    have after : (f.turn (.move i s)).underway =
        total Party.ahead (f.parties.set i (.caller job .sending) ++ []) + f.pool.channel.length := by
      simp only [turn, found]
      rfl
    rw [sound.queued, underway]
    omega
  | runner r => exact sound.runner_shift mem s

theorem Sound.turn (sound : f.Sound config) (t : Turn) (room : (f.turn t).underway < 2 ^ 64) :
    (f.turn t).Sound config := by
  cases t with
  | submit job =>
    have sum : ∀ g : Party → Nat, g (.caller job .announcing) = 0 →
        total g (f.turn (.submit job)).parties = total g f.parties := by
      intro g none
      refine (Party.total_append g f.parties [.caller job .announcing]).trans ?_
      rw [total, total, List.map_singleton, none]
      rfl
    refine ⟨sound.setup, sound.isOpen, ?_, ?_, ?_, sound.within, ?_, ?_, ?_⟩
    · exact sound.live.trans (sum _ rfl).symm
    · exact sound.busy.trans (sum _ rfl).symm
    · rw [underway, sum Party.ahead rfl]
      exact sound.queued
    · intro a mem
      rcases List.mem_append.mp mem with mem | mem
      · exact sound.fits a mem
      · cases List.mem_singleton.mp mem
        trivial
    · intro other
      rw [sum (·.sent.count other) rfl, sum (·.inHand.count other) rfl]
      exact sound.jobs other
    · intro empty left
      obtain ⟨a, mem, hopeful⟩ := sound.hope empty left
      exact ⟨a, List.mem_append_left _ mem, hopeful⟩
  | move i s =>
    cases found : f.parties[i]? with
    | none =>
      simp only [Floor.turn, found]
      exact sound
    | some a =>
      have shift := sound.step_shift found s room
      simp only [Floor.turn, found]
      exact sound.shift found shift (a.hires_fresh f.pool) rfl rfl
  | lapse i =>
    simp only [Floor.turn]
    split
    · rename_i number wake found
      have shift : (Party.runner ⟨number, .receiving wake⟩).Shift (.runner ⟨number, .retiring⟩) [] f.pool
        (f.pool.leaveLine number) := .still rfl rfl rfl trivial rfl
      exact sound.shift found shift nofun (List.append_nil _).symm (List.append_nil _).symm
    · exact sound
  | look => exact ⟨sound.setup, sound.isOpen, sound.live, sound.busy, sound.queued, sound.within, sound.fits, sound.jobs,
      sound.hope⟩

theorem Reached.sound (reached : f.Reached config) : f.Sound config := by
  induction reached with
  | start => exact .start
  | turn f t _ room sound => exact sound.turn t room

/-- A turn that leaves fewer runners leaves enough. -/
theorem Sound.least (sound : f.Sound config) (t : Turn) (room : (f.turn t).underway < 2 ^ 64)
    (less : (f.turn t).pool.live < f.pool.live) : config.least ≤ (f.turn t).pool.live := by
  have same : ¬f.pool.live < f.pool.live := UInt64.lt_irrefl _
  cases t with
  | submit job => exact absurd less same
  | look => exact absurd less same
  | move i s =>
    cases found : f.parties[i]? with
    | none =>
      simp only [Floor.turn, found] at less
      exact absurd less same
    | some a =>
      have shift := sound.step_shift found s room
      simp only [Floor.turn, found] at less ⊢
      exact sound.setup ▸ shift.least less
  | lapse i =>
    simp only [Floor.turn] at less
    split at less
    · exact absurd less same
    · exact absurd less same

end Floor

open Floor in
/-- Whoever submits and whoever runs jobs, in any order of their steps: the pool counts its runners
and keeps to its bounds, counts no job off that was not announced, begins a job no more often
than it was sent, and once nobody is about to decide, no job waits without a runner. -/
theorem no_job_stranded {config : PoolConfig} {f : Floor} (reached : f.Reached config) :
    f.pool.live ≤ max config.most 1 ∧ f.pool.live.toNat = Party.total Party.slot f.parties ∧
      f.pool.busy ≤ f.pool.live ∧ f.pool.queued.toNat = f.underway ∧
      (∀ number job, .runner ⟨number, .took job⟩ ∈ f.parties → 0 < f.pool.queued) ∧
      (∀ t, (f.turn t).underway < 2 ^ 64 → (f.turn t).pool.live < f.pool.live →
        config.least ≤ (f.turn t).pool.live) ∧
      (∀ job, f.begun.count job ≤ (f.parties.flatMap (·.sent)).count job) ∧
      ((∀ a ∈ f.parties, a.isPending = false) → f.pool.channel ≠ [] → 1 ≤ f.pool.live) := by
  have sound := reached.sound
  refine ⟨sound.within, sound.live, ?_, sound.queued, ?_, sound.least, ?_, ?_⟩
  · rw [UInt64.le_iff_toNat_le, sound.busy, sound.live]
    exact List.sum_le_sum fun a _ => a.busy_le_slot
  · intro number job mem
    have ahead := Party.le_total Party.ahead mem
    rw [toNat_pos, sound.queued]
    exact Nat.lt_of_lt_of_le ahead (Nat.le_add_right ..)
  · intro job
    have jobs := sound.jobs job
    have sent : (f.parties.flatMap (·.sent)).count job = Party.total (·.sent.count job) f.parties := List.count_flatMap
    rw [sent, jobs]
    exact Nat.le_add_left ..
  · intro settled waiting
    have queued : 0 < f.pool.queued := by
      rw [toNat_pos, sound.queued]
      exact Nat.lt_of_lt_of_le (List.length_pos_iff.mpr waiting) (Nat.le_add_left ..)
    by_contra few
    have empty : f.pool.live = 0 := by
      rw [UInt64.le_iff_toNat_le] at few
      exact UInt64.toNat_inj.mp (Nat.eq_zero_of_not_pos few)
    obtain ⟨a, mem, hopeful⟩ := sound.hope empty queued
    have pending := a.pending_of_hopeful hopeful
    rw [settled a mem] at pending
    cases pending

namespace Floor

variable {config : PoolConfig} {f : Floor}

def turns (f : Floor) (ts : List Turn) : Floor := ts.foldl turn f

/-- Is there room for the jobs after each turn? -/
def roomy (f : Floor) : List Turn → Bool
  | [] => true
  | t :: ts => decide ((f.turn t).underway < 2 ^ 64) && (f.turn t).roomy ts

theorem Reached.turns (reached : f.Reached config) {ts : List Turn} (room : f.roomy ts = true) :
    (f.turns ts).Reached config := by
  induction ts generalizing f with
  | nil => exact reached
  | cons t ts ih =>
    obtain ⟨now, later⟩ := Bool.and_eq_true_iff.mp room
    exact ih (.turn f t reached (of_decide_eq_true now)) later

end Floor

namespace Passed

def scene : Scene := ⟨{ backend := { name := "jobs" }, policies := .empty, clock := .manual .epoch }, default⟩

/-- A runner is hired for a job, passes it over, retires, and takes its place back. -/
def turns : List Floor.Turn :=
  [.submit default] ++ List.replicate 8 (.move 0 scene) ++ List.replicate 2 (.move 1 scene) ++ [.lapse 1] ++
    List.replicate 5 (.move 1 scene)

def floor : Floor := Floor.turns { pool := { config := { least := 0 } } } turns

theorem reached : floor.Reached { least := 0 } := Floor.Reached.start.turns (by decide +kernel)

end Passed

/-- The job passed over waits in the channel, and the runner is back. -/
theorem no_job_stranded_passed :
    Passed.floor.pool.channel = [default] ∧ (∀ a ∈ Passed.floor.parties, a.isPending = false) ∧
      1 ≤ Passed.floor.pool.live := by
  have waiting : Passed.floor.pool.channel = [default] := by decide +kernel
  have all : Passed.floor.parties.all (!·.isPending) = true := by decide +kernel
  have settled : ∀ a ∈ Passed.floor.parties, a.isPending = false := by simpa using all
  have main := no_job_stranded Passed.reached
  exact ⟨waiting, settled, main.2.2.2.2.2.2.2 settled (by simp [waiting])⟩

end ClaimQueue
