/-
  ClaimQueue.Proofs.Crew.Idle — idle workers and the wakes they wait for.

  Workers that find nothing mark themselves idle; once all are, every one but the first
  waits at the bench. It takes the count of wakes before it looks a last time whether all
  are idle, and is asleep while the count is still the one it took.

  The rule that loses no wake: while anybody is asleep, everybody is idle or on its way from
  a message to the wake (`Quiet.asleep`). A worker falls asleep only when it saw all idle;
  after that a mark is taken back only by a worker that found a message and wakes next, and
  with the wake nobody is asleep any more. Main statement: `no_wakeup_lost`, over all orders
  of the workers' steps, whatever their claims bring and whatever else happens to the desk.
-/

import ClaimQueue.Proofs.Crew.Runs
import ClaimQueue.Proofs.Work.Counters
import Mathlib.Data.List.Count

namespace ClaimQueue

namespace Worker

/-- Between a claim that brought a message and the wake after it. -/
def isFinding (w : Worker) : Bool :=
  match w.stage with
  | .claiming (.done (.ok (some _))) => true
  | .found _ => true
  | .announcing _ => true
  | _ => false

/-- Parked, and not woken yet. -/
def isAsleep (w : Worker) (b : Bench) : Bool :=
  match w.stage with
  | .parked ticket => !b.isWoken ticket
  | _ => false

def isHandling (w : Worker) : Bool :=
  match w.stage with
  | .handling _ _ _ => true
  | _ => false

/-- What the stage says of the mark and of the ticket, as long as nobody is asked to stop. -/
def Seated (w : Worker) (b : Bench) : Prop :=
  match w.stage with
  | .enabling => w.idle = true ∧ w.index ≠ 0
  | .checking ticket => w.idle = true ∧ w.index ≠ 0 ∧ ticket ≤ b.wakes
  | .parked ticket => w.idle = true ∧ w.index ≠ 0 ∧ ticket ≤ b.wakes
  | .announcing _ => w.idle = false
  | .opening _ => w.idle = false
  | .handling _ _ _ => w.idle = false
  | .leaving => False
  | .stopped => False
  | _ => True

/-- What a step does at the bench. -/
inductive Shifts (w w' : Worker) (b b' : Bench) : Prop
  | rests : b' = b → w'.idle = w.idle → (w.isFinding = true → w'.isFinding = true) →
      (w'.isAsleep b = true → w.isAsleep b = true) → Shifts w w' b b'
  | parks : b' = b → w'.idle = w.idle → b.allIdle = true → Shifts w w' b b'
  | tires : b' = b.markIdle → w.idle = false → w'.idle = true → w'.isAsleep b' = false → Shifts w w' b b'
  | stirs : b' = b.markBusy → w.idle = true → w'.idle = false → w'.isFinding = true → Shifts w w' b b'
  | wakes : b' = b.wake → w'.idle = w.idle → w'.isAsleep b' = false → Shifts w w' b b'

structure Turn (w w' : Worker) (d d' : Desk) : Prop where
  shifts : Shifts w w' d.bench d'.bench
  seated : w'.Seated d'.bench
  index : w'.index = w.index
  unasked : d'.tokens.shutdown = false

theorem asleep_iff {w : Worker} {b : Bench} : w.isAsleep b = true ↔ w.stage = .parked b.wakes := by
  unfold isAsleep Bench.isWoken
  cases h : w.stage with
  | parked ticket =>
    simp only [Stage.parked.injEq, bne, Bool.not_not, beq_iff_eq]
    exact eq_comm
  | _ => simp

/-- A step that is neither between a message and the wake, nor into sleep. -/
theorem Turn.passes {w w' : Worker} {d d' : Desk} (bench : d'.bench = d.bench) (idle : w'.idle = w.idle)
    (away : w.isFinding = false) (awake : w'.isAsleep d.bench = false) (seated : w'.Seated d'.bench)
    (index : w'.index = w.index) (unasked : d'.tokens.shutdown = false) : Turn w w' d d' := by
  refine ⟨.rests bench idle (fun finding => ?_) (fun asleep => ?_), seated, index, unasked⟩
  · rw [away] at finding
    cases finding
  · rw [awake] at asleep
    cases asleep

variable {w : Worker} {s : Scene}

theorem step_turn (unasked : s.desk.tokens.shutdown = false) (seated : w.Seated s.desk.bench) :
    Turn w (w.step s).1 s.desk (w.step s).2.desk := by
  obtain ⟨index, id, idle, emptyStreak, fatalStreak, stage⟩ := w
  cases stage with
  | looking =>
    simp only [step, unasked, Bool.false_eq_true, if_false]
    split
    · rename_i last
      simp only [shouldPark, Bool.and_eq_true, bne_iff_ne] at last
      exact .passes rfl rfl rfl rfl ⟨last.1.1.1, last.1.1.2⟩ rfl unasked
    · exact .passes rfl rfl rfl rfl trivial rfl unasked
  | enabling => exact .passes rfl rfl rfl rfl ⟨seated.1, seated.2, Nat.le_refl _⟩ rfl unasked
  | checking ticket =>
    simp only [step]
    split
    · exact ⟨.parks rfl rfl ‹_›, seated, rfl, unasked⟩
    · exact .passes rfl rfl rfl rfl trivial rfl unasked
  | parked ticket =>
    simp only [step, unasked, Bool.false_eq_true, if_false]
    split
    · exact .passes rfl rfl rfl rfl trivial rfl unasked
    · exact ⟨.rests rfl rfl (by rintro ⟨⟩) fun asleep => asleep, seated, rfl, unasked⟩
  | claiming call =>
    cases call with
    | done result =>
      cases result with
      | ok m => cases m <;> exact ⟨.rests rfl rfl (fun finding => finding) (by rintro ⟨⟩), trivial, rfl, unasked⟩
      | error e =>
        simp only [step, claimed]
        split
        · exact .passes rfl rfl rfl rfl trivial rfl unasked
        · exact .passes rfl rfl rfl rfl trivial rfl unasked
    | _ => exact .passes rfl rfl rfl rfl trivial rfl unasked
  | found m =>
    cases idle with
    | true => exact ⟨.stirs rfl rfl rfl rfl, rfl, rfl, unasked⟩
    | false => exact ⟨.rests rfl rfl (fun _ => rfl) (by rintro ⟨⟩), rfl, rfl, unasked⟩
  | announcing m => exact ⟨.wakes rfl rfl rfl, seated, rfl, unasked⟩
  | opening m => exact .passes rfl rfl rfl rfl seated rfl unasked
  | handling m token handler =>
    have desk := handler.step_desk id m token s
    cases handler with
    | done outcome => exact .passes rfl rfl rfl rfl trivial rfl unasked
    | _ =>
      exact .passes (congrArg Desk.bench desk) rfl rfl rfl seated rfl
        ((congrArg (·.tokens.shutdown) desk).trans unasked)
  | settling m outcome =>
    simp only [step]
    repeat' split
    all_goals exact .passes rfl rfl rfl rfl trivial rfl unasked
  | recording m change call =>
    cases call with
    | done result =>
      cases result with
      | ok updated =>
        simp only [step, recorded]
        split
        · exact .passes rfl rfl rfl rfl trivial rfl unasked
        · exact .passes rfl rfl rfl rfl trivial rfl unasked
      | error e => exact .passes rfl rfl rfl rfl trivial rfl unasked
    | _ => exact .passes rfl rfl rfl rfl trivial rfl unasked
  | purging m change call =>
    cases call with
    | done result => cases result <;> exact .passes rfl rfl rfl rfl trivial rfl unasked
    | _ => exact .passes rfl rfl rfl rfl trivial rfl unasked
  | emptyHanded =>
    cases idle with
    | true => exact .passes rfl rfl rfl rfl trivial rfl unasked
    | false => exact ⟨.tires rfl rfl rfl rfl, trivial, rfl, unasked⟩
  | pausing wake =>
    simp only [step, unasked, Bool.false_eq_true, if_false]
    split
    · exact .passes rfl rfl rfl rfl trivial rfl unasked
    · exact .passes rfl rfl rfl rfl trivial rfl unasked
  | starting => exact .passes rfl rfl rfl rfl trivial rfl unasked
  | returned m outcome => exact .passes rfl rfl rfl rfl trivial rfl unasked
  | leaving => exact seated.elim
  | stopped => exact seated.elim

variable {w' : Worker} {b b' : Bench}

theorem Seated.later (seated : w.Seated b) (le : b.wakes ≤ b'.wakes) : w.Seated b' := by
  unfold Seated at seated ⊢
  split at seated
  all_goals first | exact seated | exact ⟨seated.1, seated.2.1, Nat.le_trans seated.2.2 le⟩

theorem Shifts.size (shifts : Shifts w w' b b') : b'.size = b.size := by
  cases shifts <;> subst b' <;> rfl

theorem Shifts.wakes_le (shifts : Shifts w w' b b') : b.wakes ≤ b'.wakes := by
  cases shifts <;> subst b' <;> simp [Bench.markIdle, Bench.markBusy, Bench.wake]

end Worker

namespace Crew

/-- A crew at work that nobody asked to stop: the workers move in any order, each step with any site and
so with any claim; whatever else happens keeps away from the workers and the bench. -/
inductive OnDuty (config : QueueConfig) : Crew → Prop
  | start (filter : ClaimFilter) (ids : List WorkerId) (duties : List Duty) : ids.length = config.worker.count.toNat →
      OnDuty config (.fresh config filter ids duties)
  | works {c : Crew} (site : Site) (i : Nat) : OnDuty config c → OnDuty config (c.move site (.worker i)).1
  | aside {c c' : Crew} : OnDuty config c → c'.workers = c.workers → c'.desk.bench = c.desk.bench →
      c'.desk.tokens.shutdown = false → OnDuty config c'

structure Quiet (config : QueueConfig) (c : Crew) : Prop where
  unasked : c.desk.tokens.shutdown = false
  size : c.desk.bench.size = config.worker.count
  staff : c.workers.length = config.worker.count.toNat
  places : ∀ i (w : Worker), c.workers[i]? = some w → w.index = i
  seated : ∀ w ∈ c.workers, w.Seated c.desk.bench
  counted : c.desk.bench.idle.toNat = c.workers.countP (·.idle)
  asleep : ∀ w ∈ c.workers, w.isAsleep c.desk.bench = true → ∀ w' ∈ c.workers, w'.idle = true ∨ w'.isFinding = true

variable {config : QueueConfig} {c c' : Crew}

theorem Quiet.start {ids : List WorkerId} (staff : ids.length = config.worker.count.toNat) (filter : ClaimFilter)
    (duties : List Duty) : (fresh config filter ids duties).Quiet config := by
  have starting : ∀ w ∈ (fresh config filter ids duties).workers, w.stage = .starting ∧ w.idle = false := by
    intro w mem
    obtain ⟨_, _, rfl⟩ := List.mem_map.mp mem
    exact ⟨rfl, rfl⟩
  refine ⟨rfl, rfl, by simpa [fresh] using staff, ?_, ?_, ?_, ?_⟩
  · intro i w found
    simp only [fresh, List.getElem?_map, List.getElem?_zipIdx, Option.map_map, Option.map_eq_some_iff] at found
    obtain ⟨_, _, rfl⟩ := found
    simp
  · intro w mem
    rw [Worker.Seated, (starting w mem).1]
    trivial
  · refine Eq.symm (List.countP_eq_zero.mpr fun w mem => ?_)
    simp [(starting w mem).2]
  · intro w mem asleep
    rw [Worker.asleep_iff, (starting w mem).1] at asleep
    cases asleep

/-- The bench counts the idle marks, and a step makes or takes back one at most. -/
theorem Quiet.count (quiet : c.Quiet config) {i : Nat} {w w' : Worker} (found : c.workers[i]? = some w) {b' : Bench}
    (shifts : w.Shifts w' c.desk.bench b') : b'.idle.toNat = (c.workers.set i w').countP (·.idle) := by
  obtain ⟨lt, at_i⟩ := List.getElem?_eq_some_iff.mp found
  have mem := List.mem_of_getElem? found
  have count : (c.workers.set i w').countP (·.idle) =
      c.workers.countP (·.idle) - (if w.idle then 1 else 0) + (if w'.idle then 1 else 0) := by
    rw [List.countP_set lt, at_i]
  have marked : w.idle = true → 0 < c.workers.countP (·.idle) := fun idle => List.countP_pos_iff.mpr ⟨w, mem, idle⟩
  have still : w'.idle = w.idle → (c.workers.set i w').countP (·.idle) = c.workers.countP (·.idle) := by
    intro same
    rw [count, same]
    split
    · have := marked ‹_›
      omega
    · rfl
  cases shifts with
  | rests same idle | parks same idle | wakes same idle =>
    rw [same, still idle]
    exact quiet.counted
  | tires same busy idle =>
    have room : c.workers.countP (·.idle) < c.workers.length := List.countP_lt_length_iff.mpr ⟨w, mem, busy⟩
    have small := config.worker.count.toNat_lt
    rw [quiet.staff, ← quiet.counted] at room
    rw [same, count, busy, idle, Bench.markIdle_idle (by omega), quiet.counted]
    rfl
  | stirs same idle busy =>
    have less := Bench.markBusy_idle (quiet.counted ▸ marked idle)
    rw [quiet.counted] at less
    rw [same, count, idle, busy]
    simp only [if_true, Bool.false_eq_true, if_false]
    omega

/-- Once the count stands at the number of workers, no worker is without its mark. -/
theorem Quiet.all_idle (quiet : c.Quiet config) (full : c.desk.bench.allIdle = true) : ∀ w ∈ c.workers, w.idle = true := by
  have le : config.worker.count.toNat ≤ c.desk.bench.idle.toNat := by
    rw [← quiet.size]
    exact UInt64.le_iff_toNat_le.mp (of_decide_eq_true full)
  rw [quiet.counted, ← quiet.staff] at le
  exact List.countP_eq_length.mp (Nat.le_antisymm List.countP_le_length le)

/-- Whoever sleeps after a step slept before it or saw all idle; a wake leaves nobody asleep. -/
theorem Quiet.sleep (quiet : c.Quiet config) {i : Nat} {w w' : Worker} (found : c.workers[i]? = some w) {b' : Bench}
    (shifts : w.Shifts w' c.desk.bench b') {v u : Worker} (mem_v : v ∈ c.workers.set i w') (asleep : v.isAsleep b' = true)
    (mem_u : u ∈ c.workers.set i w') : u.idle = true ∨ u.isFinding = true := by
  have mem := List.mem_of_getElem? found
  have mem_v := List.mem_or_eq_of_mem_set mem_v
  have mem_u := List.mem_or_eq_of_mem_set mem_u
  cases shifts with
  | rests same idle finding slept =>
    rw [same] at asleep
    have old : ∀ u ∈ c.workers, u.idle = true ∨ u.isFinding = true := by
      rcases mem_v with mem_v | rfl
      · exact quiet.asleep v mem_v asleep
      · exact quiet.asleep w mem (slept asleep)
    rcases mem_u with mem_u | rfl
    · exact old u mem_u
    · exact (old w mem).imp idle.trans finding
  | parks same idle full =>
    refine Or.inl ?_
    rcases mem_u with mem_u | rfl
    · exact quiet.all_idle full u mem_u
    · exact idle.trans (quiet.all_idle full w mem)
  | tires same busy idle awake =>
    rcases mem_v with mem_v | rfl
    · rw [same] at asleep
      rcases mem_u with mem_u | rfl
      · exact quiet.asleep v mem_v asleep u mem_u
      · exact Or.inl idle
    · rw [awake] at asleep
      cases asleep
  | stirs same idle busy finding =>
    rcases mem_u with mem_u | rfl
    · rcases mem_v with mem_v | rfl
      · rw [same] at asleep
        exact quiet.asleep v mem_v asleep u mem_u
      · rw [Worker.asleep_iff] at asleep
        rw [Worker.isFinding, asleep] at finding
        cases finding
    · exact Or.inr finding
  | wakes same idle awake =>
    rcases mem_v with mem_v | rfl
    · have seated := quiet.seated v mem_v
      rw [same, Worker.asleep_iff] at asleep
      rw [Worker.Seated, asleep] at seated
      exact absurd seated.2.2 (Nat.not_succ_le_self _)
    · rw [awake] at asleep
      cases asleep

theorem Quiet.turn (quiet : c.Quiet config) {i : Nat} {w w' : Worker} (found : c.workers[i]? = some w)
    (changed : c'.workers = c.workers.set i w') (turn : w.Turn w' c.desk c'.desk) : c'.Quiet config := by
  have mem := List.mem_of_getElem? found
  refine ⟨turn.unasked, turn.shifts.size.trans quiet.size, ?_, ?_, ?_, ?_, ?_⟩
  · rw [changed, List.length_set]
    exact quiet.staff
  · intro j v found'
    rw [changed, List.getElem?_set] at found'
    split at found'
    · rename_i own
      subst own
      split at found'
      · cases found'
        exact turn.index.trans (quiet.places i w found)
      · cases found'
    · exact quiet.places j v found'
  · intro v mem'
    rw [changed] at mem'
    rcases List.mem_or_eq_of_mem_set mem' with mem' | rfl
    · exact (quiet.seated v mem').later turn.shifts.wakes_le
    · exact turn.seated
  · rw [changed]
    exact quiet.count found turn.shifts
  · rw [changed]
    exact fun v mem_v asleep u mem_u => quiet.sleep found turn.shifts mem_v asleep mem_u

theorem OnDuty.quiet (duty : OnDuty config c) : c.Quiet config := by
  induction duty with
  | start filter ids duties staff => exact .start staff filter duties
  | works site i _ ih =>
    rename_i c _
    cases found : c.workers[i]? with
    | none =>
      simp only [move, found]
      exact ih
    | some w =>
      have turn := Worker.step_turn (s := ⟨site, c.desk⟩) ih.unasked (ih.seated w (List.mem_of_getElem? found))
      simp only [move, found]
      exact ih.turn found rfl turn
  | aside _ workers bench unasked ih =>
    obtain ⟨_, size, staff, places, seated, counted, asleep⟩ := ih
    rw [← workers] at staff places seated counted asleep
    rw [← bench] at size seated counted asleep
    exact ⟨unasked, size, staff, places, seated, counted, asleep⟩

/-! ## Crews of an engine -/

variable {s : Site}

/-- Nobody but the workers themselves changes the workers and the bench. -/
theorem OnDuty.move (h : s.Settled) (duty : OnDuty config c) (m : Member) : OnDuty config (c.move s m).1.muster := by
  have unasked := duty.quiet.unasked
  cases m with
  | worker i =>
    have moved : OnDuty config (c.move s (.worker i)).1 := .works s i duty
    exact .aside moved rfl rfl moved.quiet.unasked
  | monitor i =>
    cases found : c.monitors[i]? with
    | none =>
      simp only [Crew.move, found]
      exact .aside duty rfl rfl unasked
    | some m =>
      obtain ⟨asked, step⟩ := Monitor.step_moves (s := ⟨s, c.desk⟩) h m
      simp only [Crew.move, found]
      exact .aside duty rfl (congrArg (·.2.1) step.front) ((congrArg (·.2.2) step.front).trans unasked)
  | runner i =>
    cases found : c.runners[i]? with
    | none =>
      simp only [Crew.move, found]
      exact .aside duty rfl rfl unasked
    | some r =>
      obtain ⟨asked, step⟩ := Runner.step_moves (s := ⟨s, c.desk⟩) h r
      simp only [Crew.move, found]
      have bench := congrArg Desk.bench step.desk
      have shutdown := congrArg (·.tokens.shutdown) step.desk
      exact .aside duty rfl bench (shutdown.trans unasked)

/-- No member asks all to stop. -/
theorem move_shutdown (h : s.Settled) (m : Member) :
    (c.move s m).1.muster.desk.tokens.shutdown = c.desk.tokens.shutdown := by
  cases m with
  | worker i =>
    cases found : c.workers[i]? with
    | none => simp [Crew.move, found]
    | some w =>
      obtain ⟨asked, step⟩ := Worker.step_moves (s := ⟨s, c.desk⟩) h w
      simp only [Crew.move, found, muster_desk]
      cases step.moves <;> simp only [Tokens.issue, *]
  | monitor i =>
    cases found : c.monitors[i]? with
    | none => simp [Crew.move, found]
    | some m =>
      obtain ⟨asked, step⟩ := Monitor.step_moves (s := ⟨s, c.desk⟩) h m
      simp only [Crew.move, found]
      exact congrArg (·.2.2) step.front
  | runner i =>
    cases found : c.runners[i]? with
    | none => simp [Crew.move, found]
    | some r =>
      obtain ⟨asked, step⟩ := Runner.step_moves (s := ⟨s, c.desk⟩) h r
      simp only [Crew.move, found]
      exact congrArg (·.tokens.shutdown) step.desk

end Crew

/-- As many workers as the configuration says, none asked to stop: such a crew of a run is on duty. -/
theorem Engine.Reached.onDuty {e : Engine} (reached : e.Reached) : ∀ c ∈ e.crews,
    c.workers.length = c.desk.config.worker.count.toNat → c.desk.tokens.shutdown = false →
      c.OnDuty c.desk.config := by
  induction reached with
  | start e _ _ none =>
    rw [none]
    exact fun _ => nofun
  | act e a reached allowed ih =>
    intro c' mem staff unasked
    have sound := reached.sound
    cases a with
    | move t =>
      cases found : e.crews[t.crew]? with
      | none =>
        rw [act_nobody found] at mem
        exact ih c' mem staff unasked
      | some c =>
        have mem_c := List.mem_of_getElem? found
        simp only [Engine.act, Engine.move, found] at mem
        rcases List.mem_or_eq_of_mem_set mem with mem | rfl
        · exact ih c' mem staff unasked
        · obtain ⟨_, step⟩ := Crew.step_moves sound.settled (sound.staffed c mem_c) t.member
          have length : (c.move e.site t.member).1.muster.workers.length = c.workers.length := by
            simpa [Crew.names] using congrArg List.length step.names
          rw [step.config] at staff ⊢
          rw [Crew.move_shutdown sound.settled] at unasked
          exact (ih c mem_c (length ▸ staff) unasked).move sound.settled t.member
    | request now r => exact ih c' mem staff unasked
    | wait clock time => exact ih c' mem staff unasked
    | join config filter ids duties =>
      rcases List.mem_append.mp mem with mem | mem
      · exact ih c' mem staff unasked
      · cases List.mem_singleton.mp mem
        refine .start filter ids duties ?_
        simpa [Crew.fresh] using staff
    | dismiss i =>
      cases found : e.crews[i]? with
      | none =>
        simp only [Engine.act, found] at mem
        exact ih c' mem staff unasked
      | some c =>
        simp only [Engine.act, found, Engine.setCrew] at mem
        rcases List.mem_or_eq_of_mem_set mem with mem | rfl
        · exact ih c' mem staff unasked
        · cases unasked

/-- With any number of workers in any order of their steps, the bench counts the idle marks and takes none
back that was not made; while one sleeps, every other is idle or about to wake it; so a worker
that waits while another serves a message has been woken, and the first one never waits. -/
theorem no_wakeup_lost {config : QueueConfig} {c : Crew} (duty : c.OnDuty config) :
    c.desk.bench.idle.toNat = c.workers.countP (·.idle) ∧
      c.desk.bench.idle.toNat ≤ config.worker.count.toNat ∧
      (∀ w ∈ c.workers, w.idle = true → c.desk.bench.markBusy.idle.toNat + 1 = c.desk.bench.idle.toNat) ∧
      (∀ w ∈ c.workers, w.isAsleep c.desk.bench = true → ∀ w' ∈ c.workers, w'.idle = true ∨ w'.isFinding = true) ∧
      (∀ w ∈ c.workers, ∀ w' ∈ c.workers, ∀ ticket, w.stage = .parked ticket → w'.isHandling = true →
        c.desk.bench.isWoken ticket = true ∧ ∀ site, (w.step ⟨site, c.desk⟩).1.stage = .looking) ∧
      ∀ w, c.workers[0]? = some w → ∀ ticket, w.stage ≠ .parked ticket := by
  have quiet := duty.quiet
  refine ⟨quiet.counted, ?_, ?_, quiet.asleep, ?_, ?_⟩
  · rw [quiet.counted, ← quiet.staff]
    exact List.countP_le_length
  · intro w mem idle
    refine Bench.markBusy_idle ?_
    rw [quiet.counted]
    exact List.countP_pos_iff.mpr ⟨w, mem, idle⟩
  · intro w mem w' mem' ticket parked handling
    have woken : c.desk.bench.isWoken ticket = true := by
      by_contra still
      have asleep : w.isAsleep c.desk.bench = true := by simpa [Worker.isAsleep, parked] using still
      have seated := quiet.seated w' mem'
      have busy := quiet.asleep w mem asleep w' mem'
      unfold Worker.isHandling at handling
      split at handling
      · rename_i at_work
        rw [Worker.Seated, at_work] at seated
        rw [Worker.isFinding, at_work, seated] at busy
        rcases busy with idle | finding
        · cases idle
        · cases finding
      · cases handling
    refine ⟨woken, fun site => ?_⟩
    simp only [Worker.step, parked, quiet.unasked, woken, Bool.false_eq_true, if_false, if_true]
    rfl
  · intro w first ticket parked
    have seated := quiet.seated w (List.mem_of_getElem? first)
    rw [Worker.Seated, parked] at seated
    exact seated.2.1 (quiet.places 0 w first)

namespace Nap

open Happening (moves)

/-- Both workers find nothing, and the second waits; then the first claims a message and serves it. -/
def acts : List Happening :=
  [.join { worker := { count := 2 } } {} [⟨"first"⟩, ⟨"second"⟩] []] ++ moves (.worker 0) 5 ++ moves (.worker 1) 5 ++
    [.wait (.manual .epoch) 100] ++ moves (.worker 1) 4 ++ [.request .epoch (.enqueue (.blank .nil))] ++
    moves (.worker 0) 7

def crew : Crew := (Engine.patient.acts acts).crew 0

theorem onDuty : crew.OnDuty crew.desk.config := by
  have allowed : Engine.patient.allowsAll acts = true := by decide +kernel
  have reached := (Engine.Reached.blank _ _).acts allowed
  have mem : crew ∈ (Engine.patient.acts acts).crews := List.mem_of_getElem? (i := 0) rfl
  have staff : crew.workers.length = crew.desk.config.worker.count.toNat := by decide +kernel
  exact reached.onDuty crew mem staff (by decide +kernel)

end Nap

/-- The second worker waits since before the first wake, and its next step is to look. -/
theorem no_wakeup_lost_napping :
    Nap.crew.desk.bench.wakes = 1 ∧ ∃ w, Nap.crew.workers[1]? = some w ∧ w.stage = .parked 0 ∧
      ∀ site, (w.step ⟨site, Nap.crew.desk⟩).1.stage = .looking := by
  have two : (Nap.crew.workers[0]?).isSome = true ∧ (Nap.crew.workers[1]?).isSome = true := by decide +kernel
  obtain ⟨w', first⟩ := Option.isSome_iff_exists.mp two.1
  obtain ⟨w, second⟩ := Option.isSome_iff_exists.mp two.2
  have serves : (Nap.crew.workers[0]?).all (·.isHandling) = true := by decide +kernel
  have waits : (Nap.crew.workers[1]?).all (·.isAsleep ⟨2, true, 1, 0⟩) = true := by decide +kernel
  rw [first, Option.all_some] at serves
  rw [second, Option.all_some, Worker.asleep_iff] at waits
  have main := no_wakeup_lost Nap.onDuty
  have woken := main.2.2.2.2.1 w (List.mem_of_getElem? second) w' (List.mem_of_getElem? first) 0 waits serves
  exact ⟨by decide +kernel, w, second, waits, woken.2⟩

end ClaimQueue
