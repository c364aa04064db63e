/-
  ClaimQueue.Proofs.Upkeep.Liveness — no claim is taken back while its handler is at work.

  A fleet is an engine with the beats of its crews, all with one heartbeat configuration. In
  a timed run time never goes back; a claim is registered at the instant it is made and
  stays on the book while it is held and its handler is at work; no crew ever is further
  from the snapshot of its last refresh, or from its start, than the pause between two
  passes. Anybody may take back, at any instant, what has been silent for the configured
  time, with any lookback.

  A claim in hand was heard of since that snapshot (`Crew.Alive`), so at most a pause ago.
  An accepted configuration has no pause longer than the time after which a claim is dead,
  and a claim is dead only after more than that time. Both bounds may be equal: with one
  refresh per dead-time a claim can be as old as it gets just when the refresh is due.
-/

import ClaimQueue.Proofs.Config.Heartbeat
import ClaimQueue.Proofs.Crew.Beats

namespace ClaimQueue

/-- The claim in hand whose handler has not ended. -/
def Phase.unended? : Phase → Option Message
  | .claimed m => some m
  | .serving m _ => some m
  | _ => none

/-- Does the act go with the configuration at `now`? -/
def Happening.fits (config : HeartbeatConfig) (now : Instant) : Happening → Bool
  | .request t (.reclaimDead dead _) => t = now && dead = config.time
  | .request t _ => t = now
  | .join c _ _ _ => c.heartbeat = config
  | _ => true

structure Fleet where
  engine : Engine
  beats : Nat → Beat

namespace Fleet

def act (f : Fleet) (a : Happening) : Fleet where
  engine := f.engine.act a
  beats i :=
    if i < f.engine.crews.length then
      (f.beats i).next f.engine.now (f.engine.crew i).tending ((f.engine.act a).crew i).tending
    else ⟨f.engine.now, f.engine.now⟩

def acts (f : Fleet) (as : List Happening) : Fleet := as.foldl act f

/-- Is no refresh overdue? -/
def isOnTime (config : HeartbeatConfig) (f : Fleet) : Bool :=
  (List.range f.engine.crews.length).all fun i =>
    decide (f.engine.now.nanos ≤ (f.beats i).last.nanos + config.pause.nanos)

def isBooked (f : Fleet) : Bool := f.engine.crews.all (·.isBooked f.engine.store)

/-- An act that has its place in a timed run. -/
structure Timely (config : HeartbeatConfig) (f : Fleet) (a : Happening) : Prop where
  allowed : f.engine.allows a = true
  fits : a.fits config f.engine.now = true
  onward : f.engine.now ≤ (f.engine.act a).now
  prompt : f.engine.crews.all (·.isRegistered) = true ∨ (f.engine.act a).now = f.engine.now
  onTime : (f.act a).isOnTime config = true
  booked : (f.act a).isBooked = true

instance (config : HeartbeatConfig) (f : Fleet) (a : Happening) : Decidable (f.Timely config a) :=
  decidable_of_iff
    ((f.engine.allows a = true ∧ a.fits config f.engine.now = true ∧ f.engine.now ≤ (f.engine.act a).now) ∧
      (f.engine.crews.all (·.isRegistered) = true ∨ (f.engine.act a).now = f.engine.now) ∧
      (f.act a).isOnTime config = true ∧ (f.act a).isBooked = true)
    ⟨fun ⟨⟨h₁, h₂, h₃⟩, h₄, h₅, h₆⟩ => ⟨h₁, h₂, h₃, h₄, h₅, h₆⟩,
      fun ⟨h₁, h₂, h₃, h₄, h₅, h₆⟩ => ⟨⟨h₁, h₂, h₃⟩, h₄, h₅, h₆⟩⟩

/-- Timed runs; they start without crews. -/
inductive Timed (config : HeartbeatConfig) : Fleet → Prop
  | start (e : Engine) : e.site.Settled → e.store.Distinct → e.crews = [] →
      Timed config ⟨e, fun _ => ⟨e.now, e.now⟩⟩
  | act (f : Fleet) (a : Happening) : Timed config f → f.Timely config a → Timed config (f.act a)

def timelyAll (config : HeartbeatConfig) (f : Fleet) : List Happening → Bool
  | [] => true
  | a :: as => decide (f.Timely config a) && (f.act a).timelyAll config as

variable {config : HeartbeatConfig} {f : Fleet}

namespace Timed

theorem reached (timed : f.Timed config) : f.engine.Reached := by
  induction timed with
  | start e settled distinct none => exact .start e settled distinct none
  | act f a _ timely reached => exact .act f.engine a reached timely.allowed

theorem onTime (timed : f.Timed config) : f.isOnTime config = true := by
  cases timed with
  | start e _ _ none => simp [isOnTime, none]
  | act f a _ timely => exact timely.onTime

theorem booked (timed : f.Timed config) : f.isBooked = true := by
  cases timed with
  | start e _ _ none => simp [isBooked, none]
  | act f a _ timely => exact timely.booked

theorem acts (timed : f.Timed config) {as : List Happening} (timely : f.timelyAll config as = true) :
    (f.acts as).Timed config := by
  induction as generalizing f with
  | nil => exact timed
  | cons a as ih =>
    obtain ⟨now, later⟩ := Bool.and_eq_true_iff.mp timely
    exact ih (.act f a timed (of_decide_eq_true now)) later

end Timed

theorem beats_old {i : Nat} {c c' : Crew} {a : Happening} (found : f.engine.crews[i]? = some c)
    (found' : (f.engine.act a).crews[i]? = some c') :
    (f.act a).beats i = (f.beats i).next f.engine.now c.tending c'.tending := by
  obtain ⟨lt, rfl⟩ := List.getElem?_eq_some_iff.mp found
  simp [act, Engine.crew, found', lt]

theorem beats_new {i : Nat} (a : Happening) (none : f.engine.crews[i]? = none) :
    (f.act a).beats i = ⟨f.engine.now, f.engine.now⟩ := by
  have ge : ¬i < f.engine.crews.length := Nat.not_lt.mpr (List.getElem?_eq_none_iff.mp none)
  simp [act, ge]

/-- In a timed run every claim in hand was heard of since the last snapshot, in every crew. -/
theorem Timed.alive (timed : f.Timed config) : ∀ (i : Nat) (c : Crew), f.engine.crews[i]? = some c →
    c.Alive f.engine.site (f.beats i) ∧ c.desk.config.heartbeat = config := by
  induction timed with
  | start e _ _ none =>
    intro i c found
    simp [none] at found
  | act f a timed timely alive =>
    intro i c' found'
    have reached := timed.reached
    have sound := reached.sound
    rcases Engine.act_sees sound timely.allowed found' with ⟨c, found, seen⟩ | ⟨none, c, filter, ids, duties, rfl, rfl⟩
    · obtain ⟨alive, heartbeat⟩ := alive i c found
      have mem := List.mem_of_getElem? found
      rw [beats_old found found']
      have booked := List.all_eq_true.mp timed.booked c mem
      refine ⟨alive.sees ?_ sound.distinct booked (reached.balanced c mem) timely.onward ?_ ?_ seen, ?_⟩
      · exact (List.pairwise_flatMap.mp sound.names).1 c mem
      · exact timely.prompt.imp_left fun registered => List.all_eq_true.mp registered c mem
      · rintro now r rfl
        have fits := timely.fits
        cases r <;> simp [Happening.fits] at fits
        all_goals first | exact fits | exact fits.1
      · rw [seen.config, heartbeat]
    · rw [beats_new _ none]
      exact ⟨.fresh c filter ids duties _, of_decide_eq_true timely.fits⟩

/-- What an act of a timed run takes back was silent for the configured time. -/
theorem Timed.takes (timed : f.Timed config) {a : Happening} (timely : f.Timely config a) {ids : List MessageId}
    (taken : (f.engine.act a).site.takenBack = ids ++ f.engine.site.takenBack) {id : MessageId} (mem : id ∈ ids) :
    ∃ m lookback, f.engine.store.get? id = some m ∧
      Store.isReclaimable f.engine.now config.time lookback m = true := by
  have sound := timed.reached.sound
  obtain ⟨asked, _, journal, made⟩ := Engine.act_asks sound a
  have same : ids = f.engine.store.takenBack asked := List.append_cancel_right (taken.symm.trans journal)
  rw [same] at mem
  obtain ⟨now, dead, lookback, m, rfl, stored, silent⟩ := Store.mem_takenBack sound.distinct mem
  rcases made _ _ rfl with rfl | ⟨rfl, own⟩
  · obtain ⟨rfl, rfl⟩ : now = f.engine.now ∧ dead = config.time := by simpa [Happening.fits] using timely.fits
    exact ⟨m, lookback, stored, silent⟩
  · obtain ⟨c, there, rfl⟩ := own dead lookback rfl
    obtain ⟨i, found⟩ := List.mem_iff_getElem?.mp there
    rw [(timed.alive i c found).2] at silent
    exact ⟨m, lookback, stored, silent⟩

/-- A claim in hand was heard of a pause ago at most, so it is not dead. -/
theorem Timed.not_silent (timed : f.Timed config) (brief : config.pause ≤ config.time) {c : Crew}
    (mem : c ∈ f.engine.crews) {w : Worker} (mem' : w ∈ c.workers) {m : Message} (unended : w.phase.unended? = some m)
    {m' : Message} (stored : f.engine.store.get? m.id = some m') (held : Store.holds m' w.id = true)
    (lookback : Option Span) : Store.isReclaimable f.engine.now config.time lookback m' = false := by
  obtain ⟨i, found⟩ := List.mem_iff_getElem?.mp mem
  obtain ⟨alive, _⟩ := timed.alive i c found
  have lt : i < f.engine.crews.length := (List.getElem?_eq_some_iff.mp found).1
  have onTime : f.engine.now.nanos ≤ (f.beats i).last.nanos + config.pause.nanos :=
    of_decide_eq_true (List.all_eq_true.mp timed.onTime i (List.mem_range.mpr lt))
  have heard : f.engine.store.HeardSince m.id w.id (f.beats i).last := by
    cases phase : w.phase with
    | claimed m₀ =>
      rw [phase] at unended
      cases unended
      exact (alive.claimed w mem' m phase).mono alive.last
    | serving m₀ token =>
      rw [phase] at unended
      cases unended
      exact alive.serving w mem' m token phase
    | free | ended =>
      rw [phase] at unended
      cases unended
  obtain ⟨beat, at_, since⟩ := heard m' stored held
  refine Bool.eq_false_iff.mpr fun silent => ?_
  have dead := ((Store.isReclaimable_iff (Store.working_of_holds held).1 at_ _ lookback).mp silent).1
  have since : (f.beats i).last.nanos ≤ beat.nanos := since
  have brief : config.pause.nanos ≤ config.time.nanos := brief
  omega

end Fleet

/-- No act of a timed run under an accepted configuration takes back a claim whose handler
has not ended. -/
theorem live_claims_spared {text : String} {config : QueueConfig} (accepted : QueueConfig.ofToml text = .ok config)
    {f : Fleet} (timed : f.Timed config.heartbeat) {a : Happening} (timely : f.Timely config.heartbeat a)
    {ids : List MessageId} (taken : (f.engine.act a).site.takenBack = ids ++ f.engine.site.takenBack) :
    ∀ c ∈ f.engine.crews, ∀ w ∈ c.workers, ∀ m, w.phase.unended? = some m → f.engine.store.held m.id w.id = true →
      m.id ∉ ids := by
  intro c mem w mem' m unended held listed
  obtain ⟨m', stored, working, owner⟩ := Store.held_iff.mp held
  have holds : Store.holds m' w.id = true := by simp [Store.holds, working, owner]
  obtain ⟨m'', lookback, stored', silent⟩ := timed.takes timely taken listed
  obtain rfl : m' = m'' := Option.some.inj (stored.symm.trans stored')
  rw [timed.not_silent (QueueConfig.pause_le_time accepted) mem mem' unended stored holds lookback] at silent
  cases silent

/-! ## A claim as old as it gets -/

namespace Stretched

open Happening (moves)

/-- One refresh per dead-time, so a claim is as old as that when it is refreshed. -/
def text : String := "[heartbeat]\ninterval = 1\ntime_ms = 1000\n"

def config : QueueConfig := { heartbeat := { interval := 1, time := .ofMillis 1000 } }

theorem accepted : ∃ c, QueueConfig.ofToml text = .ok c ∧ c.heartbeat = config.heartbeat := by
  have read : (QueueConfig.ofToml text).toOption.map (·.heartbeat) = some config.heartbeat := by decide +kernel
  cases parsed : QueueConfig.ofToml text with
  | error e =>
    rw [parsed] at read
    cases read
  | ok c =>
    rw [parsed] at read
    exact ⟨c, rfl, Option.some.inj read⟩

def start : Fleet := ⟨.patient, fun _ => ⟨.epoch, .epoch⟩⟩

def second (n : Nat) : Instant := (Instant.ofMillis? (n * 1000)).getD .epoch

/-- A stranger claims the first message and falls silent; the worker claims the second one.
There is a pass after a second, and a second later the next one is due. -/
def acts : List Happening :=
  [.join config {} [⟨"worker"⟩] [.heartbeat], .request .epoch (.enqueue (.blank ⟨0⟩)),
    .request .epoch (.enqueue (.blank ⟨1⟩)), .request .epoch (.tryClaim ⟨"stranger"⟩ {})] ++ moves (.worker 0) 7 ++
  moves (.monitor 0) 1 ++ [.wait (.manual (second 1)) 1000] ++ moves (.monitor 0) 10 ++ moves (.runner 0) 10 ++
  moves (.monitor 0) 7 ++ [.wait (.manual (second 2)) 2000]

/-- Somebody takes back what was silent for more than a second. -/
def reclaim : Happening := .request (second 2) (.reclaimDead (.ofMillis 1000) none)

theorem timed : (start.acts acts).Timed config.heartbeat := by
  have timely : start.timelyAll config.heartbeat acts = true := by decide +kernel
  have reached : Engine.patient.Reached := .blank _ _
  exact Fleet.Timed.acts (.start _ reached.sound.settled reached.sound.distinct rfl) timely

end Stretched

/-- The stranger's claim is taken back, and that of the worker, heard of a whole second ago, is not. -/
theorem live_claims_spared_stretched :
    let f := Stretched.start.acts Stretched.acts
    f.Timed Stretched.config.heartbeat ∧ f.Timely Stretched.config.heartbeat Stretched.reclaim ∧
      (f.engine.act Stretched.reclaim).site.takenBack = [⟨0⟩] ++ f.engine.site.takenBack ∧
      ∃ c ∈ f.engine.crews, ∃ w ∈ c.workers, ∃ m, w.phase.unended? = some m ∧
        f.engine.store.held m.id w.id = true ∧ m.id ∉ [⟨0⟩] := by
  intro f
  have timed : f.Timed Stretched.config.heartbeat := Stretched.timed
  have timely : f.Timely Stretched.config.heartbeat Stretched.reclaim := by decide +kernel
  have taken : (f.engine.act Stretched.reclaim).site.takenBack = [⟨0⟩] ++ f.engine.site.takenBack := by decide +kernel
  refine ⟨timed, timely, taken, ?_⟩
  have holder : f.engine.crews.any (fun c => c.workers.any fun w => w.phase.unended?.any fun m =>
      f.engine.store.held m.id w.id) = true := by
    decide +kernel
  obtain ⟨c, mem, holder⟩ := List.any_eq_true.mp holder
  obtain ⟨w, mem', holder⟩ := List.any_eq_true.mp holder
  obtain ⟨m, unended, held⟩ := (Option.any_eq_true _ _).mp holder
  obtain ⟨config, accepted, same⟩ := Stretched.accepted
  rw [← same] at timed timely
  exact ⟨c, mem, w, mem', m, unended, held, live_claims_spared accepted timed timely taken c mem w mem' m unended held⟩

end ClaimQueue
