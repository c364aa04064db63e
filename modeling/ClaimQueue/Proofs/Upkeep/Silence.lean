/-
  ClaimQueue.Proofs.Upkeep.Silence — which pass takes back a claim whose worker fell silent.

  A watch is a desk with the reclaim under way there, one after the other. Its turns are the
  steps of the reclaim, requests of anybody, time that goes on, and claims that the workers
  take up and give back. A pass comes when the scan of a reclaim gets through. A claim is
  silent from `beat` on if nobody refreshes or ends it; it is dead when `beat` is further
  back than the time of the configuration.

  The scan looks back no further than `lookback` past that time, so it takes the dead claim
  only from within (time, time + lookback] (`isReclaimable_iff`). Nothing ties the lookback
  to the pause between two passes: where it is shorter, a claim can die and leave the window
  between them. Main statement: the first pass after the claim died takes it back just if it
  comes within the lookback; so it always does if there is no bound, or if the bound is not
  shorter than the pause and the passes had begun.
-/

import Mathlib.Data.List.Chain
import ClaimQueue.Proofs.Store.Overdue
import ClaimQueue.Proofs.Upkeep.Reclaim
import ClaimQueue.Queue.Basic

namespace ClaimQueue

structure Watch where
  scene : Scene
  reclaim : Reclaim := .start

inductive Turn where
  /-- The reclaim makes a step; one that ended is followed by the next. -/
  | step
  /-- Anybody's request, with the instant it carries. -/
  | request (now : Instant) (r : Request)
  | wait (clock : Clock) (time : Nat)
  | work (claims : ClaimBook) (tokens : Tokens)

namespace Watch

def store (w : Watch) : Store := w.scene.site.backend.store

def now (w : Watch) : Instant := w.scene.site.now

def config (w : Watch) : QueueConfig := w.scene.desk.config

def turn (w : Watch) : Turn → Watch
  | .step =>
    match w.reclaim.result? with
    | some _ => { w with reclaim := .start }
    | none => ⟨(w.reclaim.step w.scene).2, (w.reclaim.step w.scene).1⟩
  | .request now r => { w with scene := { w.scene with site := (w.scene.site.serveAt now r).2 } }
  | .wait clock time => { w with scene := { w.scene with site := { w.scene.site with clock, time } } }
  | .work claims tokens => { w with scene := (w.scene.setClaims claims).setTokens tokens }

def turns (w : Watch) (ts : List Turn) : Watch := ts.foldl turn w

/-- What the next step takes back, if it is a scan that gets through. -/
def scan? (w : Watch) : Option (List MessageId) := w.reclaim.scan? w.scene

/-- The instants of the passes. -/
def passes (w : Watch) : List Turn → List Instant
  | [] => []
  | .step :: ts => (w.scan?.map fun _ => w.now).toList ++ (w.turn .step).passes ts
  | t :: ts => (w.turn t).passes ts

/-- Do the requests leave the message under `id` alone? -/
def Spares (id : MessageId) (w : Watch) : List Turn → Prop
  | [] => True
  | .request now r :: ts =>
    (w.turn (.request now r)).store.get? id = w.store.get? id ∧ Spares id (w.turn (.request now r)) ts
  | t :: ts => Spares id (w.turn t) ts

/-- Does the scan that is next take the message back, and does its reclaim end with it? -/
def Returns (w : Watch) (m : Message) : Prop :=
  ∃ ids, m.id ∈ ids ∧ (∃ n, (w.reclaim.steps n w.scene).1 = .done (.ok ids)) ∧
    (w.turn .step).store.get? m.id = some (Change.rollback.apply m w.now)

end Watch

/-- The time between two passes of the heartbeat monitor. -/
def QueueConfig.pause (c : QueueConfig) : Span := Monitor.period { duty := .heartbeat } c

/-- No two passes in a row are further apart than `pause`. -/
def Steady (pause : Span) (passes : List Instant) : Prop :=
  passes.IsChain fun p q : Instant => q.nanos ≤ p.nanos + (pause.nanos : Int)

/-- A claim falls silent: `m` was handed out or refreshed at `beat` in the turns `earlier`,
is left alone in the turns `later`, and the pass after them is the first to find it dead. -/
structure Silent (start : Watch) (earlier later : List Turn) (m : Message) (beat : Instant) : Prop where
  calm : start.scene.site.Calm
  held : (start.turns earlier).store.get? m.id = some m
  working : m.status = .working
  heard : m.heartbeatAt = some beat
  spared : (start.turns earlier).Spares m.id later
  ordered : ∀ p ∈ start.passes earlier, p ≤ beat
  steady : Steady start.config.pause (start.passes (earlier ++ later ++ [.step]))
  early : ∀ p ∈ (start.turns earlier).passes later, p.nanos ≤ beat.nanos + start.config.heartbeat.time.nanos
  scans : (start.turns (earlier ++ later)).scan?.isSome = true
  late : beat.nanos + start.config.heartbeat.time.nanos < (start.turns (earlier ++ later)).now.nanos

/-! ## Turns -/

namespace Watch

variable {w : Watch} {id : MessageId} {m : Message} {beat : Instant}

theorem turns_append (w : Watch) (ts us : List Turn) : w.turns (ts ++ us) = (w.turns ts).turns us := List.foldl_append

theorem passes_append (w : Watch) (ts us : List Turn) : w.passes (ts ++ us) = w.passes ts ++ (w.turns ts).passes us := by
  induction ts generalizing w with
  | nil => rfl
  | cons t ts ih =>
    cases t with
    | step => exact (congrArg (_ ++ ·) (ih _)).trans (List.append_assoc _ _ _).symm
    | _ => exact ih _

theorem passes_scan (scans : w.scan?.isSome = true) : w.passes [.step] = [w.now] := by
  obtain ⟨ids, scan⟩ := Option.isSome_iff_exists.mp scans
  simp [passes, scan]

/-- What a step makes of the store: the scan is served, and all else is left alone. -/
theorem calm_step (calm : w.scene.site.Calm) :
    (w.turn .step).scene.site.Calm ∧ (w.turn .step).config = w.config ∧
      match w.scan? with
      | some ids => w.store.reclaimDead w.now w.config.heartbeat.time w.config.heartbeat.lookback =
          (ids, (w.turn .step).store)
      | none => (w.turn .step).store = w.store := by
  obtain ⟨scene, reclaim⟩ := w
  cases reclaim with
  | done result => exact ⟨calm, rfl, rfl⟩
  | scanning call => exact Reclaim.step_calm calm _
  | revoking reclaimed rest => exact Reclaim.step_calm calm _

theorem calm_turn (calm : w.scene.site.Calm) (t : Turn) :
    (w.turn t).scene.site.Calm ∧ (w.turn t).config = w.config := by
  cases t with
  | step => exact ⟨(calm_step calm).1, (calm_step calm).2.1⟩
  | request now r => exact ⟨(calm.serveAt now r).2.2, rfl⟩
  | wait clock time => exact ⟨⟨calm.reached, calm.faultless⟩, rfl⟩
  | work claims tokens => exact ⟨calm, rfl⟩

theorem calm_turns (calm : w.scene.site.Calm) (ts : List Turn) :
    (w.turns ts).scene.site.Calm ∧ (w.turns ts).config = w.config := by
  induction ts generalizing w with
  | nil => exact ⟨calm, rfl⟩
  | cons t ts ih =>
    obtain ⟨calm', config⟩ := calm_turn calm t
    obtain ⟨calm'', config'⟩ := ih calm'
    exact ⟨calm'', config'.trans config⟩

/-- What a step makes of one message. -/
theorem get?_step (calm : w.scene.site.Calm) (held : w.store.get? id = some m) :
    (w.turn .step).store.get? id = some (if w.scan?.isSome &&
        Store.isReclaimable w.now w.config.heartbeat.time w.config.heartbeat.lookback m
      then Change.rollback.apply m w.now else m) := by
  have stepped := (calm_step calm).2.2
  cases scan : w.scan? with
  | none =>
    rw [scan] at stepped
    rw [stepped, held]
    rfl
  | some ids =>
    rw [scan] at stepped
    have after := Store.get?_reclaimDead w.store w.now w.config.heartbeat.time w.config.heartbeat.lookback id
    rw [stepped, held] at after
    exact after

/-- A pass takes back a claim just if the store finds it in the window. -/
theorem returns_iff (calm : w.scene.site.Calm) (held : w.store.get? m.id = some m) (working : m.status = .working)
    (scans : w.scan?.isSome = true) :
    w.Returns m ↔ Store.isReclaimable w.now w.config.heartbeat.time w.config.heartbeat.lookback m = true := by
  have after := get?_step calm held
  rw [scans, Bool.true_and] at after
  constructor
  · rintro ⟨_, _, _, returned⟩
    rw [after] at returned
    split at returned
    · assumption
    · -- a message that was taken back is not working
      have same := congrArg Message.status (Option.some.inj returned)
      rw [working] at same
      cases same
  · intro found
    obtain ⟨ids, scan⟩ := Option.isSome_iff_exists.mp scans
    have served := (calm_step calm).2.2
    rw [scan] at served
    refine ⟨ids, ?_, Reclaim.steps_scanned scan, by rw [after, if_pos found]⟩
    have taken : ids = _ := (congrArg Prod.fst served).symm
    rw [taken]
    exact List.mem_map.mpr ⟨m, List.mem_filter.mpr ⟨Store.mem_of_get? held, found⟩, rfl⟩

/-- While nobody touches it and no pass finds it dead, a claim stays as it is. -/
theorem get?_turns (calm : w.scene.site.Calm) (held : w.store.get? m.id = some m) (working : m.status = .working)
    (heard : m.heartbeatAt = some beat) {ts : List Turn} (spared : w.Spares m.id ts)
    (early : ∀ p ∈ w.passes ts, p.nanos ≤ beat.nanos + w.config.heartbeat.time.nanos) :
    (w.turns ts).store.get? m.id = some m := by
  induction ts generalizing w with
  | nil => exact held
  | cons t ts ih =>
    obtain ⟨calm', config⟩ := calm_turn calm t
    cases t with
    | step =>
      have kept := get?_step calm held
      have alive : (w.scan?.isSome &&
          Store.isReclaimable w.now w.config.heartbeat.time w.config.heartbeat.lookback m) = false := by
        cases scan : w.scan? with
        | none => rfl
        | some ids =>
          refine Bool.eq_false_iff.mpr fun found => ?_
          have := ((Store.isReclaimable_iff working heard _ _).mp found).1
          have := early w.now (by simp [passes, scan])
          omega
      rw [alive] at kept
      exact ih calm' kept spared fun p hp => config ▸ early p (List.mem_append_right _ hp)
    | request now r => exact ih calm' (spared.1.trans held) spared.2 (config ▸ early)
    | wait clock time => exact ih calm' held spared (config ▸ early)
    | work claims tokens => exact ih calm' held spared (config ▸ early)

end Watch

/-! ## The first pass after a claim died -/

theorem Silent.returns_iff {start : Watch} {earlier later : List Turn} {m : Message} {beat : Instant}
    (h : Silent start earlier later m beat) :
    (start.turns (earlier ++ later)).Returns m ↔ ∀ l, start.config.heartbeat.lookback = some l →
      (start.turns (earlier ++ later)).now.nanos ≤ beat.nanos + start.config.heartbeat.time.nanos + l.nanos := by
  obtain ⟨calm, config⟩ := Watch.calm_turns h.calm earlier
  obtain ⟨calm', config'⟩ := Watch.calm_turns h.calm (earlier ++ later)
  have held : (start.turns (earlier ++ later)).store.get? m.id = some m := by
    rw [Watch.turns_append]
    exact Watch.get?_turns calm h.held h.working h.heard h.spared (config ▸ h.early)
  rw [Watch.returns_iff calm' held h.working h.scans, Store.isReclaimable_iff h.working h.heard, config']
  exact and_iff_right h.late

/-- The first pass that finds a silent claim dead takes it back just if it comes within the
lookback. It does so if there is no bound, or if the bound is not shorter than the pause of
the monitor and there was a pass before. -/
theorem silent_claim_returned {start : Watch} {earlier later : List Turn} {m : Message} {beat : Instant}
    (h : Silent start earlier later m beat) :
    ((start.turns (earlier ++ later)).Returns m ↔ ∀ l, start.config.heartbeat.lookback = some l →
      (start.turns (earlier ++ later)).now.nanos ≤ beat.nanos + start.config.heartbeat.time.nanos + l.nanos) ∧
    ((∀ l, start.config.heartbeat.lookback = some l →
      start.config.pause ≤ l ∧ start.passes (earlier ++ later) ≠ []) →
        (start.turns (earlier ++ later)).Returns m) := by
  refine ⟨h.returns_iff, fun wide => h.returns_iff.mpr fun l bounded => ?_⟩
  obtain ⟨le, begun⟩ := wide l bounded
  obtain ⟨passes, last, e⟩ := (List.eq_nil_or_concat _).resolve_left begun
  -- the pass before came while the claim was alive, and this one at most a pause later
  have alive : last.nanos ≤ beat.nanos + start.config.heartbeat.time.nanos := by
    have mem : last ∈ start.passes (earlier ++ later) := by simp [e]
    rw [Watch.passes_append] at mem
    rcases List.mem_append.mp mem with mem | mem
    · have : last.nanos ≤ beat.nanos := h.ordered last mem
      omega
    · exact h.early last mem
  have gap : (start.turns (earlier ++ later)).now.nanos ≤ last.nanos + start.config.pause.nanos := by
    have steady := h.steady
    rw [Steady, Watch.passes_append, Watch.passes_scan h.scans, e, List.isChain_append] at steady
    exact steady.2.2 last (by simp) _ rfl
  have : start.config.pause.nanos ≤ l.nanos := le
  omega

/-! ## A claim that slips -/

namespace Slip

/-- A desk where claims die after a second, as the passes come. -/
def watch (lookback : Span) : Watch :=
  let config : QueueConfig := { heartbeat := { interval := 1, time := .ofMillis 1000, lookback := some lookback } }
  { scene := {
      site := {
        backend := { name := "jobs" }
        policies := Policies.empty.withDefaults config.policies
        clock := .manual .epoch }
      desk := .ofConfig config {} } }

def message : Message := .ofDraft .nil { type := "job", body := [] } .epoch

/-- A whole reclaim, and a claim right after it. -/
def earlier : List Turn :=
  [.step, .step, .step, .request .epoch (.enqueue message), .request .epoch (.tryClaim ⟨"silent"⟩ {})]

def first : Instant := (Instant.ofMillis? 1000).getD .epoch

def second : Instant := (Instant.ofMillis? 2000).getD .epoch

/-- A whole reclaim after a second, when the claim is not dead yet, and one more second. -/
def later : List Turn :=
  [.wait (.manual first) 1000, .step, .step, .step, .wait (.manual second) 2000]

/-- A tenth of a second, and one second. -/
def lookbacks : List Span := [.ofMillis 100, .ofMillis 1000]

theorem passes_eq : ∀ l ∈ lookbacks, (watch l).passes earlier = [.epoch] ∧
    ((watch l).turns earlier).passes later = [first] ∧
    ((watch l).turns (earlier ++ later)).scan?.isSome = true ∧
    ((watch l).turns (earlier ++ later)).now = second := by
  decide +kernel

theorem pause_eq : ∀ l ∈ lookbacks, (watch l).config.pause = .ofMillis 1000 := by decide

theorem silent {l : Span} (hl : l ∈ lookbacks) :
    Silent (watch l) earlier later (message.claim ⟨"silent"⟩ .epoch) .epoch := by
  obtain ⟨before, between, scans, now⟩ := passes_eq l hl
  constructor
  · exact ⟨rfl, fun _ _ => nofun⟩
  · rfl
  · rfl
  · rfl
  · trivial
  · rw [before]
    decide
  · rw [Watch.passes_append, Watch.passes_append, before, between, Watch.passes_scan scans, now, pause_eq l hl]
    unfold Steady
    decide
  · rw [between]
    show ∀ p ∈ [first], p.nanos ≤ 0 + 1_000_000_000
    decide
  · exact scans
  · rw [now]
    show (0 : Int) + 1_000_000_000 < 2_000_000_000
    decide

end Slip

/-- A lookback of a tenth of a second is shorter than the pause of one: the claim is alive at
one pass and out of the window at the next. -/
theorem silent_claims_slip :
    ¬ ∀ start earlier later m beat, start.config.check = .ok () → Silent start earlier later m beat →
      (start.turns (earlier ++ later)).Returns m := by
  intro h
  have short : Span.ofMillis 100 ∈ Slip.lookbacks := by decide
  have silent := Slip.silent short
  have returned := h _ _ _ _ _ (by decide) silent
  have late := silent.returns_iff.mp returned _ rfl
  rw [(Slip.passes_eq _ short).2.2.2] at late
  exact absurd late (by decide)

/-- With a lookback as long as the pause the same claim is taken back. -/
theorem silent_claim_returned_second :
    Silent (Slip.watch (Span.ofMillis 1000)) Slip.earlier Slip.later (Slip.message.claim ⟨"silent"⟩ .epoch) .epoch ∧
      ((Slip.watch (Span.ofMillis 1000)).turns (Slip.earlier ++ Slip.later)).Returns
        (Slip.message.claim ⟨"silent"⟩ .epoch) := by
  have long : Span.ofMillis 1000 ∈ Slip.lookbacks := by decide
  have silent := Slip.silent long
  refine ⟨silent, (silent_claim_returned silent).2 fun l bounded => ?_⟩
  obtain rfl := Option.some.inj bounded
  rw [Slip.pause_eq _ long, Watch.passes_append, (Slip.passes_eq _ long).1]
  exact ⟨by decide, by simp⟩

end ClaimQueue
