/-
  ClaimQueue.Proofs.Crew.Runs — runs of an engine with all its crews, in any order.

  What happens is a step of one member of one crew, a request of somebody else, time that
  goes on, a crew that starts or one that is let go. Nobody else claims under the name of one of
  the workers, and what is sent was never worked on (`allows`); a name stands for one worker
  only. Everything else is free: who moves when, and what the others ask for.

  `Sees` is what a happening comes to for one crew: a step of its own, a request of others, or
  nothing it takes part in. What each of these keeps holds for every crew in every run
  (`Engine.Reached.crews`).
-/

import Mathlib.Data.List.Induction
import ClaimQueue.Proofs.Crew.Moves
import ClaimQueue.Queue.Consumer

namespace ClaimQueue

namespace Crew

/-- A crew that starts (`Consumer.start_joins`). -/
def fresh (config : QueueConfig) (filter : ClaimFilter) (ids : List WorkerId) (duties : List Duty) : Crew where
  desk := .ofConfig config filter
  workers := ids.zipIdx.map fun (id, index) => { index, id }
  monitors := duties.map fun duty => { duty }

/-- The crew, asked to stop. -/
def dismissed (c : Crew) : Crew :=
  { c with desk := { c.desk with tokens := c.desk.tokens.shutDown, monitorsStop := true } }

end Crew

inductive Happening where
  | move (t : Task)
  /-- A request of somebody else, with the instant it carries. -/
  | request (now : Instant) (r : Request)
  | wait (clock : Clock) (time : Nat)
  | join (config : QueueConfig) (filter : ClaimFilter) (ids : List WorkerId) (duties : List Duty)
  /-- Crew `i` is asked to stop. -/
  | dismiss (i : Nat)

/-- Steps of one member of the first crew. -/
def Happening.moves (m : Member) (count : Nat) : List Happening := List.replicate count (.move ⟨0, m⟩)

/-- A message without content, sent at the epoch. -/
def Message.blank (id : MessageId) : Message := .ofDraft id { type := "job", body := [] } .epoch

namespace Engine

def store (e : Engine) : Store := e.site.store

def now (e : Engine) : Instant := e.site.now

def names (e : Engine) : List WorkerId := e.crews.flatMap (·.names)

def crew (e : Engine) (i : Nat) : Crew := (e.crews[i]?).getD default

def act (e : Engine) : Happening → Engine
  | .move t => e.move t
  | .request now r => { e with site := (e.site.serveAt now r).2 }
  | .wait clock time => { e with site := { e.site with clock, time } }
  | .join config filter ids duties => { e with crews := e.crews ++ [.fresh config filter ids duties] }
  | .dismiss i =>
    match e.crews[i]? with
    | some c => e.setCrew i c.dismissed
    | none => e

def acts (e : Engine) (as : List Happening) : Engine := as.foldl act e

def allows (e : Engine) : Happening → Bool
  | .request _ r => e.names.all r.spares
  | .join _ _ ids duties => decide (ids.Nodup ∧ duties.Nodup ∧ ∀ id ∈ ids, id ∉ e.names)
  | _ => true

/-- Is every act of a list allowed when it comes? -/
def allowsAll (e : Engine) : List Happening → Bool
  | [] => true
  | a :: as => e.allows a && (e.act a).allowsAll as

/-- A queue that nobody has used yet. -/
def blank (policies : PolicyConfig) (script : Script) : Engine where
  site := {
    backend := { name := "jobs" }
    policies := Policies.empty.withDefaults policies
    clock := .manual .epoch
    script }

/-- A blank queue where handlers work until they are cancelled. -/
def patient : Engine := blank {} fun _ => [{ waitCancel := true }]

/-- The engines that runs lead to; they start without crews. -/
inductive Reached : Engine → Prop
  | start (e : Engine) : e.site.Settled → e.store.Distinct → e.crews = [] → Reached e
  | act (e : Engine) (a : Happening) : Reached e → e.allows a = true → Reached (e.act a)

/-- What holds of an engine whatever its members do. -/
structure Sound (e : Engine) : Prop where
  settled : e.site.Settled
  distinct : e.store.Distinct
  staffed : ∀ c ∈ e.crews, c.Staffed
  names : e.names.Nodup

end Engine

namespace Crew

/-- What an act comes to for one crew. -/
inductive Sees (a : Happening) (c c' : Crew) (s s' : Site) : Prop
  | moves (asked : Option Asked) : Step c c' s s' asked → Sees a c c' s s'
  | hears (asked : Option Asked) : c' = c → s.Leads asked s' →
      (∀ worker ∈ c.names, asked.all (·.2.spares worker) = true) →
      (∀ now r, asked = some (now, r) → now = s.now ∨ a = .request now r) → Sees a c c' s s'
  | waits (clock : Clock) (time : Nat) : c' = c → s' = { s with clock, time } → Sees a c c' s s'
  | dismissed : c' = c.dismissed → s' = s → Sees a c c' s s'

variable {a : Happening} {c c' : Crew} {s s' : Site} {asked : Option Asked}

theorem Sees.rests (h : s.Settled) (c : Crew) : Sees a c c s s :=
  .hears none rfl h.refl (fun _ _ => rfl) fun _ _ made => by cases made

theorem Sees.config (seen : Sees a c c' s s') : c'.desk.config = c.desk.config := by
  cases seen with
  | moves asked step => exact step.config
  | hears asked same => rw [same]
  | waits clock time same => rw [same]
  | dismissed same =>
    rw [same]
    rfl

/-- The requests of a crew carry the instant at which they are made. -/
theorem Step.instant (step : Step c c' s s' asked) {now : Instant} {r : Request} (made : asked = some (now, r)) :
    now = s.now := by
  cases step.moves with
  | works w w' before after split split' works =>
    cases works.moves with
    | asks | claims =>
      cases made
      rfl
    | _ => cases made
  | tends same tends =>
    cases tends with
    | serves | scans =>
      cases made
      rfl
    | _ => cases made
  | asks =>
    cases made
    rfl

/-- A crew takes back what has been silent for the time of its configuration. -/
theorem Step.reclaims (step : Step c c' s s' asked) {now : Instant} {dead : Span} {lookback : Option Span}
    (made : asked = some (now, .reclaimDead dead lookback)) : dead = c.desk.config.heartbeat.time := by
  cases step.moves with
  | works w w' before after split split' works =>
    cases works.moves with
    | asks r _ _ plain =>
      cases made
      cases plain
    | _ => cases made
  | tends same tends =>
    cases tends with
    | scans =>
      cases made
      rfl
    | _ => cases made
  | asks r plain =>
    cases made
    cases plain

/-- A crew claims under the names of its own workers alone. -/
theorem Step.spares (step : Step c c' s s' asked) {worker : WorkerId} (other : worker ∉ c.names) :
    asked.all (·.2.spares worker) = true := by
  cases step.moves with
  | works w w' before after split split' works same jobs =>
    have own : w.id ∈ c.names := by simp [Crew.names, split]
    exact works.spares fun same => other (same ▸ own)
  | tends same tends => cases tends <;> rfl
  | asks r plain => exact Request.spares_of_plain plain worker

/-- A crew sends nothing, and what outcomes it asks for one of its workers records. -/
theorem Step.records (step : Step c c' s s' asked) {now : Instant} {r : Request} (made : asked = some (now, r)) :
    (∀ m, r ≠ .enqueue m) ∧ (r.isOutcome = true → ∃ w ∈ c.workers, w.records r) := by
  cases step.moves with
  | works w w' before after split split' works =>
    have own : w ∈ c.workers := by simp [split]
    cases works.moves with
    | asks r _ _ plain _ _ records =>
      cases made
      refine ⟨?_, fun outcome => ⟨w, own, records outcome⟩⟩
      rintro m rfl
      cases plain
    | claims m =>
      cases made
      exact ⟨fun _ => nofun, nofun⟩
    | _ => cases made
  | tends same tends =>
    cases tends with
    | serves | scans =>
      cases made
      exact ⟨fun _ => nofun, nofun⟩
    | _ => cases made
  | asks r plain _ _ _ _ upkeep =>
    cases made
    refine ⟨?_, fun outcome => ?_⟩
    · rintro m rfl
      cases plain
    · rw [upkeep] at outcome
      cases outcome

theorem staffed_fresh {duties : List Duty} (once : duties.Nodup) (config : QueueConfig) (filter : ClaimFilter)
    (ids : List WorkerId) : (fresh config filter ids duties).Staffed := by
  constructor
  · simpa [fresh, Function.comp_def] using once
  · intro m mem
    obtain ⟨duty, _, rfl⟩ := List.mem_map.mp mem
    exact Or.inl rfl

theorem tending_fresh (config : QueueConfig) (filter : ClaimFilter) (ids : List WorkerId) (duties : List Duty) :
    (fresh config filter ids duties).tending = .idle := by
  unfold tending
  cases found : (fresh config filter ids duties).monitors.find? (·.duty == .heartbeat) with
  | none => rfl
  | some m =>
    obtain ⟨duty, _, rfl⟩ := List.mem_map.mp (List.mem_of_find?_eq_some found)
    rfl

theorem names_fresh (config : QueueConfig) (filter : ClaimFilter) (ids : List WorkerId) (duties : List Duty) :
    (fresh config filter ids duties).names = ids := by
  simp [names, fresh, Function.comp_def]

end Crew

namespace Engine

variable {e : Engine}

/-! ## One act -/

/-- A move is a step of the crew it is of. -/
theorem act_move (sound : e.Sound) {t : Task} {c : Crew} (found : e.crews[t.crew]? = some c) :
    ∃ c' asked, Crew.Step c c' e.site (e.act (.move t)).site asked ∧
      (e.act (.move t)).crews = e.crews.set t.crew c' := by
  obtain ⟨asked, step⟩ := Crew.step_moves sound.settled (sound.staffed c (List.mem_of_getElem? found)) t.member
  refine ⟨(c.move e.site t.member).1.muster, asked, ?_, ?_⟩
  · simpa [act, Engine.move, found] using step
  · simp [act, Engine.move, found]

theorem act_nobody {t : Task} (nobody : e.crews[t.crew]? = none) : e.act (.move t) = e := by
  simp [act, Engine.move, nobody]

theorem crew_move {i : Nat} {c : Crew} (found : e.crews[i]? = some c) (m : Member) :
    (e.act (.move ⟨i, m⟩)).crew i = (c.move e.site m).1.muster := by
  obtain ⟨lt, rfl⟩ := List.getElem?_eq_some_iff.mp found
  simp [crew, act, Engine.move, lt]

theorem site_move {i : Nat} {c : Crew} (found : e.crews[i]? = some c) (m : Member) :
    (e.act (.move ⟨i, m⟩)).site = (c.move e.site m).2 := by
  simp [act, Engine.move, found]

/-- A crew that is not there has no workers, no claims, and makes no pass. -/
theorem crew_cases (e : Engine) (i : Nat) : e.crews[i]? = some (e.crew i) ∨ e.crew i = default := by
  unfold crew
  cases e.crews[i]? with
  | some c => exact Or.inl rfl
  | none => exact Or.inr rfl

theorem crew_of_entry {i : Nat} {id : MessageId} {h : Holding} (entry : (id, h) ∈ (e.crew i).desk.claims.entries) :
    e.crews[i]? = some (e.crew i) := by
  rcases e.crew_cases i with found | none
  · exact found
  · rw [none] at entry
    cases entry

theorem crew_of_worker {i : Nat} {w : Worker} (mem : w ∈ (e.crew i).workers) : e.crews[i]? = some (e.crew i) := by
  rcases e.crew_cases i with found | none
  · exact found
  · rw [none] at mem
    cases mem

theorem crew_of_busy {i : Nat} (busy : (e.crew i).tending ≠ .idle) : e.crews[i]? = some (e.crew i) := by
  rcases e.crew_cases i with found | none
  · exact found
  · rw [none] at busy
    exact absurd rfl busy

/-- Whom a name stands for is the worker of one crew. -/
theorem names_apart (once : e.names.Nodup) {i j : Nat} {c d : Crew} (hc : e.crews[i]? = some c)
    (hd : e.crews[j]? = some d) (ne : i ≠ j) {worker : WorkerId} (mem : worker ∈ c.names) : worker ∉ d.names := by
  have apart := (List.pairwise_flatMap.mp once).2
  obtain ⟨hi, rfl⟩ := List.getElem?_eq_some_iff.mp hc
  obtain ⟨hj, rfl⟩ := List.getElem?_eq_some_iff.mp hd
  rw [List.pairwise_iff_getElem] at apart
  intro mem'
  rcases Nat.lt_or_gt_of_ne ne with lt | gt
  · exact apart i j hi hj lt worker mem worker mem' rfl
  · exact apart j i hj hi gt worker mem' worker mem rfl

theorem names_set {i : Nat} {c c' : Crew} (found : e.crews[i]? = some c) (same : c'.names = c.names) :
    (e.crews.set i c').flatMap (·.names) = e.names := by
  obtain ⟨before, after, split, changed⟩ := Crew.set_split found c'
  rw [changed, names, split]
  simp [same]

theorem sound_set (sound : e.Sound) {i : Nat} {c c' : Crew} {site : Site} (settled : site.Settled)
    (distinct : site.store.Distinct) (found : e.crews[i]? = some c) (staffed : c'.Staffed) (same : c'.names = c.names) :
    Sound { site, crews := e.crews.set i c' } where
  settled := settled
  distinct := distinct
  staffed d mem := by
    rcases List.mem_or_eq_of_mem_set mem with mem | rfl
    · exact sound.staffed d mem
    · exact staffed
  names := by
    show ((e.crews.set i c').flatMap (·.names)).Nodup
    rw [names_set found same]
    exact sound.names

theorem sound_act (sound : e.Sound) {a : Happening} (allowed : e.allows a = true) : (e.act a).Sound := by
  cases a with
  | move t =>
    cases found : e.crews[t.crew]? with
    | none =>
      rw [act_nobody found]
      exact sound
    | some c =>
      obtain ⟨c', asked, step, crews⟩ := act_move sound found
      have distinct : (e.act (.move t)).site.store.Distinct := by
        rw [step.site.store]
        exact Store.distinct_after sound.distinct asked
      have := sound_set sound step.site.settled distinct found step.staffed step.names
      rw [← crews] at this
      exact this
  | request now r =>
    have leads := sound.settled.serveAt now r
    refine ⟨leads.settled, ?_, sound.staffed, sound.names⟩
    show (e.site.serveAt now r).2.store.Distinct
    rw [leads.store]
    exact Store.distinct_after sound.distinct (some (now, r))
  | wait clock time =>
    exact ⟨⟨⟨sound.settled.reached, sound.settled.faultless⟩, sound.settled.policy⟩, sound.distinct, sound.staffed,
      sound.names⟩
  | join config filter ids duties =>
    obtain ⟨once, duties', free⟩ := of_decide_eq_true allowed
    refine ⟨sound.settled, sound.distinct, ?_, ?_⟩
    · intro c mem
      rcases List.mem_append.mp mem with mem | mem
      · exact sound.staffed c mem
      · rw [List.mem_singleton.mp mem]
        exact Crew.staffed_fresh duties' config filter ids
    · show ((e.crews ++ [Crew.fresh config filter ids duties]).flatMap (·.names)).Nodup
      rw [List.flatMap_append, List.flatMap_cons, Crew.names_fresh, List.flatMap_nil, List.append_nil]
      refine List.nodup_append.mpr ⟨sound.names, once, ?_⟩
      rintro worker mem _ mem' rfl
      exact free worker mem' mem
  | dismiss i =>
    cases found : e.crews[i]? with
    | none =>
      simp only [act, found]
      exact sound
    | some c =>
      simp only [act, found]
      have staffed := sound.staffed c (List.mem_of_getElem? found)
      exact sound_set sound sound.settled sound.distinct found ⟨staffed.duties, staffed.fits⟩ rfl

/-- Every crew after an act was there before and took its part, or has just joined. -/
theorem act_sees (sound : e.Sound) {a : Happening} (allowed : e.allows a = true) {i : Nat} {c' : Crew}
    (found' : (e.act a).crews[i]? = some c') :
    (∃ c, e.crews[i]? = some c ∧ Crew.Sees a c c' e.site (e.act a).site) ∨
      (e.crews[i]? = none ∧ ∃ config filter ids duties, a = .join config filter ids duties ∧
        c' = .fresh config filter ids duties) := by
  cases a with
  | move t =>
    cases found : e.crews[t.crew]? with
    | none =>
      rw [act_nobody found] at found' ⊢
      exact Or.inl ⟨c', found', .rests sound.settled c'⟩
    | some c =>
      obtain ⟨d, asked, step, crews⟩ := act_move sound found
      rw [crews] at found'
      refine Or.inl ?_
      by_cases own : t.crew = i
      · subst own
        have lt : t.crew < e.crews.length := (List.getElem?_eq_some_iff.mp found).1
        rw [List.getElem?_set_self lt] at found'
        cases found'
        exact ⟨c, found, .moves asked step⟩
      · rw [List.getElem?_set_ne own] at found'
        refine ⟨c', found', .hears asked rfl step.site (fun worker mem => ?_) fun _ _ made =>
          Or.inl (step.instant made)⟩
        exact step.spares (names_apart sound.names found' found (Ne.symm own) mem)
  | request now r =>
    refine Or.inl ⟨c', found', .hears (some (now, r)) rfl (sound.settled.serveAt now r) (fun worker mem => ?_) ?_⟩
    · exact List.all_eq_true.mp allowed worker (List.mem_flatMap.mpr ⟨c', List.mem_of_getElem? found', mem⟩)
    · intro _ _ made
      cases made
      exact Or.inr rfl
  | wait clock time => exact Or.inl ⟨c', found', .waits clock time rfl rfl⟩
  | join config filter ids duties =>
    simp only [act, List.getElem?_append] at found'
    split at found'
    · exact Or.inl ⟨c', found', .rests sound.settled c'⟩
    · rename_i ge
      have last := List.mem_of_getElem? found'
      refine Or.inr ⟨List.getElem?_eq_none (Nat.le_of_not_lt ge), config, filter, ids, duties, rfl, ?_⟩
      exact List.mem_singleton.mp last
  | dismiss j =>
    refine Or.inl ?_
    cases found : e.crews[j]? with
    | none =>
      simp only [act, found] at found' ⊢
      exact ⟨c', found', .rests sound.settled c'⟩
    | some c =>
      simp only [act, found, setCrew] at found' ⊢
      by_cases own : j = i
      · subst own
        have lt : j < e.crews.length := (List.getElem?_eq_some_iff.mp found).1
        rw [List.getElem?_set_self lt] at found'
        cases found'
        exact ⟨c, found, .dismissed rfl rfl⟩
      · rw [List.getElem?_set_ne own] at found'
        exact ⟨c', found', .rests sound.settled c'⟩

/-- An act serves one request at most: its own, or one that a crew makes in a step. -/
theorem act_source (sound : e.Sound) (a : Happening) :
    ∃ asked, e.site.Follows asked (e.act a).site ∧ ∀ now r, asked = some (now, r) → a = .request now r ∨
      ∃ c ∈ e.crews, ∃ c', Crew.Step c c' e.site (e.act a).site asked := by
  cases a with
  | move t =>
    cases found : e.crews[t.crew]? with
    | none =>
      rw [act_nobody found]
      exact ⟨none, sound.settled.refl.toFollows, fun _ _ made => by cases made⟩
    | some c =>
      obtain ⟨c', asked, step, _⟩ := act_move sound found
      exact ⟨asked, step.site.toFollows, fun _ _ _ => Or.inr ⟨c, List.mem_of_getElem? found, c', step⟩⟩
  | request now r =>
    refine ⟨some (now, r), (sound.settled.serveAt now r).toFollows, fun _ _ made => ?_⟩
    cases made
    exact Or.inl rfl
  | wait clock time => exact ⟨none, ⟨rfl, rfl, rfl⟩, fun _ _ made => by cases made⟩
  | join config filter ids duties => exact ⟨none, ⟨rfl, rfl, rfl⟩, fun _ _ made => by cases made⟩
  | dismiss i =>
    refine ⟨none, ?_, fun _ _ made => by cases made⟩
    cases found : e.crews[i]? with
    | none =>
      simp only [act, found]
      exact ⟨rfl, rfl, rfl⟩
    | some c =>
      simp only [act, found]
      exact ⟨rfl, rfl, rfl⟩

/-- What a crew asks carries the instant of the act, and its reclaims the time of its configuration. -/
theorem act_asks (sound : e.Sound) (a : Happening) :
    ∃ asked, (e.act a).store = e.store.after asked ∧
      (e.act a).site.takenBack = e.store.takenBack asked ++ e.site.takenBack ∧
      ∀ now r, asked = some (now, r) → a = .request now r ∨ (now = e.now ∧ ∀ dead lookback,
        r = .reclaimDead dead lookback → ∃ c ∈ e.crews, dead = c.desk.config.heartbeat.time) := by
  obtain ⟨asked, follows, source⟩ := act_source sound a
  refine ⟨asked, follows.store, follows.takenBack, fun now r made => ?_⟩
  rcases source now r made with own | ⟨c, mem, c', step⟩
  · exact Or.inl own
  · refine Or.inr ⟨step.instant made, ?_⟩
    rintro dead lookback rfl
    exact ⟨c, mem, step.reclaims made⟩

/-! ## Runs -/

theorem Reached.sound (reached : e.Reached) : e.Sound := by
  induction reached with
  | start e settled distinct none =>
    refine ⟨settled, distinct, ?_, ?_⟩
    · rw [none]
      exact fun _ => nofun
    · rw [names, none]
      exact List.nodup_nil
  | act e a _ allowed sound => exact sound_act sound allowed

theorem settled_blank (policies : PolicyConfig) (script : Script) : (Engine.blank policies script).site.Settled :=
  ⟨⟨rfl, fun _ _ => nofun⟩, Policies.get_withDefaults Policies.empty policies⟩

theorem Reached.blank (policies : PolicyConfig) (script : Script) : (Engine.blank policies script).Reached :=
  .start _ (settled_blank policies script) List.nodup_nil rfl

/-- What holds of a crew that starts, and is kept by all that a crew can see, holds of every
crew in every run. -/
theorem Reached.crews {P : Crew → Site → Prop}
    (fresh : ∀ config filter ids duties s, List.Nodup ids → P (.fresh config filter ids duties) s)
    (sees : ∀ a c c' s s', c.Staffed → c.names.Nodup → s.Settled → s.store.Distinct → P c s →
      Crew.Sees a c c' s s' → P c' s')
    (reached : e.Reached) : ∀ c ∈ e.crews, P c e.site := by
  induction reached with
  | start e _ _ none =>
    rw [none]
    exact fun _ => nofun
  | act e a reached allowed holds =>
    intro c' mem
    have sound := reached.sound
    obtain ⟨i, found'⟩ := List.mem_iff_getElem?.mp mem
    rcases act_sees sound allowed found' with ⟨c, found, seen⟩ | ⟨_, config, filter, ids, duties, rfl, rfl⟩
    · have mem := List.mem_of_getElem? found
      have once : c.names.Nodup := (List.pairwise_flatMap.mp sound.names).1 c mem
      exact sees a c c' _ _ (sound.staffed c mem) once sound.settled sound.distinct (holds c mem) seen
    · exact fresh config filter ids duties _ (of_decide_eq_true allowed).1

theorem acts_append (e₀ : Engine) (as : List Happening) (a : Happening) : e₀.acts (as ++ [a]) = (e₀.acts as).act a := by
  simp [acts]

/-- Is it a step of a crew, or a wait? -/
def isInner : Happening → Bool
  | .move _ | .wait _ _ => true
  | _ => false

/-- Is every act of a list `fair` when it comes? -/
def Throughout (e₀ : Engine) (fair : Engine → Happening → Prop) (as : List Happening) : Prop :=
  ∀ before a after, as = before ++ a :: after → fair (e₀.acts before) a

namespace Throughout

variable {e₀ : Engine} {fair : Engine → Happening → Prop} {as bs : List Happening} {a : Happening}

theorem left (all : e₀.Throughout fair (as ++ bs)) : e₀.Throughout fair as := by
  rintro before a after rfl
  exact all before a (after ++ bs) (by simp)

theorem right (all : e₀.Throughout fair (as ++ bs)) : (e₀.acts as).Throughout fair bs := by
  rintro before a after rfl
  have fairly := all (as ++ before) a after (by simp)
  simpa only [acts, List.foldl_append] using fairly

theorem last (all : e₀.Throughout fair (as ++ [a])) : fair (e₀.acts as) a := all as a [] rfl

theorem nil : e₀.Throughout fair [] := fun _ _ _ split => by simp at split

theorem cons (first : fair e₀ a) (rest : (e₀.act a).Throughout fair as) : e₀.Throughout fair (a :: as) := by
  intro before b after split
  cases before with
  | nil =>
    cases split
    exact first
  | cons c before =>
    obtain ⟨rfl, tail⟩ := List.cons.inj split
    exact rest before b after tail

theorem tail (all : e₀.Throughout fair (a :: as)) : (e₀.act a).Throughout fair as := by
  rintro before b after rfl
  exact all (a :: before) b after rfl

theorem append (first : e₀.Throughout fair as) (rest : (e₀.acts as).Throughout fair bs) :
    e₀.Throughout fair (as ++ bs) := by
  induction as generalizing e₀ with
  | nil => exact rest
  | cons a as ih => exact cons (first [] a as rfl) (ih first.tail rest)

/-- What holds at first and is kept by every fair act holds in the end. -/
theorem induct {P : Engine → Prop} (all : e₀.Throughout fair as) (start : P e₀)
    (act : ∀ e a, P e → fair e a → P (e.act a)) : P (e₀.acts as) := by
  induction as using List.reverseRecOn with
  | nil => exact start
  | append_singleton as a ih =>
    rw [acts_append]
    exact act _ a (ih all.left) all.last

end Throughout

/-- A list of acts is a run if each is allowed when it comes. -/
theorem Reached.acts (reached : e.Reached) {as : List Happening} (allowed : e.allowsAll as = true) :
    (e.acts as).Reached := by
  induction as generalizing e with
  | nil => exact reached
  | cons a as ih =>
    obtain ⟨now, later⟩ := Bool.and_eq_true_iff.mp allowed
    exact ih (.act e a reached now) later

end Engine

/-! ## Schedules and consumers -/

/-- Whatever the schedule picks is a move. -/
theorem Plant.turn_moves (p : Plant) :
    p.turn.engine = p.engine ∨ ∃ t, p.current = some t ∧ p.turn.engine = p.engine.act (.move t) := by
  unfold turn
  split
  · rename_i t current
    split
    · exact Or.inr ⟨t, current, rfl⟩
    · exact Or.inl rfl
  · split
    · exact Or.inl rfl
    · exact Or.inl rfl

namespace Consumer

theorem recruit_succ (s : Site) (n : Nat) : recruit s (n + 1) =
    ((recruit s n).1 ++ [{ index := n, id := ((recruit s n).2.freshWorker n).1 }],
      ((recruit s n).2.freshWorker n).2) := by
  unfold recruit
  rw [List.range_succ, List.foldl_append]
  rfl

theorem length_recruit (s : Site) (n : Nat) : (recruit s n).1.length = n := by
  induction n with
  | zero => rfl
  | succ n ih => simp [recruit_succ, ih]

/-- Recruits are numbered in their order. -/
theorem recruit_eq (s : Site) (n : Nat) :
    (recruit s n).1 = ((recruit s n).1.map (·.id)).zipIdx.map fun (id, index) => { index, id } := by
  induction n with
  | zero => rfl
  | succ n ih =>
    rw [recruit_succ]
    simp only [List.map_append, List.zipIdx_append, List.map_cons, List.map_nil, List.length_map, length_recruit, ← ih]
    simp

/-- A consumer that starts adds a crew that joins: all its workers, nobody at work, no claim on the book. -/
theorem start_joins {c c' : Consumer} {q q' : Queue} (started : c.start q = .ok (c', q')) :
    ∃ ids : List WorkerId, ids.length = c.config.worker.count.toNat ∧ q'.plant.engine.crews = q.plant.engine.crews ++
      [.fresh c.config c.filter ids (Duty.all.filter (·.isOn c.config q.capabilities))] := by
  unfold start at started
  split at started
  · cases started
  · cases checked : c.config.check with
    | error e =>
      rw [checked] at started
      cases started
    | ok =>
      rw [checked] at started
      cases started
      refine ⟨(recruit q.site c.config.worker.count.toNat).1.map (·.id), by rw [List.length_map, length_recruit], ?_⟩
      simp only [Queue.note, Queue.setSite, Crew.fresh]
      rw [← recruit_eq]
      rfl

end Consumer

end ClaimQueue
