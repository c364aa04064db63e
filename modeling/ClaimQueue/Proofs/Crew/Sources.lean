/-
  ClaimQueue.Proofs.Crew.Sources — workers log where their claims came from.

  A worker logs, for every message that a claim returned to it, a transition from the status that
  the message then tells of (`Message.claimedFrom`). Others may send drafts, claim, record outcomes
  of work and look after the store as they like, at any instants; then every stored message is in
  order (`Message.Sourced`), and what it tells is the status it had in the store just before the
  claim. Messages may come back under their ids; but fewer than 2³² claims are made under each, so
  that no message takes a later claim for its first.

  Main statement: `claim_source_true`.
-/

import ClaimQueue.Proofs.Crew.Members
import ClaimQueue.Proofs.Store.Endings
import ClaimQueue.Proofs.Store.Sources
import ClaimQueue.Proofs.Work.Decisions

namespace ClaimQueue

namespace Engine

variable {e e₀ : Engine} {a : Happening} {as : List Happening} {id : MessageId} {m : Message}

/-! ## Claims in a run -/

/-- Does the act take the message from waiting to work? Only claims do. -/
def hands (e : Engine) (a : Happening) (id : MessageId) : Bool :=
  (e.store.get? id).any (·.status.isWaiting) && ((e.act a).store.get? id).any (·.status == .working)

/-- How often the message is claimed in a run. -/
def claimsOf (id : MessageId) (e : Engine) : List Happening → Nat
  | [] => 0
  | a :: as => (if e.hands a id then 1 else 0) + (e.act a).claimsOf id as

/-- The act does to the store what a claim does that returns `m`. -/
def Returns (e : Engine) (a : Happening) (m : Message) : Prop :=
  ∃ now worker filter, e.store.tryClaim worker filter now = (some m, (e.act a).store)

/-- An act in a run where others send drafts and record outcomes of work, if they do either. -/
structure Supplies (e : Engine) (a : Happening) : Prop where
  allowed : e.allows a = true
  sends : ∀ now m, a = .request now (.enqueue m) → ∃ draft since, m = .ofDraft m.id draft since
  outcomes : ∀ now id change version, a = .request now (.updateStatus id change version) → change.src = .working

/-- Such runs; they start with an empty store and nobody at work. -/
structure Supplied (e₀ : Engine) (as : List Happening) : Prop where
  settled : e₀.site.Settled
  empty : e₀.store.messages = []
  nobody : e₀.crews = []
  supplies : e₀.Throughout Supplies as

theorem claimsOf_le (id : MessageId) (e : Engine) (as : List Happening) : e.claimsOf id as ≤ as.length := by
  induction as generalizing e with
  | nil => exact Nat.le_refl 0
  | cons a as ih =>
    have rest := ih (e.act a)
    simp only [claimsOf, List.length_cons]
    split <;> omega

/-- A claim takes a message that waits. -/
theorem Returns.source (returns : e.Returns a m) (distinct : e.store.Distinct) :
    ∃ m₀ worker now, e.store.get? m.id = some m₀ ∧ m₀.status.isWaiting = true ∧ m = m₀.claim worker now ∧
      (e.act a).store.get? m.id = some m := by
  obtain ⟨now, worker, filter, claimed⟩ := returns
  obtain ⟨m₀, stored, eligible, rfl, after⟩ := Store.tryClaim_some distinct (congrArg Prod.fst claimed)
  rw [claimed] at after
  exact ⟨m₀, worker, now, stored, Store.isWaiting_of_eligible eligible, rfl, (after m₀.id).trans (if_pos rfl)⟩

theorem hands_of_stored {m' : Message} (before : e.store.get? id = some m) (waits : m.status.isWaiting = true)
    (after : (e.act a).store.get? id = some m') (working : m'.status = .working) : e.hands a id = true := by
  rw [hands, before, after, Option.any_some, Option.any_some, waits, working]
  rfl

/-! ## One act -/

/-- What is so in such a run when `as` is still to come. -/
structure Traced (e : Engine) (as : List Happening) : Prop where
  reached : e.Reached
  records : ∀ c ∈ e.crews, ∀ w ∈ c.workers, ∀ m change call, w.stage = .recording m change call →
    change.src = .working
  sourced : ∀ id m, e.store.get? id = some m → m.Sourced
  /-- There are attempts left for all claims to come. -/
  room : ∀ id m, e.store.get? id = some m → m.attempts.toNat + e.claimsOf id as < 2 ^ 32
  few : ∀ id, e.claimsOf id as < 2 ^ 32

namespace Traced

variable {asked : Option Asked}

theorem records_act (traced : e.Traced (a :: as)) (supplies : e.Supplies a) {c' : Crew} (mem : c' ∈ (e.act a).crews)
    {w' : Worker} (mem' : w' ∈ c'.workers) {change : Change} {call : Call Message}
    (recording : w'.stage = .recording m change call) : change.src = .working := by
  rcases act_member traced.reached.sound supplies.allowed mem mem' with
    ⟨c, mem, mem', _⟩ | ⟨starting, _⟩ | ⟨c, mem, w, own, rfl, _⟩
  · exact traced.records c mem w' mem' m change call recording
  · rw [starting] at recording
    cases recording
  · rcases Worker.recording_step recording with ⟨call, recording⟩ | ⟨outcome, _, chosen⟩
    · exact traced.records c mem w own m change call recording
    · exact Worker.outcomeChange_src chosen

/-- All changes are outcomes of work, whoever asks for them. -/
theorem outcomes (traced : e.Traced (a :: as)) (supplies : e.Supplies a) {now : Instant} {change : Change}
    {version : UInt64} (source : a = .request now (.updateStatus id change version) ∨
      ∃ c ∈ e.crews, ∃ c', Crew.Step c c' e.site (e.act a).site (some (now, .updateStatus id change version))) :
    change.src = .working := by
  rcases source with own | ⟨c, mem, c', step⟩
  · exact supplies.outcomes now id change version own
  · obtain ⟨w, mem', m, _, call, recording, same⟩ := (step.records rfl).2 rfl
    cases same
    exact traced.records c mem w mem' m change call recording

/-- What arrives has never been claimed. -/
theorem arrives (supplies : e.Supplies a) {now : Instant} (source : a = .request now (.enqueue m) ∨
      ∃ c ∈ e.crews, ∃ c', Crew.Step c c' e.site (e.act a).site (some (now, .enqueue m))) :
    m.Sourced ∧ m.attempts = 0 := by
  rcases source with own | ⟨c, _, c', step⟩
  · obtain ⟨draft, since, drafted⟩ := supplies.sends now m own
    rw [drafted]
    exact ⟨.ofDraft m.id draft since, rfl⟩
  · exact absurd rfl ((step.records rfl).1 m)

/-- A stored message keeps in order, and a claim of it is one of those there is room for. -/
theorem fate (traced : e.Traced (a :: as)) {t : Served} (met : t.before = e.store) (left : t.after = (e.act a).store)
    (outcomes : ∀ id change version, t.request = .updateStatus id change version → change.src = .working)
    {m' : Message} (before : e.store.get? id = some m) (after : (e.act a).store.get? id = some m') :
    m'.Sourced ∧ m'.attempts.toNat + (e.act a).claimsOf id as < 2 ^ 32 := by
  obtain rfl := Store.get?_id before
  have distinct : t.before.Distinct := met ▸ traced.reached.sound.distinct
  have f : t.Fate m (some m') := after ▸ left ▸ Served.fate distinct (met ▸ before)
  have room := traced.room m.id m before
  rw [claimsOf] at room
  have handed : t.claims m.id = true → e.hands a m.id = true := by
    intro claims
    obtain ⟨out, claimed, same⟩ := Served.claims_iff.mp claims
    obtain ⟨m₀, worker, _, _, stored, eligible, rfl, kept⟩ := Served.claimed?_some distinct claimed
    rw [same] at stored kept
    have waits := Store.isWaiting_of_eligible eligible
    exact hands_of_stored (met ▸ stored) waits (left ▸ kept) rfl
  have few : t.claims m.id = true → m.attempts.toNat + 1 < 2 ^ 32 := by
    intro claims
    rw [if_pos (handed claims)] at room
    omega
  refine ⟨f.sourced (traced.sourced m.id m before) outcomes few, ?_⟩
  cases claims : t.claims m.id with
  | false =>
    rw [f.attempts claims]
    omega
  | true =>
    obtain ⟨m₀, worker, stored, kept⟩ := Ledger.claims_stored distinct claims
    obtain rfl : m₀ = m := Option.some.inj (stored.symm.trans (met ▸ before))
    obtain rfl : m' = m₀.claim worker t.now := Option.some.inj (after.symm.trans (left ▸ kept))
    show (m₀.attempts + 1).toNat + _ < _
    rw [if_pos (handed claims)] at room
    rw [toNat_succ (few claims)]
    omega

/-- Every stored message after an act. -/
theorem stored (traced : e.Traced (a :: as)) (supplies : e.Supplies a) {m' : Message}
    (after : (e.act a).store.get? id = some m') :
    m'.Sourced ∧ m'.attempts.toNat + (e.act a).claimsOf id as < 2 ^ 32 := by
  obtain ⟨asked, follows, source⟩ := act_source traced.reached.sound a
  have store : (e.act a).store = e.store.after asked := follows.store
  have few := traced.few id
  rw [claimsOf] at few
  cases before : e.store.get? id with
  | none =>
    obtain ⟨now, rfl⟩ := Store.arrival_after before (store ▸ after)
    obtain ⟨sourced, untried⟩ := arrives supplies (source now _ rfl)
    refine ⟨sourced, ?_⟩
    rw [untried]
    show 0 + _ < _
    omega
  | some m =>
    rcases asked with _ | ⟨now, r⟩
    · -- nothing is asked, and the store is as before
      obtain rfl : m' = m := Option.some.inj (after.symm.trans ((congrArg (·.get? id) store).trans before))
      have room := traced.room id m' before
      rw [claimsOf] at room
      exact ⟨traced.sourced id m' before, by omega⟩
    · refine traced.fate (t := ⟨now, r, e.store⟩) rfl store.symm ?_ before after
      rintro i change version rfl
      exact traced.outcomes supplies (source now _ rfl)

theorem act (traced : e.Traced (a :: as)) (supplies : e.Supplies a) : (e.act a).Traced as where
  reached := .act e a traced.reached supplies.allowed
  records := fun _ mem _ mem' _ _ _ recording => traced.records_act supplies mem mem' recording
  sourced id m after := (traced.stored supplies after).1
  room id m after := (traced.stored supplies after).2
  few id := by
    have few := traced.few id
    rw [claimsOf] at few
    omega

theorem acts {bs : List Happening} (traced : e.Traced (as ++ bs)) (supplies : e.Throughout Supplies (as ++ bs)) :
    (e.acts as).Traced bs := by
  induction as generalizing e with
  | nil => exact traced
  | cons a as ih => exact ih (traced.act (supplies [] a (as ++ bs) rfl)) supplies.tail

/-- What a claim returns tells the status that the message had. -/
theorem claimedFrom (traced : e.Traced (a :: as)) (returns : e.Returns a m) :
    ∃ m₀, e.store.get? m.id = some m₀ ∧ m.claimedFrom = m₀.status := by
  obtain ⟨m₀, worker, now, before, waits, made, after⟩ := returns.source traced.reached.sound.distinct
  have room := traced.room m.id m₀ before
  rw [claimsOf, if_pos (hands_of_stored before waits after (by rw [made]; rfl))] at room
  refine ⟨m₀, before, ?_⟩
  rw [made]
  exact (traced.sourced m.id m₀ before).claimedFrom waits (by omega) worker now

end Traced

namespace Supplied

theorem distinct (run : Supplied e₀ as) : e₀.store.Distinct := by
  rw [Store.Distinct, run.empty]
  exact List.nodup_nil

theorem start (run : Supplied e₀ as) (few : ∀ id, e₀.claimsOf id as < 2 ^ 32) : e₀.Traced as := by
  have nothing : ∀ id m, e₀.store.get? id ≠ some m := by
    intro id m stored
    have mem := Store.mem_of_get? stored
    rw [run.empty] at mem
    cases mem
  refine ⟨.start e₀ run.settled run.distinct run.nobody, ?_, fun id m stored => absurd stored (nothing id m),
    fun id m stored => absurd stored (nothing id m), few⟩
  rw [run.nobody]
  exact fun _ => nofun

theorem left {bs : List Happening} (run : Supplied e₀ (as ++ bs)) : Supplied e₀ as :=
  ⟨run.settled, run.empty, run.nobody, run.supplies.left⟩

theorem reached (run : Supplied e₀ as) : (e₀.acts as).Reached :=
  run.supplies.induct (.start e₀ run.settled run.distinct run.nobody) fun e a reached supplies =>
    .act e a reached supplies.allowed

/-- What a worker has in hand a claim returned, in an act of the run. -/
theorem returned (run : Supplied e₀ as) : ∀ c ∈ (e₀.acts as).crews, ∀ w ∈ c.workers, ∀ m, w.hand? = some m →
    ∃ before a after, as = before ++ a :: after ∧ (e₀.acts before).Returns a m := by
  induction as using List.reverseRecOn with
  | nil =>
    rw [show (e₀.acts []).crews = [] from run.nobody]
    exact fun _ => nofun
  | append_singleton as a ih =>
    intro c' mem w' mem' m hand
    have sound := run.left.reached.sound
    have earlier : ∀ c ∈ (e₀.acts as).crews, ∀ w ∈ c.workers, w.hand? = some m →
        ∃ before b after, as ++ [a] = before ++ b :: after ∧ (e₀.acts before).Returns b m := by
      intro c mem w mem' hand
      obtain ⟨before, b, after, split, returns⟩ := ih run.left c mem w mem' m hand
      exact ⟨before, b, after ++ [a], by simp [split], returns⟩
    rw [acts_append] at mem
    rcases act_member sound run.supplies.last.allowed mem mem' with
      ⟨c, mem, mem', _⟩ | ⟨starting, _⟩ | ⟨c, mem, w, own, rfl, site⟩
    · exact earlier c mem w' mem' hand
    · rw [Worker.hand?, starting] at hand
      cases hand
    · rcases Worker.hand_new sound.settled w hand with had | claimed
      · exact earlier c mem w own had
      · rw [← site] at claimed
        exact ⟨as, a, [], rfl, _, _, _, claimed⟩

end Supplied

end Engine

/-- In every run with fewer than 2³² claims under each id, a message that a claim returns tells the status it
had in the store just before. And when a worker logs the transition of a message that it is about to hand to its
handler, then a claim returned the message in the run, and what is logged is what that claim did to its status. -/
theorem claim_source_true {e₀ : Engine} {as : List Happening} (run : Engine.Supplied e₀ as)
    (few : ∀ id, e₀.claimsOf id as < 2 ^ 32) :
    let e := e₀.acts as
    (∀ before a after, as = before ++ a :: after → ∀ m, (e₀.acts before).Returns a m →
      ∃ m₀, (e₀.acts before).store.get? m.id = some m₀ ∧ m.claimedFrom = m₀.status) ∧
    ∀ c ∈ e.crews, ∀ w ∈ c.workers, ∀ m, w.stage = .opening m →
      ∃ before a after m₀ scopes, as = before ++ a :: after ∧ (e₀.acts before).Returns a m ∧
        (e₀.acts before).store.get? m.id = some m₀ ∧ (e₀.acts (before ++ [a])).store.get? m.id = some m ∧
        (w.step ⟨e.site, c.desk⟩).2.site.log = ⟨.transition m₀.status m.status, scopes⟩ :: e.site.log := by
  intro e
  have traced := run.start few
  have told : ∀ before a after, as = before ++ a :: after → ∀ m, (e₀.acts before).Returns a m →
      ∃ m₀, (e₀.acts before).store.get? m.id = some m₀ ∧ m.claimedFrom = m₀.status := by
    rintro before a after rfl m returns
    exact (traced.acts run.supplies).claimedFrom returns
  refine ⟨told, fun c mem w mem' m opening => ?_⟩
  have hand : w.hand? = some m := by rw [Worker.hand?, opening]
  obtain ⟨before, a, after, split, returns⟩ := run.returned c mem w mem' m hand
  obtain ⟨m₀, stored, source⟩ := told before a after split m returns
  have distinct : (e₀.acts before).store.Distinct := (split ▸ run).left.reached.sound.distinct
  obtain ⟨_, worker, now, _, _, made, kept⟩ := returns.source distinct
  have working : m.status = .working := by
    rw [made]
    rfl
  refine ⟨before, a, after, m₀, [w.scope e.site.queue m .working], split, returns, stored, ?_, ?_⟩
  · rw [Engine.acts_append]
    exact kept
  · rw [← source, working]
    unfold Worker.step
    rw [opening]
    rfl

namespace Engine

variable {e : Engine}

theorem Supplies.send {id : MessageId} {draft : Draft} {since now : Instant}
    (allowed : e.allows (.request now (.enqueue (.ofDraft id draft since))) = true) :
    e.Supplies (.request now (.enqueue (.ofDraft id draft since))) := by
  refine ⟨allowed, fun _ _ made => ?_, fun _ _ _ _ => nofun⟩
  cases made
  exact ⟨draft, since, rfl⟩

theorem Supplies.join {config : QueueConfig} {filter : ClaimFilter} {ids : List WorkerId} {duties : List Duty}
    (allowed : e.allows (.join config filter ids duties) = true) : e.Supplies (.join config filter ids duties) :=
  ⟨allowed, fun _ _ => nofun, fun _ _ _ _ => nofun⟩

theorem supplies_inner {as : List Happening} (inner : as.all isInner = true) : e.Throughout Supplies as := by
  rintro before a after rfl
  have own : isInner a = true := List.all_eq_true.mp inner a (by simp)
  cases a with
  | move | wait => exact ⟨rfl, fun _ _ => nofun, fun _ _ _ _ => nofun⟩
  | _ => cases own

end Engine

namespace Again

open Happening (moves)

def config : QueueConfig := { retryDelays := RetryDelays.none.insert "flaky" (.ofMillis [5000]) }

def queue : Engine := .blank {} fun _ => [{ ending := .fault { kind := "flaky", message := "no" } }]

/-- A worker claims a message before anybody promoted it. -/
def first : List Happening :=
  [.request .epoch (.enqueue (.ofDraft .nil { type := "job", body := [], delay := some (.ofMillis 1000) } .epoch)),
    .join config {} [⟨"only"⟩] []] ++ ([.wait (.ticking .epoch) 2000] ++ moves (.worker 0) 6)

/-- The handler fails, and the worker claims the message again after the wait. -/
def rest : List Happening := moves (.worker 0) 8 ++ [.wait (.ticking .epoch) 8000] ++ moves (.worker 0) 5

theorem supplied : Engine.Supplied queue (first ++ rest) where
  settled := Engine.settled_blank _ _
  empty := rfl
  nobody := rfl
  supplies := by
    refine .append (.append ?_ (Engine.supplies_inner (by decide))) (Engine.supplies_inner (by decide))
    exact .cons (.send rfl) (.cons (.join (by decide)) .nil)

/-- Is a worker about to open a message that was put off and came from `status`? -/
def opens (status : Status) (e : Engine) : Bool :=
  e.crews.any fun c => c.workers.any fun w =>
    match w.stage with
    | .opening m => m.claimedFrom == status && m.isPutOff
    | _ => false

end Again

/-- Both claims return the message with its visibility past its queueing; it had been delayed before the first, and
pending before the second. -/
theorem claim_source_true_again :
    let claimedFrom (status : Status) (as : List Happening) : Prop :=
      ∃ before a after m m₀, as = before ++ a :: after ∧ (Again.queue.acts before).Returns a m ∧ m.isPutOff = true ∧
        (Again.queue.acts before).store.get? m.id = some m₀ ∧ m₀.status = status
    claimedFrom .delayed Again.first ∧ claimedFrom .pending (Again.first ++ Again.rest) := by
  -- from a worker that is about to open a message back to the claim that returned it
  have back : ∀ {as status}, Engine.Supplied Again.queue as → as.length < 2 ^ 32 →
      Again.opens status (Again.queue.acts as) = true →
      ∃ before a after m m₀, as = before ++ a :: after ∧ (Again.queue.acts before).Returns a m ∧ m.isPutOff = true ∧
        (Again.queue.acts before).store.get? m.id = some m₀ ∧ m₀.status = status := by
    intro as status run short opens
    have main := claim_source_true run fun id => Nat.lt_of_le_of_lt (Engine.claimsOf_le id _ as) short
    obtain ⟨c, mem, opens⟩ := List.any_eq_true.mp opens
    obtain ⟨w, mem', opens⟩ := List.any_eq_true.mp opens
    split at opens
    · rename_i m opening
      simp only [Bool.and_eq_true, beq_iff_eq] at opens
      obtain ⟨source, putOff⟩ := opens
      obtain ⟨before, a, after, m₀, _, split, returns, stored, _⟩ := main.2 c mem w mem' m opening
      obtain ⟨m₁, stored', told⟩ := main.1 before a after split m returns
      obtain rfl : m₀ = m₁ := Option.some.inj (stored.symm.trans stored')
      exact ⟨before, a, after, m, m₀, split, returns, putOff, stored, told.symm.trans source⟩
    · cases opens
  exact ⟨back Again.supplied.left (by decide) (by decide +kernel), back Again.supplied (by decide) (by decide +kernel)⟩

end ClaimQueue
