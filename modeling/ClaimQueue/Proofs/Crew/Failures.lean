/-
  ClaimQueue.Proofs.Crew.Failures — failures, counted and paid for.

  Crews with one configuration work at one store. A worker decides what a failure costs from
  the message in its hand, and the store counts it later; in between others may have changed
  the message, but then its version has moved on and the store refuses the record. So what
  the worker saw is what the store counts (`Accounts.accepted`), and every message squares
  with the changes that were made to it (`Accounts.accounted`).

  `Shared` is a run of such crews: others may ask for anything but outcomes, what is sent
  is new or still there, no version is the last one, and of no kind does a message fail
  2³² times. Main statement: `failures_accounted`.
-/

import ClaimQueue.Proofs.Crew.Members
import ClaimQueue.Proofs.Work.Decisions

namespace ClaimQueue

namespace Engine

variable {e : Engine} {a : Happening}

/-! ## One act -/

/-- In an act the store serves `asked`, if anything. What is not asked by somebody else sends nothing, and if
it is an outcome, then a worker records it. -/
structure Serves (e : Engine) (a : Happening) (asked : Option Asked) : Prop where
  site : e.site.Follows asked (e.act a).site
  source : ∀ now r, asked = some (now, r) → a = .request now r ∨
    ((∀ m, r ≠ .enqueue m) ∧ (r.isOutcome = true → ∃ c ∈ e.crews, ∃ w ∈ c.workers, w.records r))

theorem act_serves (sound : e.Sound) (a : Happening) : ∃ asked, e.Serves a asked := by
  obtain ⟨asked, follows, source⟩ := act_source sound a
  refine ⟨asked, follows, fun now r made => ?_⟩
  rcases source now r made with own | ⟨c, mem, c', step⟩
  · exact Or.inl own
  · obtain ⟨silent, records⟩ := step.records made
    exact Or.inr ⟨silent, fun outcome => ⟨c, mem, records outcome⟩⟩

/-! ## Runs of crews with one configuration -/

/-- Is a worker about to decide what `outcome` of `m` comes to? -/
def Settles (e : Engine) (m : Message) (outcome : Outcome) (now : Instant) : Prop :=
  e.now = now ∧ ∃ c ∈ e.crews, ∃ w ∈ c.workers, w.stage = .settling m outcome

/-- Did a worker decide on `outcome` of `m` at `now`, somewhere in the run? -/
def Decided (e₀ : Engine) (as : List Happening) (m : Message) (outcome : Outcome) (now : Instant) : Prop :=
  ∃ before, before <+: as ∧ (e₀.acts before).Settles m outcome now

/-- Did a worker decide on the change for `m`, somewhere in the run? -/
def Chose (config : QueueConfig) (e₀ : Engine) (as : List Happening) (m : Message) (change : Change) : Prop :=
  ∃ outcome now, Decided e₀ as m outcome now ∧
    Worker.outcomeChange config e₀.site.backend.capabilities.rollback now m outcome = some change

/-- An act in a run of crews that share a configuration and leave all outcomes to their workers. -/
structure Shares (config : QueueConfig) (e : Engine) (a : Happening) : Prop where
  allowed : e.allows a = true
  joins : ∀ config' filter ids duties, a = .join config' filter ids duties → config' = config
  outcomes : ∀ now r, a = .request now r → r.isOutcome = false
  /-- What is sent was never worked on, and it is new, or it is still there. -/
  sends : ∀ now m, a = .request now (.enqueue m) →
    m.status.isWaiting = true ∧ m.failures = .empty ∧ (m.id ∈ e.site.sent → e.store.get? m.id ≠ none)
  roomy : (e.act a).site.Roomy
  few : ∀ id kind, Change.failures ((e.act a).site.changes id) kind < 2 ^ 32

/-- The runs of such crews; they start with nobody at work and nothing sent. -/
inductive Shared (config : QueueConfig) (e₀ : Engine) : List Happening → Prop
  | start : e₀.site.Settled → e₀.site.journal = [] → e₀.store.messages = [] → e₀.crews = [] → Shared config e₀ []
  | act (as : List Happening) (a : Happening) : Shared config e₀ as → (e₀.acts as).Shares config a →
      Shared config e₀ (as ++ [a])

variable {config : QueueConfig} {e₀ : Engine} {as : List Happening}

theorem Decided.later {m : Message} {outcome : Outcome} {now : Instant} (decided : Decided e₀ as m outcome now) :
    Decided e₀ (as ++ [a]) m outcome now := by
  obtain ⟨before, within, settles⟩ := decided
  exact ⟨before, within.trans (List.prefix_append as [a]), settles⟩

theorem Chose.later {m : Message} {change : Change} (chose : Chose config e₀ as m change) :
    Chose config e₀ (as ++ [a]) m change := by
  obtain ⟨outcome, now, decided, chosen⟩ := chose
  exact ⟨outcome, now, decided.later, chosen⟩

namespace Shared

theorem reached (run : Shared config e₀ as) : (e₀.acts as).Reached := by
  induction run with
  | start settled _ empty nobody =>
    refine .start _ settled ?_ nobody
    show (e₀.store.messages.map (·.id)).Nodup
    rw [empty]
    exact List.nodup_nil
  | act as a _ shares ih =>
    rw [acts_append]
    exact .act _ a ih shares.allowed

theorem stored_nothing (empty : e₀.store.messages = []) (id : MessageId) : e₀.store.get? id = none := by
  rw [Store.get?, empty]
  rfl

theorem changes_nil (journal : e₀.site.journal = []) (id : MessageId) : e₀.site.changes id = [] := by
  simp [Site.changes, Site.answers, journal]

theorem roomy (run : Shared config e₀ as) : (e₀.acts as).site.Roomy := by
  cases run with
  | start _ _ empty =>
    intro id m stored
    rw [show (e₀.acts []).site.store.get? id = none from stored_nothing empty id] at stored
    cases stored
  | act as a _ shares =>
    rw [acts_append]
    exact shares.roomy

theorem few (run : Shared config e₀ as) (id : MessageId) (kind : String) :
    Change.failures ((e₀.acts as).site.changes id) kind < 2 ^ 32 := by
  cases run with
  | start _ journal =>
    have unmade : (e₀.acts []).site.changes id = [] := changes_nil journal id
    rw [unmade]
    exact Nat.two_pow_pos 32
  | act as a _ shares =>
    rw [acts_append]
    exact shares.few id kind

end Shared

/-- What is so in every run of such crews. -/
structure Accounts (config : QueueConfig) (e₀ : Engine) (as : List Happening) (e : Engine) : Prop where
  capabilities : e.site.backend.capabilities = e₀.site.backend.capabilities
  configs : ∀ c ∈ e.crews, c.desk.config = config
  sent : ∀ id m, e.site.store.get? id = some m → id ∈ e.site.sent
  changed : ∀ id, e.site.changes id ≠ [] → id ∈ e.site.sent
  known : ∀ c ∈ e.crews, ∀ w ∈ c.workers, ∀ m, w.hand? = some m → e.site.Knows m
  /-- What a worker records was decided on. -/
  pending : ∀ c ∈ e.crews, ∀ w ∈ c.workers, ∀ m change call, w.stage = .recording m change call →
    Chose config e₀ as m change
  accounted : ∀ id m, e.site.store.get? id = some m →
    m.Accounted config e₀.site.backend.capabilities.rollback (e.site.changes id)
  /-- Every change was decided on from the failures that were made before it. -/
  decided : ∀ id newer change older, e.site.changes id = newer ++ change :: older →
    ∃ m, Chose config e₀ as m change ∧ m.id = id ∧ ∀ kind, (m.failuresOf kind).toNat = Change.failures older kind

namespace Shares

variable {asked : Option Asked}

theorem fresh (shares : e.Shares config a) (serves : e.Serves a asked) : e.site.Fresh asked := by
  intro now m sends
  rcases serves.source now _ sends with own | ⟨silent, _⟩
  · exact (shares.sends now m own).2.2
  · exact absurd rfl (silent m)

/-- All outcomes are those of workers. -/
theorem records (shares : e.Shares config a) (serves : e.Serves a asked) {now : Instant} {r : Request}
    (made : asked = some (now, r)) (outcome : r.isOutcome = true) : ∃ c ∈ e.crews, ∃ w ∈ c.workers, w.records r := by
  rcases serves.source now r made with own | ⟨_, records⟩
  · rw [shares.outcomes now r own] at outcome
    cases outcome
  · exact records outcome

end Shares

namespace Accounts

variable {asked : Option Asked} {id : MessageId} {m : Message} {change : Change} {now : Instant}

/-- Who records a change has seen the message as it is now, but for the heartbeat. -/
theorem accepted (accounts : Accounts config e₀ as e) (shares : e.Shares config a) (serves : e.Serves a asked)
    (made : asked = some (now, .updateStatus id change m.version)) (stored : e.site.store.get? id = some m) :
    ∃ seen beat, m = { seen with heartbeatAt := beat } ∧ Chose config e₀ as seen change := by
  obtain ⟨c, mem, w, mem', seen, _, call, recording, same⟩ := shares.records serves made rfl
  injection same with id_eq change_eq version_eq
  subst id_eq change_eq
  have chose := accounts.pending c mem w mem' seen _ call recording
  have hand : w.hand? = some seen := by rw [Worker.hand?, recording]
  rcases (accounts.known c mem w mem' seen hand).stored m stored with ⟨beat, same⟩ | older
  · exact ⟨seen, beat, same, chose⟩
  · rw [version_eq] at older
    exact absurd older (Nat.lt_irrefl _)

theorem knows_act (accounts : Accounts config e₀ as e) (sound : e.Sound) (roomy : e.site.Roomy)
    (shares : e.Shares config a) (serves : e.Serves a asked) {c' : Crew} (mem : c' ∈ (e.act a).crews) {w' : Worker}
    (mem' : w' ∈ c'.workers) (hand : w'.hand? = some m) : (e.act a).site.Knows m := by
  have kept : ∀ c ∈ e.crews, ∀ w ∈ c.workers, w.hand? = some m → (e.act a).site.Knows m := fun c mem w mem' hand =>
    serves.site.knows sound.distinct (shares.fresh serves) roomy (accounts.known c mem w mem' m hand)
  rcases act_member sound shares.allowed mem mem' with
    ⟨c, mem, mem', _⟩ | ⟨starting, _⟩ | ⟨c, mem, w, mem', moved, site⟩
  · exact kept c mem w' mem' hand
  · rw [Worker.hand?, starting] at hand
    cases hand
  · rw [moved] at hand
    rcases Worker.hand_step (s := ⟨e.site, c.desk⟩) sound.settled sound.distinct w with same | empty | ⟨m', got, stored⟩
    · exact kept c mem w mem' (same ▸ hand)
    · rw [empty] at hand
      cases hand
    · rw [got] at hand
      cases hand
      rw [← site] at stored
      refine ⟨serves.site.stored_sent sound.distinct accounts.sent m.id m stored, fun m' again => ?_⟩
      rw [stored] at again
      cases again
      exact Or.inl ⟨m.heartbeatAt, rfl⟩

theorem pending_act (accounts : Accounts config e₀ as e) (here : e₀.acts as = e) (sound : e.Sound)
    (shares : e.Shares config a) {c' : Crew} (mem : c' ∈ (e.act a).crews) {w' : Worker} (mem' : w' ∈ c'.workers)
    {call : Call Message} (recording : w'.stage = .recording m change call) : Chose config e₀ (as ++ [a]) m change := by
  rcases act_member sound shares.allowed mem mem' with
    ⟨c, mem, mem', _⟩ | ⟨starting, _⟩ | ⟨c, mem, w, mem', moved, _⟩
  · exact (accounts.pending c mem w' mem' m change call recording).later
  · rw [starting] at recording
    cases recording
  · rw [moved] at recording
    rcases Worker.recording_step recording with ⟨call, recording⟩ | ⟨outcome, settling, chosen⟩
    · exact (accounts.pending c mem w mem' m change call recording).later
    · rw [accounts.configs c mem, accounts.capabilities] at chosen
      refine ⟨outcome, e.now, ⟨as, List.prefix_append as [a], ?_⟩, chosen⟩
      rw [here]
      exact ⟨rfl, c, mem, w, mem', settling⟩

/-- Nothing was made of a message that is new in the store, because it was not sent before. -/
theorem changes_new (accounts : Accounts config e₀ as e) (shares : e.Shares config a) (serves : e.Serves a asked)
    (absent : e.site.store.get? m.id = none) (sends : asked = some (now, .enqueue m)) : e.site.changes m.id = [] :=
  Classical.byContradiction fun made => shares.fresh serves now m sends (accounts.changed m.id made) absent

theorem accounted_act (accounts : Accounts config e₀ as e) (sound : e.Sound) (shares : e.Shares config a)
    (serves : e.Serves a asked) (stored : (e.act a).site.store.get? id = some m) :
    m.Accounted config e₀.site.backend.capabilities.rollback ((e.act a).site.changes id) := by
  rcases serves.site.outcome sound.distinct id with ⟨m₀, now, change, made, before, src, changes, after⟩ |
    ⟨changes, grows⟩
  · obtain ⟨seen, beat, same, outcome, decided, _, chosen⟩ := accounts.accepted shares serves made before
    have working : m₀.status = .working := src.symm.trans (Worker.outcomeChange_src chosen)
    have few := shares.few id
    rw [after] at stored
    cases stored
    rw [changes] at few ⊢
    exact (accounts.accounted id m₀ before).made working (by rw [same]) chosen now few
  · rw [changes]
    rcases grows m stored with ⟨absent, now, sends⟩ | ⟨m₀, before, ages⟩
    · obtain rfl := Store.get?_id stored
      rw [accounts.changes_new shares serves absent sends]
      rcases serves.source now _ sends with own | ⟨silent, _⟩
      · obtain ⟨waits, unfailed, _⟩ := shares.sends now m own
        exact .unworked waits unfailed
      · exact absurd rfl (silent m)
    · exact (accounts.accounted id m₀ before).ages ages

theorem decided_act (accounts : Accounts config e₀ as e) (sound : e.Sound) (shares : e.Shares config a)
    (serves : e.Serves a asked) {newer older : List Change}
    (split : (e.act a).site.changes id = newer ++ change :: older) :
    ∃ m, Chose config e₀ (as ++ [a]) m change ∧ m.id = id ∧
      ∀ kind, (m.failuresOf kind).toNat = Change.failures older kind := by
  have kept : ∀ newer, e.site.changes id = newer ++ change :: older →
      ∃ m, Chose config e₀ (as ++ [a]) m change ∧ m.id = id ∧
        ∀ kind, (m.failuresOf kind).toNat = Change.failures older kind := by
    intro newer split
    obtain ⟨m, chose, rest⟩ := accounts.decided id newer change older split
    exact ⟨m, chose.later, rest⟩
  rcases serves.site.outcome sound.distinct id with ⟨m₀, now, change', made, before, _, changes, _⟩ | ⟨changes, _⟩
  · rw [changes] at split
    cases newer with
    | nil =>
      obtain ⟨rfl, rfl⟩ := List.cons.inj split
      obtain ⟨seen, beat, rfl, chose⟩ := accounts.accepted shares serves made before
      have named := Store.get?_id before
      exact ⟨seen, chose.later, named, (accounts.accounted id _ before).counted⟩
    | cons first newer => exact kept newer (List.cons.inj split).2
  · rw [changes] at split
    exact kept newer split

theorem act (accounts : Accounts config e₀ as e) (here : e₀.acts as = e) (sound : e.Sound) (roomy : e.site.Roomy)
    (shares : e.Shares config a) : Accounts config e₀ (as ++ [a]) (e.act a) := by
  obtain ⟨asked, serves⟩ := act_serves sound a
  refine ⟨serves.site.capabilities.trans accounts.capabilities, ?_, ?_, ?_, ?_, ?_, ?_, ?_⟩
  · intro c' mem
    obtain ⟨i, found⟩ := List.mem_iff_getElem?.mp mem
    rcases act_sees sound shares.allowed found with ⟨c, before, seen⟩ | ⟨_, config', filter, ids, duties, joins, rfl⟩
    · exact seen.config.trans (accounts.configs c (List.mem_of_getElem? before))
    · exact shares.joins config' filter ids duties joins
  · exact serves.site.stored_sent sound.distinct accounts.sent
  · intro id made
    rcases serves.site.outcome sound.distinct id with ⟨m, _, _, _, before, _⟩ | ⟨changes, _⟩
    · exact serves.site.mem_sent (accounts.sent id m before)
    · exact serves.site.mem_sent (accounts.changed id (changes ▸ made))
  · exact fun c mem w mem' m hand => accounts.knows_act sound roomy shares serves mem mem' hand
  · exact fun c mem w mem' m change call recording => accounts.pending_act here sound shares mem mem' recording
  · exact fun id m stored => accounts.accounted_act sound shares serves stored
  · exact fun id newer change older split => accounts.decided_act sound shares serves split

end Accounts

theorem Shared.accounts (run : Shared config e₀ as) : Accounts config e₀ as (e₀.acts as) := by
  induction run with
  | start settled journal empty nobody =>
    have unmade : ∀ id, (e₀.acts []).site.changes id = [] := Shared.changes_nil journal
    have unstaffed : (e₀.acts []).crews = [] := nobody
    have nothing : ∀ id m, (e₀.acts []).site.store.get? id ≠ some m := by
      intro id m stored
      rw [show (e₀.acts []).site.store.get? id = none from Shared.stored_nothing empty id] at stored
      cases stored
    refine ⟨rfl, ?_, fun id m stored => absurd stored (nothing id m), fun id some => absurd (unmade id) some, ?_, ?_,
      fun id m stored => absurd stored (nothing id m), ?_⟩
    · rw [unstaffed]
      exact fun _ => nofun
    · rw [unstaffed]
      exact fun _ => nofun
    · rw [unstaffed]
      exact fun _ => nofun
    · intro id newer change older split
      rw [unmade] at split
      simp at split
  | act as a run shares ih =>
    rw [acts_append]
    exact ih.act rfl run.reached.sound run.roomy shares

end Engine

/-- In every run of crews that share a configuration, each stored message has the failures of each kind that
the store accepted for it; one that has not ended has failed at most as often as there are steps, and it is in
error exactly if one of its failures was given up on. All that the store accepted are outcomes of handlers, and
each failure that went back to pending waits for the step of its kind at the count of those before it. -/
theorem failures_accounted {config : QueueConfig} {e₀ : Engine} {as : List Happening}
    (run : Engine.Shared config e₀ as) :
    let e := e₀.acts as
    (∀ id m, e.store.get? id = some m →
      (∀ kind, (m.failuresOf kind).toNat = Change.failures (e.site.changes id) kind) ∧
      (m.status.isTerminal = false → ∀ kind, (m.failuresOf kind).toNat ≤ config.retryDelays.steps kind) ∧
      (m.status = .error ↔ Change.GaveUp config e₀.site.backend.capabilities.rollback (e.site.changes id))) ∧
    ∀ id newer change older, e.site.changes id = newer ++ change :: older →
      ∃ m outcome now, Engine.Decided e₀ as m outcome now ∧ m.id = id ∧ change.failure = outcome.failure? ∧
        ∀ kind, change.failure = some kind → change.dst = .pending →
          ∃ delay, config.retryDelays.step? kind (Change.failures older kind) = some delay ∧
            change.visibleAt = if delay.isZero then none else now.add? delay := by
  intro e
  have accounts := run.accounts
  refine ⟨fun id m stored => ?_, fun id newer change older split => ?_⟩
  · have accounted := accounts.accounted id m stored
    exact ⟨accounted.counted, accounted.bounded, accounted.ended⟩
  · obtain ⟨m, ⟨outcome, now, decided, chosen⟩, named, counted⟩ := accounts.decided id newer change older split
    refine ⟨m, outcome, now, decided, named, Worker.outcomeChange_failure chosen, fun kind counts back => ?_⟩
    have room : (m.failuresOf kind).toNat + 1 < 2 ^ 32 := by
      calc (m.failuresOf kind).toNat + 1
          = Change.failures (change :: older) kind := by rw [Change.failures_cons, if_pos counts, counted]
        _ ≤ Change.failures (e.site.changes id) kind := by
          rw [split]
          exact (List.sublist_append_right newer _).countP_le
        _ < 2 ^ 32 := run.few id kind
    rw [← counted kind]
    exact Worker.outcomeChange_requeue chosen counts back room

namespace Engine

/-- Is there room for another version of every message, and for more failures? -/
def hasRoom (e : Engine) : Bool :=
  e.store.messages.all (fun m => decide (m.version.toNat + 1 < 2 ^ 64)) && decide (e.site.journal.length < 2 ^ 32)

/-- Are these steps of crews and waits, with room after each? -/
def staysRoomy (e : Engine) : List Happening → Bool
  | [] => true
  | .move t :: as => (e.act (.move t)).hasRoom && (e.act (.move t)).staysRoomy as
  | .wait clock time :: as => (e.act (.wait clock time)).hasRoom && (e.act (.wait clock time)).staysRoomy as
  | _ => false

theorem roomy_of_hasRoom {e : Engine} (room : e.hasRoom = true) :
    e.site.Roomy ∧ ∀ id kind, Change.failures (e.site.changes id) kind < 2 ^ 32 := by
  obtain ⟨versions, entries⟩ := Bool.and_eq_true_iff.mp room
  refine ⟨fun id m stored => ?_, fun id kind => ?_⟩
  · exact of_decide_eq_true (List.all_eq_true.mp versions m (Store.mem_of_get? stored))
  · calc Change.failures (e.site.changes id) kind
        ≤ (e.site.changes id).length := List.countP_le_length
      _ ≤ e.site.answers.length := List.length_filterMap_le _ _
      _ ≤ (e.site.journal.map (·.2)).length := List.length_filter_le _ _
      _ = e.site.journal.length := List.length_map _
      _ < 2 ^ 32 := of_decide_eq_true entries

variable {config : QueueConfig} {e : Engine}

theorem Shares.join {filter : ClaimFilter} {ids : List WorkerId} {duties : List Duty}
    (allowed : e.allows (.join config filter ids duties) = true)
    (room : (e.act (.join config filter ids duties)).hasRoom = true) : e.Shares config (.join config filter ids duties) := by
  obtain ⟨roomy, few⟩ := roomy_of_hasRoom room
  refine ⟨allowed, fun _ _ _ _ joins => ?_, fun _ _ => nofun, fun _ _ => nofun, roomy, few⟩
  cases joins
  rfl

theorem Shares.send {now : Instant} {m : Message} (allowed : e.allows (.request now (.enqueue m)) = true)
    (waits : m.status.isWaiting = true) (unfailed : m.failures = .empty) (new : m.id ∉ e.site.sent)
    (room : (e.act (.request now (.enqueue m))).hasRoom = true) : e.Shares config (.request now (.enqueue m)) := by
  obtain ⟨roomy, few⟩ := roomy_of_hasRoom room
  refine ⟨allowed, fun _ _ _ _ => nofun, fun _ _ made => ?_, fun _ _ made => ?_, roomy, few⟩
  · cases made
    rfl
  · cases made
    exact ⟨waits, unfailed, fun sent => absurd sent new⟩

theorem Shared.stays {e₀ : Engine} {as bs : List Happening} (run : Shared config e₀ as)
    (room : (e₀.acts as).staysRoomy bs = true) : Shared config e₀ (as ++ bs) := by
  induction bs generalizing as with
  | nil => exact as.append_nil.symm ▸ run
  | cons b bs ih =>
    rw [List.append_cons]
    cases b with
    | move | wait =>
      obtain ⟨now, later⟩ := Bool.and_eq_true_iff.mp room
      obtain ⟨roomy, few⟩ := roomy_of_hasRoom now
      refine ih (.act as _ run ⟨rfl, fun _ _ _ _ => nofun, fun _ _ => nofun, fun _ _ => nofun, roomy, few⟩) ?_
      rw [acts_append]
      exact later
    | _ => cases room

end Engine

namespace Flaky

open Happening (moves)

/-- A kind of failure that is tried again once. -/
def config : QueueConfig :=
  { retryDelays := RetryDelays.none.insert "flaky" (.ofMillis [10]), retention := .archive }

def queue : Engine := .blank {} fun _ => [{ ending := .fault { kind := "flaky", message := "no" } }]

def start : List Happening := [.join config {} [⟨"only"⟩] [], .request .epoch (.enqueue (.blank .nil))]

/-- The handler fails, and fails again after the wait. -/
def acts : List Happening := start ++ (moves (.worker 0) 13 ++ [.wait (.ticking .epoch) 10] ++ moves (.worker 0) 13)

/-- What becomes of the first failure. -/
def again : Change := (Change.requeue "flaky: no" (Instant.epoch.add? (.ofMillis 10))).counting "flaky"

theorem shared : Engine.Shared config queue acts := by
  have fresh : Engine.Shared config queue [] := .start (Engine.settled_blank _ _) rfl rfl rfl
  have joined : Engine.Shared config queue [.join config {} [⟨"only"⟩] []] := .act [] _ fresh (.join (by decide) rfl)
  have started : Engine.Shared config queue start :=
    .act _ _ joined (.send (by decide) rfl rfl nofun (by decide +kernel))
  exact started.stays (by decide +kernel)

end Flaky

/-- The message fails once more than there are steps: the first time it takes the only step, the second
failure ends it. -/
theorem failures_accounted_flaky :
    ∃ m, (Flaky.queue.acts Flaky.acts).store.get? .nil = some m ∧ (m.failuresOf "flaky").toNat = 2 ∧
      m.status = .error ∧ Change.GaveUp Flaky.config true ((Flaky.queue.acts Flaky.acts).site.changes .nil) ∧
      ∃ delay, ∃ now : Instant, Flaky.config.retryDelays.step? "flaky" 0 = some delay ∧
        Flaky.again.visibleAt = if delay.isZero then none else now.add? delay := by
  have main := failures_accounted Flaky.shared
  have made : (Flaky.queue.acts Flaky.acts).site.changes .nil =
      [(Change.fail "flaky: no").counting "flaky", Flaky.again] := by decide +kernel
  obtain ⟨_, _, now, _, _, _, waits⟩ := main.2 .nil [_] Flaky.again [] made
  obtain ⟨delay, found, visible⟩ := waits "flaky" rfl rfl
  have found' : ((Flaky.queue.acts Flaky.acts).store.get? .nil).any (·.status == .error) = true := by decide +kernel
  obtain ⟨m, stored, error⟩ := (Option.any_eq_true _ _).mp found'
  obtain ⟨counted, _, ended⟩ := main.1 .nil m stored
  have twice : Change.failures ((Flaky.queue.acts Flaky.acts).site.changes .nil) "flaky" = 2 := by
    rw [made]
    rfl
  have status : m.status = .error := beq_iff_eq.mp error
  exact ⟨m, stored, (counted "flaky").trans twice, status, ended.mp status, delay, now, found, visible⟩

end ClaimQueue
