/-
  ClaimQueue.Proofs.Crew.Sessions — a worker holds one message at most.

  Workers come under names that hold nothing, and each can give its claims back. Then what
  is stored as held in a worker's name is the very claim it is in charge of
  (`Worker.Charged`), in all that happens: other members, other crews and requests from
  outside can take the claim away, and none can make the worker the holder of another.

  A charge ends when the store answers to its outcome, and only so (`act_charge`). Main
  statement: `sessions_hold_one`.
-/

import ClaimQueue.Proofs.Crew.Members
import ClaimQueue.Proofs.Work.Charges

namespace ClaimQueue

namespace Engine

variable {e e₀ : Engine} {a : Happening} {as : List Happening}

/-- The workers of all crews. -/
def workers (e : Engine) : List Worker := e.crews.flatMap (·.workers)

theorem mem_workers {w : Worker} : w ∈ e.workers ↔ ∃ c ∈ e.crews, w ∈ c.workers := List.mem_flatMap

theorem names_eq (e : Engine) : e.names = e.workers.map (·.id) := by
  simp [names, workers, Crew.names, List.map_flatMap]

theorem worker_unique (once : e.names.Nodup) {w w' : Worker} (mem : w ∈ e.workers) (mem' : w' ∈ e.workers)
    (same : w.id = w'.id) : w = w' :=
  List.inj_on_of_nodup_map (e.names_eq ▸ once) mem mem' same

/-- No worker is ever gone. -/
theorem mem_names_act (sound : e.Sound) (a : Happening) {worker : WorkerId} (mem : worker ∈ e.names) :
    worker ∈ (e.act a).names := by
  cases a with
  | move t =>
    cases found : e.crews[t.crew]? with
    | none =>
      rw [act_nobody found]
      exact mem
    | some c =>
      obtain ⟨c', asked, step, crews⟩ := act_move sound found
      rw [names, crews, names_set found step.names]
      exact mem
  | request now r => exact mem
  | wait clock time => exact mem
  | join config filter ids duties =>
    rw [names, act, List.flatMap_append]
    exact List.mem_append_left _ mem
  | dismiss i =>
    cases found : e.crews[i]? with
    | none =>
      simp only [act, found]
      exact mem
    | some c =>
      have same : c.dismissed.names = c.names := rfl
      simp only [act, found, names, setCrew]
      rw [names_set found same]
      exact mem

/-! ## Runs -/

/-- An act in which workers join under names that hold nothing, if any do. -/
structure Enrolls (e : Engine) (a : Happening) : Prop where
  allowed : e.allows a = true
  unheld : ∀ config filter ids duties, a = .join config filter ids duties →
    ∀ worker ∈ ids, ∀ id, e.store.held id worker = false

/-- Runs of workers that can give their claims back; they start with nobody at work. -/
structure Sessions (e₀ : Engine) (as : List Happening) : Prop where
  settled : e₀.site.Settled
  able : e₀.site.backend.capabilities.rollback = true
  distinct : e₀.store.Distinct
  nobody : e₀.crews = []
  enrolls : e₀.Throughout Enrolls as

/-- In the act the worker ends its charge of `m`, and the store answers to what became of it. -/
def Releases (e : Engine) (a : Happening) (worker : WorkerId) (m : Message) : Prop :=
  ∃ w ∈ e.workers, w.id = worker ∧ ∃ deed, (e.act a).site.answers = deed :: e.site.answers ∧
    w.Releases m e.store (e.act a).store deed

theorem charged_act (sound : e.Sound) (able : e.site.backend.capabilities.rollback = true) (enrolls : e.Enrolls a)
    (charged : ∀ w ∈ e.workers, w.Charged e.store) : ∀ w ∈ (e.act a).workers, w.Charged (e.act a).store := by
  intro w' worked
  obtain ⟨c', among', own'⟩ := mem_workers.mp worked
  rcases act_member sound enrolls.allowed among' own' with
    ⟨c, among, own, asked, follows, spares⟩ | ⟨starting, site, config, filter, ids, duties, rfl, named⟩ |
    ⟨c, among, w, own, rfl, site⟩
  · have before := charged w' (mem_workers.mpr ⟨c, among, own⟩)
    show w'.Charged (e.act a).site.store
    rw [follows.store]
    exact before.spared sound.distinct spares
  · refine .fresh starting fun id => ?_
    rw [store, site]
    exact enrolls.unheld config filter ids duties rfl w'.id named id
  · obtain ⟨asked, leads, turns⟩ := Worker.step_turns (s := ⟨e.site, c.desk⟩) sound.settled able w
    obtain ⟨_, step⟩ := Worker.step_moves (s := ⟨e.site, c.desk⟩) sound.settled w
    rw [store, site, leads.store]
    exact (charged w (mem_workers.mpr ⟨c, among, own⟩)).moved sound.distinct turns step.id

/-- What is so in every such run. -/
structure Manned (e : Engine) : Prop where
  reached : e.Reached
  able : e.site.backend.capabilities.rollback = true
  charged : ∀ w ∈ e.workers, w.Charged e.store

theorem Manned.act (manned : e.Manned) (enrolls : e.Enrolls a) : (e.act a).Manned where
  reached := .act e a manned.reached enrolls.allowed
  able := by
    obtain ⟨asked, follows, _⟩ := act_source manned.reached.sound a
    exact follows.capabilities ▸ manned.able
  charged := charged_act manned.reached.sound manned.able enrolls manned.charged

/-- A worker in charge of a message stays so in an act, or ends its charge in it. -/
theorem act_charge (manned : e.Manned) (allowed : e.allows a = true) {w : Worker} (mem : w ∈ e.workers) {m : Message}
    (charge : w.charge? = some m) :
    (∃ w' ∈ (e.act a).workers, w'.id = w.id ∧ w'.charge? = some m) ∨ e.Releases a w.id m := by
  have sound := manned.reached.sound
  have named : w.id ∈ (e.act a).names := mem_names_act sound a (e.names_eq ▸ List.mem_map_of_mem mem)
  rw [names_eq] at named
  obtain ⟨w', mem', same⟩ := List.mem_map.mp named
  obtain ⟨c', among', own'⟩ := mem_workers.mp mem'
  rcases act_member sound allowed among' own' with
    ⟨c, among, own, _⟩ | ⟨_, _, config, filter, ids, duties, rfl, joined⟩ | ⟨c, among, u, own, rfl, site⟩
  · obtain rfl := worker_unique sound.names (mem_workers.mpr ⟨c, among, own⟩) mem same
    exact Or.inl ⟨w', mem', rfl, charge⟩
  · obtain ⟨_, _, free⟩ := of_decide_eq_true allowed
    exact absurd (e.names_eq ▸ List.mem_map_of_mem mem) (free w.id (same ▸ joined))
  · obtain ⟨_, step⟩ := Worker.step_moves (s := ⟨e.site, c.desk⟩) sound.settled u
    obtain rfl := worker_unique sound.names (mem_workers.mpr ⟨c, among, own⟩) mem (step.id.symm.trans same)
    obtain ⟨asked, leads, turns⟩ := Worker.step_turns (s := ⟨e.site, c.desk⟩) sound.settled manned.able u
    cases turns with
    | keeps still => exact Or.inl ⟨_, mem', same, still.trans charge⟩
    | takes m' free =>
      rw [free] at charge
      cases charge
    | records m' change call recording charge' =>
      obtain rfl : m = m' := Option.some.inj (charge.symm.trans charge')
      let r : Request := .updateStatus m.id change m.version
      have store' : (e.act a).store = (e.store.serve e.now r).2 := by
        rw [store, site, leads.store]
        rfl
      have answers : (e.act a).site.answers = .served r (e.store.serve e.now r).1 :: e.site.answers := by
        rw [site, leads.answers]
        rfl
      have released := (manned.charged u mem).releases recording charge e.now
      exact Or.inr ⟨u, mem, rfl, _, answers, store' ▸ released⟩

namespace Sessions

theorem left {bs : List Happening} (run : Sessions e₀ (as ++ bs)) : Sessions e₀ as :=
  ⟨run.settled, run.able, run.distinct, run.nobody, run.enrolls.left⟩

theorem manned (run : Sessions e₀ as) : (e₀.acts as).Manned := by
  refine run.enrolls.induct ⟨.start _ run.settled run.distinct run.nobody, run.able, fun w mem => ?_⟩ fun e a => .act
  obtain ⟨c, mem, _⟩ := mem_workers.mp mem
  rw [run.nobody] at mem
  cases mem

/-- What a worker is in charge of once, it is in charge of until it ends the charge. -/
theorem releases {before after : List Happening} (run : Sessions e₀ (before ++ after)) {w : Worker}
    (mem : w ∈ (e₀.acts before).workers) {m : Message} (charge : w.charge? = some m) :
    (∃ w' ∈ (e₀.acts (before ++ after)).workers, w'.id = w.id ∧ w'.charge? = some m) ∨
      ∃ mid a post, after = mid ++ a :: post ∧ (e₀.acts (before ++ mid)).Releases a w.id m := by
  induction after using List.reverseRecOn with
  | nil => exact Or.inl ⟨w, by rwa [List.append_nil], rfl, charge⟩
  | append_singleton after a ih =>
    rw [← List.append_assoc] at run ⊢
    rcases ih run.left with ⟨w', mem', same, charge'⟩ | ⟨mid, b, post, split, released⟩
    · rw [acts_append]
      rcases act_charge run.left.manned run.enrolls.last.allowed mem' charge' with
        ⟨w'', mem'', same', charge''⟩ | released
      · exact Or.inl ⟨w'', mem'', same'.trans same, charge''⟩
      · exact Or.inr ⟨after, a, [], rfl, same ▸ released⟩
    · exact Or.inr ⟨mid, b, post ++ [a], by simp [split], released⟩

end Sessions

end Engine

/-- In every run of workers with names of their own that can give their claims back, what is at work in the
name of a worker is one message at most, the claim in its hands; a worker that has stopped holds nothing. And
of every message that a worker was ever in charge of, it still is, or it recorded what became of it: then the
message moved on with that record, or had been taken from the worker before. -/
theorem sessions_hold_one {e₀ : Engine} {as : List Happening} (run : Engine.Sessions e₀ as) :
    let e := e₀.acts as
    (∀ w ∈ e.workers,
      (∀ stored ∈ e.store.messages, stored.status = .working → stored.owner = some w.id →
        ∃ m beat, w.charge? = some m ∧ w.hand? = some m ∧ stored = { m with heartbeatAt := beat }) ∧
      (∀ m ∈ e.store.messages, ∀ m' ∈ e.store.messages, m.status = .working → m.owner = some w.id →
        m'.status = .working → m'.owner = some w.id → m = m') ∧
      (w.isStopped = true → ∀ id, e.store.held id w.id = false)) ∧
    ∀ before after, as = before ++ after → ∀ w ∈ (e₀.acts before).workers, ∀ m, w.charge? = some m →
      (∃ w' ∈ e.workers, w'.id = w.id ∧ w'.charge? = some m) ∨
        ∃ mid a post, after = mid ++ a :: post ∧ (e₀.acts (before ++ mid)).Releases a w.id m := by
  intro e
  have distinct : e.store.Distinct := run.manned.reached.sound.distinct
  refine ⟨fun w mem => ?_, ?_⟩
  · have charged := run.manned.charged w mem
    have held : ∀ m ∈ e.store.messages, m.status = .working → m.owner = some w.id →
        ∃ m', w.charge? = some m' ∧ m'.id = m.id := by
      intro m stored working owner
      exact charged.held m.id (Store.held_iff.mpr ⟨m, distinct.get?_of_mem stored, working, owner⟩)
    refine ⟨fun stored mem working owner => ?_, fun m mem m' mem' working owner working' owner' => ?_,
      fun stopped id => Bool.eq_false_iff.mpr fun now => ?_⟩
    · obtain ⟨m, charge, same⟩ := held stored mem working owner
      obtain ⟨beat, own⟩ := charged.owns m charge stored (same ▸ distinct.get?_of_mem mem)
        (by simp [Store.holds, working, owner])
      exact ⟨m, beat, charge, Worker.hand_of_charge charge, own⟩
    · obtain ⟨m₀, charge, same⟩ := held m mem working owner
      obtain ⟨m₁, charge', same'⟩ := held m' mem' working' owner'
      obtain rfl : m₀ = m₁ := Option.some.inj (charge.symm.trans charge')
      exact (distinct.eq_of_id mem' (distinct.get?_of_mem mem) (same'.symm.trans same)).symm
    · obtain ⟨m, charge, _⟩ := charged.held id now
      rw [Worker.charge_stopped stopped] at charge
      cases charge
  · rintro before after rfl w mem m charge
    exact run.releases mem charge

namespace Engine

/-- As `Enrolls`, to be checked. -/
def enrolls (e : Engine) (a : Happening) : Bool :=
  e.allows a && match a with
    | .join _ _ ids _ => ids.all fun worker => e.store.messages.all fun m => !Store.holds m worker
    | _ => true

def enrollsAll (e : Engine) : List Happening → Bool
  | [] => true
  | a :: as => e.enrolls a && (e.act a).enrollsAll as

theorem enrolls_of_check {e : Engine} {a : Happening} (enrolls : e.enrolls a = true) : e.Enrolls a := by
  obtain ⟨allowed, joins⟩ := Bool.and_eq_true_iff.mp enrolls
  refine ⟨allowed, ?_⟩
  rintro config filter ids duties rfl worker mem id
  refine Bool.eq_false_iff.mpr fun held => ?_
  obtain ⟨m, stored, holds⟩ := (Option.any_eq_true _ _).mp held
  have free := List.all_eq_true.mp (List.all_eq_true.mp joins worker mem) m (Store.mem_of_get? stored)
  rw [holds] at free
  cases free

theorem throughout_of_enrollsAll {e₀ : Engine} {as : List Happening} (all : e₀.enrollsAll as = true) :
    e₀.Throughout Enrolls as := by
  induction as generalizing e₀ with
  | nil => exact .nil
  | cons a as ih =>
    obtain ⟨first, rest⟩ := Bool.and_eq_true_iff.mp all
    exact .cons (enrolls_of_check first) (ih rest)

end Engine

namespace Relay

open Happening (moves)

def queue : Engine := .blank {} fun _ => [{}]

/-- The first worker has its claim. -/
def start : List Happening :=
  [.join {} {} [⟨"first"⟩, ⟨"second"⟩] [], .request .epoch (.enqueue (.blank .nil))] ++ moves (.worker 0) 7

/-- The claim is taken back, and the second worker gets it. The first one comes too late with its outcome, and
both finish. -/
def rest : List Happening :=
  [.wait (.ticking .epoch) 60_000,
    .request ((Instant.epoch.add? (.ofMillis 60_000)).getD .epoch) (.reclaimDead (.ofMillis 1000) none)] ++
  moves (.worker 1) 7 ++ moves (.worker 0) 7 ++ moves (.worker 1) 9 ++ [.dismiss 0] ++ moves (.worker 0) 3 ++
  moves (.worker 1) 3

theorem sessions : Engine.Sessions queue (start ++ rest) where
  settled := Engine.settled_blank _ _
  able := rfl
  distinct := List.nodup_nil
  nobody := rfl
  enrolls := Engine.throughout_of_enrollsAll (by decide +kernel)

end Relay

/-- The first worker holds the message in its hands, and has let go of it in the end, when both have stopped
and neither holds anything. -/
theorem sessions_hold_one_relay :
    (∃ w ∈ (Relay.queue.acts Relay.start).workers, w.id = ⟨"first"⟩ ∧ ∃ m, w.hand? = some m ∧ m.id = .nil ∧
      ∃ mid a post, Relay.rest = mid ++ a :: post ∧
        (Relay.queue.acts (Relay.start ++ mid)).Releases a ⟨"first"⟩ m) ∧
    ∀ w ∈ (Relay.queue.acts (Relay.start ++ Relay.rest)).workers, w.isStopped = true ∧
      ∀ id, (Relay.queue.acts (Relay.start ++ Relay.rest)).store.held id w.id = false := by
  have first := sessions_hold_one Relay.sessions.left
  have last := sessions_hold_one Relay.sessions
  have halted : (Relay.queue.acts (Relay.start ++ Relay.rest)).workers.all (·.isStopped) = true := by decide +kernel
  refine ⟨?_, fun w mem => ?_⟩
  · have there : (Relay.queue.acts Relay.start).workers.any (·.id == ⟨"first"⟩) = true := by decide +kernel
    have held : (Relay.queue.acts Relay.start).store.messages.any (fun m =>
        m.status == .working && m.owner == some ⟨"first"⟩ && m.id == .nil) = true := by decide +kernel
    obtain ⟨w, mem, named⟩ := List.any_eq_true.mp there
    obtain ⟨stored, mem', holds⟩ := List.any_eq_true.mp held
    simp only [Bool.and_eq_true, beq_iff_eq] at named holds
    obtain ⟨m, beat, charge, hand, rfl⟩ := (first.1 w mem).1 stored mem' holds.1.1 (named ▸ holds.1.2)
    refine ⟨w, mem, named, m, hand, holds.2, ?_⟩
    rcases last.2 Relay.start Relay.rest rfl w mem m charge with ⟨w', mem', _, charge'⟩ | released
    · rw [Worker.charge_stopped (List.all_eq_true.mp halted w' mem')] at charge'
      cases charge'
    · exact named ▸ released
  · have stopped := List.all_eq_true.mp halted w mem
    exact ⟨stopped, (last.1 w mem).2.2 stopped⟩

end ClaimQueue
