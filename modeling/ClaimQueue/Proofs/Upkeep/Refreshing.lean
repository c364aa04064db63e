/-
  ClaimQueue.Proofs.Upkeep.Refreshing — which entries a refresh takes off the book.

  The store calls a claim lost when the worker does not hold the message at that moment. The
  report is looked at later, and names the message and the worker only. If the entry on the
  book is still the one that the job was made from, the report is true of it
  (`Engine.Reached.dropped`). But the worker may have given the message back and claimed it
  anew in between: then the refresh drops the new entry, whose claim is held, and cancels
  the token of the old one (`refresh_drops_reclaimed`).
-/

import ClaimQueue.Proofs.Crew.Claims

namespace ClaimQueue

namespace Engine

/-- In a refresh of crew `i` a step of member `m` takes an entry off the book. -/
structure Drops (e : Engine) (i : Nat) (m : Member) (id : MessageId) (h : Holding) : Prop where
  pulse : (e.crew i).isPulse m = true
  refreshing : (e.crew i).tending.isRefreshing = true
  entry : (id, h) ∈ (e.crew i).desk.claims.entries
  gone : (id, h) ∉ ((e.act (.move ⟨i, m⟩)).crew i).desk.claims.entries

variable {e : Engine} {i : Nat} {m : Member} {id : MessageId} {h : Holding}

/-- Only a report takes an entry off the book in a refresh. It calls a claim of that worker
on that message lost, and if it is of this very claim, nobody holds the claim any more and
its handler is cancelled. -/
theorem Reached.dropped (reached : e.Reached) (drops : e.Drops i m id h) :
    ∃ r ∈ (e.crew i).answered, r.isLost = true ∧ r.job.id = id ∧ r.job.holding.worker = h.worker ∧
      (r.job.holding.token = h.token → e.store.held id h.worker = false ∧
        ((e.act (.move ⟨i, m⟩)).crew i).desk.tokens.isCancelled h.token = true) := by
  obtain ⟨pulse, refreshing, entry, gone⟩ := drops
  have found := crew_of_entry entry
  have mem := List.mem_of_getElem? found
  have kept := reached.kept _ mem
  have busy : (e.crew i).tending ≠ .idle := fun idle => by
    rw [idle] at refreshing
    cases refreshing
  rw [crew_move found] at gone ⊢
  obtain ⟨_, _, tends⟩ := Crew.step_tends reached.sound.settled (reached.sound.staffed _ mem) pulse busy
  generalize (e.crew i).move e.site m = moved at gone tends ⊢
  rcases tends.book with ⟨claims, _⟩ | ⟨r, reported, lost, claims, tokens⟩ | ⟨_, _, revoking, _⟩
  · rw [claims] at gone
    exact absurd entry gone
  · rw [claims] at gone
    obtain ⟨rfl, own, removed⟩ := kept.keyed.of_removed entry gone
    refine ⟨r, reported, lost, rfl, own.symm, fun token => ⟨?_, ?_⟩⟩
    · have holding : h = r.job.holding := by
        obtain ⟨worker, token'⟩ := h
        cases own
        cases token
        rfl
      rw [holding] at entry ⊢
      exact kept.lost r reported lost entry
    · rw [tokens, removed, token]
      exact (Tokens.isCancelled_cancel _ _ _).mpr (Or.inl rfl)
  · rw [revoking] at refreshing
    cases refreshing

end Engine

/-! ## A report that is overtaken -/

namespace Overtaken

open Happening (moves)

/-- Handlers give up at once. -/
def start : Engine := .blank {} fun _ => [{ ending := .cancelled }]

/-- The only worker claims the message, and the refresh of its claim is on its way to the store. -/
def submitted : List Happening :=
  [.join {} {} [⟨"worker"⟩] [.heartbeat], .request .epoch (.enqueue (.blank .nil))] ++ moves (.worker 0) 7 ++
    moves (.monitor 0) 1 ++ [.wait (.manual .epoch) 150000] ++ moves (.monitor 0) 10 ++ moves (.runner 0) 5

/-- The message is gone when the store is asked. -/
def deleted : List Happening := submitted ++ [.request .epoch (.delete .nil)] ++ moves (.runner 0) 2

/-- The worker gave the message back when the store is asked, and claims it again before the
runner hands its report over. -/
def reclaimed : List Happening :=
  submitted ++ moves (.worker 0) 7 ++ moves (.runner 0) 1 ++ moves (.worker 0) 6 ++ moves (.runner 0) 1

theorem reached : ∀ as ∈ [deleted, reclaimed], (start.acts as).Reached := by
  have allowed : ∀ as ∈ [deleted, reclaimed], start.allowsAll as = true := by decide +kernel
  exact fun as mem => (Engine.Reached.blank _ _).acts (allowed as mem)

/-- The entry of the first claim. -/
theorem drops_deleted : (start.acts deleted).Drops 0 (.monitor 0) .nil ⟨⟨"worker"⟩, ⟨0⟩⟩ := by
  constructor <;> decide +kernel

/-- The entry of the second claim. -/
theorem drops_reclaimed : (start.acts reclaimed).Drops 0 (.monitor 0) .nil ⟨⟨"worker"⟩, ⟨1⟩⟩ := by
  constructor <;> decide +kernel

end Overtaken

/-- The claim on a message that was deleted is lost: its entry goes, its handler is cancelled. -/
theorem dropped_deleted :
    let e := Overtaken.start.acts Overtaken.deleted
    e.Reached ∧ e.Drops 0 (.monitor 0) .nil ⟨⟨"worker"⟩, ⟨0⟩⟩ ∧ e.store.held .nil ⟨"worker"⟩ = false ∧
      ((e.act (.move ⟨0, .monitor 0⟩)).crew 0).desk.tokens.isCancelled ⟨0⟩ = true := by
  have reached := Overtaken.reached Overtaken.deleted (by simp)
  have first : ∀ r ∈ ((Overtaken.start.acts Overtaken.deleted).crew 0).answered, r.job.holding.token = ⟨0⟩ := by
    decide +kernel
  obtain ⟨r, mem, _, _, _, true⟩ := reached.dropped Overtaken.drops_deleted
  exact ⟨reached, Overtaken.drops_deleted, true (first r mem)⟩

/-- A worker that gave a message back and claimed it anew holds it, and yet the report on
its first claim takes the entry of the second off the book, and leaves its token alone. -/
theorem refresh_drops_reclaimed :
    ¬ ∀ (e : Engine) (i : Nat) (m : Member) (id : MessageId) (h : Holding), e.Reached → e.Drops i m id h →
      e.store.held id h.worker = false ∧
        ((e.act (.move ⟨i, m⟩)).crew i).desk.tokens.isCancelled h.token = true := by
  intro sound
  have reached := Overtaken.reached Overtaken.reclaimed (by simp)
  have unheld := (sound _ _ _ _ _ reached Overtaken.drops_reclaimed).1
  have held : (Overtaken.start.acts Overtaken.reclaimed).store.held .nil ⟨"worker"⟩ = true := by decide +kernel
  rw [held] at unheld
  cases unheld

end ClaimQueue
