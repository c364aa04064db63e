/-
  ClaimQueue.Proofs.Store.History — what happens to a store, request by request.

  A history is a run with the store before each request (`Served`); what a request answers
  and leaves follows from that. `Fate` says once what a request can do to a stored message,
  and every later invariant is a case analysis on it (`fate`).

  `Lawful` is what the users of a store keep to: messages are made from drafts, an id that
  was taken out of the store does not come back, and no message is claimed 2³² times. A
  retried `enqueue` of a message that is still there is lawful.
-/

import Mathlib.Algebra.Group.Nat.Defs
import ClaimQueue.Proofs.Store.Lookup

namespace ClaimQueue

/-- A request and the store it met. -/
structure Served where
  now : Instant
  request : Request
  before : Store

namespace Served

def reply (t : Served) : Except Error t.request.Reply := (t.before.serve t.now t.request).1

def after (t : Served) : Store := (t.before.serve t.now t.request).2

/-- The message that a claim handed out. -/
def claimed? (t : Served) : Option Message :=
  match t.request with
  | .tryClaim worker filter => (t.before.tryClaim worker filter t.now).1
  | _ => none

def claims (t : Served) (id : MessageId) : Bool := t.claimed?.any (·.id == id)

/-- Did the message leave the store? -/
def drops (t : Served) (id : MessageId) : Bool := t.before.contains id && !t.after.contains id

/-- Does the request end the claim on a message? It is either a change from working that
was made, or a reclaim that lists the message. -/
def ends (t : Served) (id : MessageId) : Prop :=
  match t.request with
  | .updateStatus i change version =>
    i = id ∧ change.src = .working ∧ ∃ m, (t.before.updateStatus i change version t.now).1 = .ok m
  | .reclaimDead dead lookback => id ∈ (t.before.reclaimDead t.now dead lookback).1
  | _ => False

/-- What a request makes of a stored message. -/
inductive Fate (t : Served) (m : Message) : Option Message → Prop
  | kept : Fate t m (some m)
  | refreshed (worker : WorkerId) : t.request = .resetHeartbeat m.id worker → Store.holds m worker = true →
      Fate t m (some { m with heartbeatAt := some t.now })
  | claimed (worker : WorkerId) (filter : ClaimFilter) : t.request = .tryClaim worker filter →
      Store.isEligible filter t.now m = true → t.claimed? = some (m.claim worker t.now) →
      Fate t m (some (m.claim worker t.now))
  | changed (change : Change) : t.request = .updateStatus m.id change m.version → change.isAllowed = true →
      change.src = m.status → Fate t m (some (change.apply m t.now))
  | reclaimed (dead : Span) (lookback : Option Span) : t.request = .reclaimDead dead lookback →
      Store.isReclaimable t.now dead lookback m = true → Fate t m (some (Change.rollback.apply m t.now))
  | expired : t.request = .expireDue → Store.isDue t.now m = true →
      Fate t m (some (({ src := m.status, dst := .expired } : Change).apply m t.now))
  | promoted : t.request = .promoteDelayed → Store.isRipe t.now m = true → Fate t m (some (m.promote t.now))
  | deleted : t.request = .delete m.id → Fate t m none
  | removed : t.request = .remove → Fate t m none

/-- The fate of a message that a scan looks at: `f` if the scan takes it. -/
theorem Fate.scanned {t : Served} {m : Message} {p : Message → Bool} {f : Message → Message}
    (h : p m = true → Fate t m (some (f m))) : Fate t m ((some m).map fun m => if p m then f m else m) := by
  rw [Option.map_some]
  split
  · exact h ‹_›
  · exact .kept

theorem fate {t : Served} {id : MessageId} {m : Message} (hd : t.before.Distinct) (h : t.before.get? id = some m) :
    Fate t m (t.after.get? id) := by
  obtain ⟨now, r, s⟩ := t
  obtain rfl := Store.get?_id h
  change s.Distinct at hd
  change s.get? m.id = some m at h
  -- what the request put under the id of `m`, if it is the message it names
  have named : ∀ {i : MessageId} {m' : Message}, s.get? i = some m' → m.id = i → m' = m := by
    rintro i m' hm' rfl
    simpa [h] using hm'.symm
  cases r with
  | create | get | count => exact h ▸ .kept
  | remove => exact .removed rfl
  | enqueue m' =>
    show Fate _ m ((s.enqueue m').get? m.id)
    rw [Store.get?_enqueue, h]
    split <;> exact .kept
  | tryClaim worker filter =>
    show Fate _ m ((s.tryClaim worker filter now).2.get? m.id)
    cases hc : (s.tryClaim worker filter now).1 with
    | none =>
      rw [Store.tryClaim_none hc, h]
      exact .kept
    | some out =>
      obtain ⟨m', hm', eligible, rfl, e⟩ := Store.tryClaim_some hd hc
      rw [e, h]
      split
      · obtain rfl := named hm' ‹_›
        exact .claimed worker filter rfl eligible hc
      · exact .kept
  | updateStatus i change version =>
    show Fate _ m ((s.updateStatus i change version now).2.get? m.id)
    cases hu : (s.updateStatus i change version now).1 with
    | error e =>
      rw [Store.updateStatus_error hu, h]
      exact .kept
    | ok out =>
      obtain ⟨m', hm', allowed, src, rfl, rfl, e⟩ := Store.updateStatus_ok hu
      rw [e, h]
      split
      · rename_i same
        obtain rfl := named hm' same
        exact .changed change (by rw [same]) allowed src.symm
      · exact .kept
  | delete i =>
    show Fate _ m ((s.delete i).2.get? m.id)
    rw [Store.get?_delete, h]
    split
    · rename_i same
      exact .deleted (by rw [same])
    · exact .kept
  | resetHeartbeat i worker =>
    show Fate _ m ((s.resetHeartbeat i worker now).2.get? m.id)
    rw [Store.get?_resetHeartbeat, h, Option.map_some]
    split
    · rename_i c
      exact .refreshed worker (by rw [c.1]) c.2
    · exact .kept
  | reclaimDead dead lookback =>
    show Fate _ m ((s.reclaimDead now dead lookback).2.get? m.id)
    rw [Store.get?_reclaimDead, h]
    exact .scanned fun c => .reclaimed dead lookback rfl c
  | expireDue =>
    show Fate _ m ((s.expireDue now).2.get? m.id)
    rw [Store.get?_expireDue, h]
    exact .scanned fun c => .expired rfl c
  | promoteDelayed =>
    show Fate _ m ((s.promoteDelayed now).2.get? m.id)
    rw [Store.get?_promoteDelayed, h]
    exact .scanned fun c => .promoted rfl c

/-- What was not there comes in by `enqueue` alone. -/
theorem arrival {t : Served} {id : MessageId} {m : Message} (h : t.before.get? id = none)
    (h' : t.after.get? id = some m) : t.request = .enqueue m := by
  change (t.before.serve t.now t.request).2.get? id = some m at h'
  cases t.before.effect t.now t.request with
  | still e =>
    rw [e, h] at h'
    cases h'
  | change p f e hf =>
    rw [e, Store.get?_modify _ _ hf, h] at h'
    cases h'
  | arrival m' sent e =>
    rw [e, Store.get?_enqueue, h] at h'
    split at h'
    · cases h'
      exact sent
    · cases h'
  | departure i _ e =>
    rw [e, Store.get?_delete, h] at h'
    split at h' <;> cases h'
  | removal _ e =>
    rw [e] at h'
    cases h'

/-- A claim hands out a message as the store then holds it. -/
theorem claimed?_some {t : Served} {out : Message} (hd : t.before.Distinct) (h : t.claimed? = some out) :
    ∃ m worker filter, t.request = .tryClaim worker filter ∧ t.before.get? out.id = some m ∧
      Store.isEligible filter t.now m = true ∧ out = m.claim worker t.now ∧ t.after.get? out.id = some out := by
  obtain ⟨now, r, s⟩ := t
  cases r with
  | tryClaim worker filter =>
    obtain ⟨m, stored, eligible, rfl, e⟩ := Store.tryClaim_some hd h
    exact ⟨m, worker, filter, rfl, stored, eligible, rfl, (e m.id).trans (if_pos rfl)⟩
  | _ => cases h

theorem claims_iff {t : Served} {id : MessageId} : t.claims id = true ↔ ∃ m, t.claimed? = some m ∧ m.id = id := by
  simp [claims, Option.any_eq_true]

theorem drops_iff {t : Served} {id : MessageId} :
    t.drops id = true ↔ (∃ m, t.before.get? id = some m) ∧ t.after.get? id = none := by
  simp [drops, Store.contains_eq, Option.isSome_iff_exists]

end Served

namespace Store

/-! ## Runs -/

/-- The requests of a run, each with the store it met. -/
def history (s : Store) : List (Instant × Request) → List Served
  | [] => []
  | (now, r) :: rest => ⟨now, r, s⟩ :: history (s.serve now r).2 rest

@[simp] theorem run_append (s : Store) (rs qs : List (Instant × Request)) :
    s.run (rs ++ qs) = (s.run rs).run qs := List.foldl_append

theorem history_append (s : Store) (rs qs : List (Instant × Request)) :
    s.history (rs ++ qs) = s.history rs ++ (s.run rs).history qs := by
  induction rs generalizing s with
  | nil => rfl
  | cons r rs ih => exact congrArg (_ :: ·) (ih _)

/-- A history splits where its run does. -/
theorem history_split {s : Store} {rs : List (Instant × Request)} {pre post : List Served}
    (h : s.history rs = pre ++ post) :
    ∃ rs₁ rs₂, rs = rs₁ ++ rs₂ ∧ s.history rs₁ = pre ∧ (s.run rs₁).history rs₂ = post := by
  induction pre generalizing s rs with
  | nil => exact ⟨[], rs, rfl, rfl, h⟩
  | cons t pre ih =>
    cases rs with
    | nil => cases h
    | cons r rs =>
      obtain ⟨head, tail⟩ := List.cons.inj h
      obtain ⟨rs₁, rs₂, rfl, h₁, h₂⟩ := ih tail
      exact ⟨r :: rs₁, rs₂, rfl, head ▸ congrArg (_ :: ·) h₁, h₂⟩

/-- The store that a request in a history met is the one the requests before it left. -/
theorem history_cut {s : Store} {rs : List (Instant × Request)} {pre post : List Served} {t : Served}
    (h : s.history rs = pre ++ t :: post) :
    ∃ rs₁ rs₂, rs = rs₁ ++ (t.now, t.request) :: rs₂ ∧ s.history rs₁ = pre ∧ t.before = s.run rs₁ ∧
      t.after.history rs₂ = post := by
  obtain ⟨rs₁, rs', rfl, h₁, h'⟩ := history_split h
  cases rs' with
  | nil => cases h'
  | cons r rs₂ =>
    obtain ⟨rfl, tail⟩ := List.cons.inj h'
    exact ⟨rs₁, rs₂, rfl, h₁, rfl, tail⟩

end Store

/-! ## Lawful histories -/

structure Lawful (ts : List Served) : Prop where
  drafted : ∀ t ∈ ts, ∀ m, t.request = .enqueue m → ∃ draft now, m = .ofDraft m.id draft now
  /-- An id that left the store does not come back. -/
  fresh : ts.Pairwise fun u t => ∀ m, t.request = .enqueue m → u.drops m.id = false
  few : ∀ id, ts.countP (·.claims id) < 2 ^ 32

theorem Lawful.left {ts us : List Served} (h : Lawful (ts ++ us)) : Lawful ts where
  drafted t ht := h.drafted t (List.mem_append_left _ ht)
  fresh := (List.pairwise_append.mp h.fresh).1
  few id := by
    have := h.few id
    rw [List.countP_append] at this
    omega

/-- A worker claims a message and falls silent, another takes over and completes it; the
first comes too late, and the sender tries once more. -/
def handover : List (Instant × Request) :=
  let m := Message.ofDraft .nil { type := "job", body := [] } .epoch
  let later : Instant := ⟨2_000_000_000, false, by decide, by decide⟩
  [(.epoch, .enqueue m), (.epoch, .tryClaim ⟨"first"⟩ {}), (later, .reclaimDead (.ofMillis 1000) none),
    (later, .tryClaim ⟨"second"⟩ {}), (later, .updateStatus .nil .complete 1),
    (later, .updateStatus .nil .complete 3), (later, .enqueue m)]

theorem handover_sent : ∀ t ∈ Store.empty.history handover, ∀ m, t.request = .enqueue m →
    m = .ofDraft .nil { type := "job", body := [] } .epoch := by
  simp [handover, Store.history]

theorem lawful_handover : Lawful (Store.empty.history handover) where
  drafted t ht m h := by
    obtain rfl := handover_sent t ht m h
    exact ⟨_, _, rfl⟩
  fresh := by
    have kept : ∀ u ∈ Store.empty.history handover, u.drops .nil = false := by decide
    refine List.pairwise_of_forall_mem_list fun u hu t ht m h => ?_
    rw [handover_sent t ht m h]
    exact kept u hu
  few id := Nat.lt_of_le_of_lt List.countP_le_length (by decide)

end ClaimQueue
