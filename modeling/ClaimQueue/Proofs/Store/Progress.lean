/-
  ClaimQueue.Proofs.Store.Progress — no message is stuck.

  A claim takes a message that is eligible for its filter and leaves it at work, so each
  claim that is made leaves one eligible message fewer, and as long as one is eligible a
  claim is made. Repeated claims at one instant therefore come to every message that was
  eligible at the start, at the latest when all others have been taken.

  A message that has not ended is eligible for its own route and type as soon as its time
  has come, once a reclaim took it back if it was worked on. Main statement: `never_stuck`.
-/

import ClaimQueue.Proofs.Store.History

namespace ClaimQueue

/-- The filter of the route, if any, and the type of one message. -/
def ClaimFilter.only (m : Message) (order : PriorityOrder) : ClaimFilter :=
  { routes := m.route.toList, types := [m.type], order }

theorem ClaimFilter.only_admits (m : Message) (order : PriorityOrder) {m' : Message} (route : m'.route = m.route)
    (type : m'.type = m.type) : (only m order).admits m' = true := by
  cases h : m.route <;> simp [admits, only, route, type, h]

/-- The message after a reclaim that finds its claim dead. -/
def Message.freed (m : Message) (now : Instant) : Message :=
  if m.status = .working then Change.rollback.apply m now else m

namespace Message

theorem freed_waits {m : Message} (unended : m.status.isTerminal = false) (now : Instant) :
    (m.freed now).status.isWaiting = true := by
  unfold freed
  split
  · rfl
  · cases h : m.status <;> simp_all [Status.isTerminal, Status.isWaiting]

@[simp] theorem freed_id (m : Message) (now : Instant) : (m.freed now).id = m.id := by
  unfold freed
  split <;> rfl

theorem freed_expires (m : Message) (now t : Instant) : (m.freed now).isExpired t = m.isExpired t := by
  unfold freed
  split <;> rfl

/-- A claim that was given back can be made again at once. -/
theorem freed_visible {m : Message} {now t : Instant} (visible : m.status ≠ .working → m.isVisible t = true) :
    (m.freed now).isVisible t = true := by
  unfold freed
  split
  · rfl
  · exact visible ‹_›

theorem freed_admitted (m : Message) (order : PriorityOrder) (now : Instant) :
    (ClaimFilter.only m order).admits (m.freed now) = true := by
  unfold freed
  split
  · exact ClaimFilter.only_admits m order rfl rfl
  · exact ClaimFilter.only_admits m order rfl rfl

end Message

namespace Store

variable {s : Store} {filter : ClaimFilter} {now : Instant} {m : Message}

/-! ## A claim is made while a message is eligible -/

theorem first?_cons (order : PriorityOrder) (e : Entry) (l : List Entry) : ∃ b, first? order (e :: l) = some b := by
  unfold first?
  split
  · exact ⟨e, rfl⟩
  · split
    · exact ⟨_, rfl⟩
    · exact ⟨e, rfl⟩

theorem next?_of_eligible (mem : m ∈ s.messages) (eligible : isEligible filter now m = true) :
    ∃ n, s.next? filter now = some n := by
  obtain ⟨e, listed, rfl⟩ := List.mem_map.mp mem
  have found : e ∈ s.entries.filter fun e => isEligible filter now e.message := List.mem_filter.mpr ⟨listed, eligible⟩
  unfold next?
  cases rest : s.entries.filter fun e => isEligible filter now e.message with
  | nil =>
    rw [rest] at found
    cases found
  | cons a l =>
    obtain ⟨b, first⟩ := first?_cons filter.order a l
    exact ⟨b.message, by rw [first]; rfl⟩

/-! ## Each claim leaves one eligible message fewer -/

/-- How many messages a claim could take. -/
def eligible (s : Store) (filter : ClaimFilter) (now : Instant) : Nat := s.messages.countP (isEligible filter now)

/-- To change the message under one id is to change one place of the list. -/
theorem Distinct.modify_split (hd : s.Distinct) (mem : m ∈ s.messages) (f : Message → Message) :
    ∃ before after, s.messages = before ++ m :: after ∧
      (s.modify (·.id == m.id) f).messages = before ++ f m :: after := by
  obtain ⟨before, after, split⟩ := List.append_of_mem mem
  unfold Distinct at hd
  rw [split, List.map_append, List.map_cons, List.nodup_append, List.nodup_cons] at hd
  obtain ⟨-, ⟨later, -⟩, earlier⟩ := hd
  -- no other message has the id
  have others : ∀ l : List Message, (∀ a ∈ l, a.id ≠ m.id) → l.map (fun a => if a.id == m.id then f a else a) = l := by
    intro l apart
    refine (List.map_congr_left fun a ha => ?_).trans (List.map_id l)
    simp [apart a ha]
  refine ⟨before, after, split, ?_⟩
  rw [messages_modify, split, List.map_append, List.map_cons, others before, others after]
  · simp
  · exact fun a ha same => later (same ▸ List.mem_map_of_mem ha)
  · exact fun a ha same => earlier a.id (List.mem_map_of_mem ha) m.id List.mem_cons_self same

theorem eligible_claimed (hd : s.Distinct) (worker : WorkerId) (mem : m ∈ s.messages)
    (could : isEligible filter now m = true) :
    (s.modify (·.id == m.id) (·.claim worker now)).eligible filter now + 1 = s.eligible filter now := by
  obtain ⟨before, after, split, changed⟩ := hd.modify_split mem (·.claim worker now)
  -- a message at work is not eligible
  have taken : isEligible filter now (m.claim worker now) = false := rfl
  unfold eligible
  rw [changed, split]
  simp only [List.countP_append, List.countP_cons, could, taken]
  simp only [Bool.false_eq_true, if_false, if_true]
  omega

/-- Claims at one instant come to every message that was eligible. -/
theorem claims_eligible (hd : s.Distinct) (mem : m ∈ s.messages) (could : isEligible filter now m = true)
    (workers : List WorkerId) (enough : s.eligible filter now ≤ workers.length) :
    ∃ c ∈ s.history (workers.map fun w => (now, .tryClaim w filter)), c.claims m.id = true := by
  induction workers generalizing s with
  | nil =>
    have : 0 < s.eligible filter now := List.countP_pos_iff.mpr ⟨m, mem, could⟩
    simp only [List.length_nil] at enough
    omega
  | cons worker workers ih =>
    obtain ⟨n, next⟩ := next?_of_eligible mem could
    obtain ⟨mem', could'⟩ := next?_mem next
    let t : Served := ⟨now, .tryClaim worker filter, s⟩
    have claimed : t.claimed? = some (n.claim worker now) := by
      show (s.tryClaim worker filter now).1 = _
      simp only [tryClaim, next]
    have after : t.after = s.modify (·.id == n.id) (·.claim worker now) := by
      show (s.tryClaim worker filter now).2 = _
      simp only [tryClaim, next]
    by_cases own : n.id = m.id
    · exact ⟨t, List.mem_cons_self, Served.claims_iff.mpr ⟨_, claimed, own⟩⟩
    · -- another message was taken, and `m` is where it was
      have kept : m ∈ t.after.messages := by
        rw [after, messages_modify]
        refine List.mem_map.mpr ⟨m, mem, ?_⟩
        simp [Ne.symm own]
      have fewer := eligible_claimed hd worker mem' could'
      obtain ⟨c, later, claims⟩ := ih (s := t.after) (distinct_serve hd now (.tryClaim worker filter)) kept
        (by rw [after]; simp only [List.length_cons] at enough; omega)
      exact ⟨c, List.mem_cons_of_mem _ later, claims⟩

/-! ## Whatever was not ended comes back -/

/-- A reclaim without bound takes back a claim whose worker was silent for longer than `dead`. -/
theorem get?_freed (stored : s.get? m.id = some m) {dead : Span}
    (silent : m.status = .working → ∀ beat, m.heartbeatAt = some beat → (dead.nanos : Int) < now.since beat) :
    (s.reclaimDead now dead none).2.get? m.id = some (m.freed now) := by
  rw [get?_reclaimDead, stored, Option.map_some]
  by_cases working : m.status = .working
  · have reclaimable : isReclaimable now dead none m = true := by
      cases heard : m.heartbeatAt with
      | none => simp [isReclaimable, reclaimFloor, Message.isClaimDead, working, heard]
      | some beat =>
        have late := silent working beat heard
        unfold Instant.since at late
        have dead : m.isClaimDead now dead = true := (Message.isClaimDead_iff working heard dead).mpr (by omega)
        simp [isReclaimable, reclaimFloor, dead]
    rw [if_pos reclaimable, Message.freed, if_pos working]
  · have kept : ¬isReclaimable now dead none m = true := fun found => working (working_of_reclaimable found)
    rw [if_neg kept, Message.freed, if_neg working]

theorem length_reclaimed (s : Store) (now : Instant) (dead : Span) (lookback : Option Span) :
    (s.reclaimDead now dead lookback).2.messages.length = s.messages.length := by
  simp [reclaimDead, messages_modify]

end Store

/-- Whatever requests led to the store, a message in it that has not ended is not stuck: at
every instant at which it is visible, or its claim silent for longer than `dead`, a reclaim and
as many claims for its route and type as there are messages come to it, whoever claims and in
either order of priorities. If its time has run out, a reclaim and an expiration end it. -/
theorem never_stuck (rs : List (Instant × Request)) {m : Message} (stored : m ∈ (Store.empty.run rs).messages)
    (unended : m.status.isTerminal = false) (t : Instant) (dead : Span)
    (visible : m.status ≠ .working → m.isVisible t = true)
    (silent : m.status = .working → ∀ beat, m.heartbeatAt = some beat → (dead.nanos : Int) < t.since beat) :
    let freed := ((Store.empty.run rs).reclaimDead t dead none).2
    (m.isExpired t = false → ∀ order (workers : List WorkerId),
        workers.length = (Store.empty.run rs).messages.length →
        ∃ c ∈ freed.history (workers.map fun w => (t, .tryClaim w (.only m order))), c.claims m.id = true) ∧
      (m.isExpired t = true → m.id ∈ (freed.expireDue t).1 ∧
        ∃ m', (freed.expireDue t).2.get? m.id = some m' ∧ m'.status = .expired) := by
  intro freed
  have distinct : (Store.empty.run rs).Distinct := Store.distinct_run Store.distinct_empty rs
  have distinct' : freed.Distinct := Store.distinct_serve distinct t (.reclaimDead dead none)
  have there : freed.get? m.id = some (m.freed t) := Store.get?_freed (distinct.get?_of_mem stored) silent
  have waits := Message.freed_waits unended t
  constructor
  · intro alive order workers length
    have could : Store.isEligible (.only m order) t (m.freed t) = true := by
      simp [Store.isEligible, Message.isClaimable, waits, Message.freed_visible visible, Message.freed_expires, alive,
        Message.freed_admitted]
    have few : freed.eligible (.only m order) t ≤ workers.length := by
      refine Nat.le_trans List.countP_le_length (Nat.le_of_eq ?_)
      rw [length]
      exact Store.length_reclaimed _ _ _ _
    obtain ⟨c, mem, claims⟩ := Store.claims_eligible distinct' (Store.mem_of_get? there) could workers few
    exact ⟨c, mem, by simpa using claims⟩
  · intro expired
    have due : Store.isDue t (m.freed t) = true := by simp [Store.isDue, waits, Message.freed_expires, expired]
    constructor
    · refine List.mem_map.mpr ⟨m.freed t, List.mem_filter.mpr ⟨Store.mem_of_get? there, due⟩, ?_⟩
      simp
    · rw [Store.get?_expireDue, there, Option.map_some, if_pos due]
      exact ⟨_, rfl, rfl⟩

/-- A message that a worker claimed at the epoch. -/
def orphan : Message := (Message.ofDraft .nil { type := "job", body := [], priority := 1 } .epoch).claim ⟨"first"⟩ .epoch

/-- The worker dies with its claim, and a message that goes before it comes in. -/
def orphaned : List (Instant × Request) :=
  [(.epoch, .enqueue (.ofDraft .nil { type := "job", body := [], priority := 1 } .epoch)),
    (.epoch, .tryClaim ⟨"first"⟩ {}), (.epoch, .enqueue (.ofDraft (.random 0) { type := "job", body := [] } .epoch))]

/-- After two seconds, with one second allowed, the orphan is taken by the second of two claims. -/
theorem never_stuck_orphaned :
    let later : Instant := ⟨2_000_000_000, false, by decide, by decide⟩
    let freed := ((Store.empty.run orphaned).reclaimDead later (.ofMillis 1000) none).2
    let claims (workers : List WorkerId) :=
      freed.history (workers.map fun w => (later, .tryClaim w (.only orphan .lowestFirst)))
    orphan.status = .working ∧ ¬(∃ c ∈ claims [⟨"second"⟩], c.claims .nil = true) ∧
      ∃ c ∈ claims [⟨"second"⟩, ⟨"third"⟩], c.claims .nil = true := by
  intro later freed claims
  have found : (Store.empty.run orphaned).get? .nil = some orphan := rfl
  have stored := Store.mem_of_get? found
  have silent : ∀ beat, orphan.heartbeatAt = some beat → ((Span.ofMillis 1000).nanos : Int) < later.since beat := by
    rintro _ ⟨⟩
    decide
  have back := never_stuck orphaned stored rfl later (.ofMillis 1000) (fun idle => absurd rfl idle) fun _ => silent
  exact ⟨rfl, by decide, back.1 rfl .lowestFirst [⟨"second"⟩, ⟨"third"⟩] rfl⟩

end ClaimQueue
