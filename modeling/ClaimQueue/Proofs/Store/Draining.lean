/-
  ClaimQueue.Proofs.Store.Draining — claims in a row hand out what is eligible, in order.

  Entries are numbered as they come in and no number is given twice, also not after the store
  was emptied (`Store.Numbered`). So of two entries one always precedes the other, and the one
  that precedes all others is the same whichever way a claim looks through the store
  (`first?_eq`). A claim takes it out of the eligible ones and changes nothing else; what was
  second is first for the next claim.

  Main statement: `drained_in_order`.
-/

import ClaimQueue.Proofs.Store.Progress

namespace ClaimQueue

def Entry.claim (e : Entry) (worker : WorkerId) (now : Instant) : Entry := { e with message := e.message.claim worker now }

/-! ## The order of claims -/

/-- `a` is claimed before `b`: by priority, among equals the older one, else the one that came in first. -/
def Entry.Precedes (order : PriorityOrder) (a b : Entry) : Prop :=
  (match order with
    | .lowestFirst => a.message.priority < b.message.priority
    | .highestFirst => b.message.priority < a.message.priority) ∨
  a.message.priority = b.message.priority ∧
    (a.message.queuedAt < b.message.queuedAt ∨ ¬b.message.queuedAt < a.message.queuedAt ∧ a.seq < b.seq)

namespace Entry

variable {order : PriorityOrder} {a b c : Entry}

/-- The order as one of numbers. -/
theorem precedes_iff : a.Precedes order b ↔
    order.rank a.message.priority < order.rank b.message.priority ∨
      order.rank a.message.priority = order.rank b.message.priority ∧
        (a.message.queuedAt.nanos < b.message.queuedAt.nanos ∨
          a.message.queuedAt.nanos = b.message.queuedAt.nanos ∧ a.seq < b.seq) := by
  unfold Precedes
  show (_ ∨ _ ∧ (a.message.queuedAt.nanos < b.message.queuedAt.nanos ∨
    ¬b.message.queuedAt.nanos < a.message.queuedAt.nanos ∧ a.seq < b.seq)) ↔ _
  rw [← UInt16.toNat_inj]
  cases order with
  | lowestFirst =>
    simp only [PriorityOrder.rank, UInt16.lt_iff_toNat_lt]
    omega
  | highestFirst =>
    simp only [PriorityOrder.rank, UInt16.lt_iff_toNat_lt]
    omega

theorem Precedes.asymm (h : a.Precedes order b) : ¬b.Precedes order a := by
  rw [precedes_iff] at h ⊢
  omega

theorem not_precedes_self : ¬a.Precedes order a := by
  rw [precedes_iff]
  omega

theorem not_precedes_trans (h : ¬b.Precedes order a) (h' : ¬c.Precedes order b) : ¬c.Precedes order a := by
  rw [precedes_iff] at h h' ⊢
  omega

/-- Numbers decide where priority and age do not. -/
theorem precedes_total (h : a.seq ≠ b.seq) : a.Precedes order b ∨ b.Precedes order a := by
  rw [precedes_iff, precedes_iff]
  omega

end Entry

namespace Store

variable {s : Store} {filter : ClaimFilter} {now : Instant}

theorem before_iff {order : PriorityOrder} {a b : Entry} : before order a b = true ↔ a.Precedes order b := by
  rw [Entry.precedes_iff]
  simp only [before, Bool.or_eq_true, Bool.and_eq_true, decide_eq_true_eq, beq_iff_eq]
  show (_ ∨ _ ∧ (a.message.queuedAt.nanos < b.message.queuedAt.nanos ∨
    a.message.queuedAt.nanos ≤ b.message.queuedAt.nanos ∧ a.seq < b.seq)) ↔ _
  omega

theorem first?_eq_none {order : PriorityOrder} {l : List Entry} (h : first? order l = none) : l = [] := by
  cases l with
  | nil => rfl
  | cons a l =>
    obtain ⟨b, hb⟩ := first?_cons order a l
    rw [h] at hb
    cases hb

theorem first?_least {order : PriorityOrder} {l : List Entry} {b : Entry} (h : first? order l = some b) :
    ∀ e ∈ l, ¬e.Precedes order b := by
  induction l generalizing b with
  | nil => cases h
  | cons a l ih =>
    intro e he
    simp only [first?] at h
    split at h
    · rename_i none
      cases h
      rw [first?_eq_none none, List.mem_singleton] at he
      subst he
      exact Entry.not_precedes_self
    · rename_i c hc
      split at h
      · rename_i earlier
        cases h
        rcases List.mem_cons.mp he with rfl | he
        · exact (before_iff.mp earlier).asymm
        · exact ih hc e he
      · rename_i later
        cases h
        rcases List.mem_cons.mp he with rfl | he
        · exact Entry.not_precedes_self
        · exact Entry.not_precedes_trans (fun c => later (before_iff.mpr c)) (ih hc e he)

/-- The entry that precedes all others comes first, wherever it stands. -/
theorem first?_eq {order : PriorityOrder} {l rest : List Entry} {e : Entry} (perm : l.Perm (e :: rest))
    (first : ∀ b ∈ rest, e.Precedes order b) : first? order l = some e := by
  cases found : first? order l with
  | none =>
    rw [first?_eq_none found] at perm
    exact absurd perm.symm.eq_nil (List.cons_ne_nil e rest)
  | some b =>
    have mem : b ∈ e :: rest := perm.mem_iff.mp (first?_mem found)
    rcases List.mem_cons.mp mem with rfl | mem
    · rfl
    · exact absurd (first b mem) (first?_least found e (perm.mem_iff.mpr List.mem_cons_self))

/-! ## Numbers -/

/-- Entries stand in the order of their numbers, all of which were given out. -/
structure Numbered (s : Store) : Prop where
  ascending : s.entries.Pairwise (·.seq < ·.seq)
  below : ∀ e ∈ s.entries, e.seq < s.nextSeq

namespace Numbered

theorem empty : Store.empty.Numbered := ⟨.nil, fun _ => nofun⟩

theorem modify (h : s.Numbered) (p : Message → Bool) (f : Message → Message) : (s.modify p f).Numbered := by
  constructor
  · rw [entries_modify, List.pairwise_map]
    exact h.ascending
  · intro e he
    rw [entries_modify] at he
    obtain ⟨e', he', rfl⟩ := List.mem_map.mp he
    exact h.below e' he'

theorem enqueue (h : s.Numbered) (m : Message) : (s.enqueue m).Numbered := by
  unfold Store.enqueue
  split
  · exact h
  · constructor
    · refine List.pairwise_append.mpr ⟨h.ascending, List.pairwise_singleton _ _, ?_⟩
      intro a ha b hb
      rw [List.mem_singleton.mp hb]
      exact h.below a ha
    · intro e he
      rcases List.mem_append.mp he with he | he
      · exact Nat.lt_succ_of_lt (h.below e he)
      · rw [List.mem_singleton.mp he]
        exact Nat.lt_succ_self s.nextSeq

theorem delete (h : s.Numbered) (id : MessageId) : (s.delete id).2.Numbered :=
  ⟨h.ascending.sublist List.filter_sublist, fun e he => h.below e (List.mem_filter.mp he).1⟩

theorem serve (h : s.Numbered) (now : Instant) (r : Request) : (s.serve now r).2.Numbered := by
  cases s.effect now r with
  | still e =>
    rw [e]
    exact h
  | change p f e _ =>
    rw [e]
    exact h.modify p f
  | arrival m _ e =>
    rw [e]
    exact h.enqueue m
  | departure id _ e =>
    rw [e]
    exact h.delete id
  | removal _ e =>
    -- the store is empty, and goes on counting
    rw [e]
    exact ⟨.nil, fun _ => nofun⟩

theorem run (h : s.Numbered) (rs : List (Instant × Request)) : (s.run rs).Numbered := by
  induction rs generalizing s with
  | nil => exact h
  | cons r rs ih => exact ih (h.serve r.1 r.2)

theorem apart (h : s.Numbered) : s.entries.Pairwise (·.seq ≠ ·.seq) := h.ascending.imp Nat.ne_of_lt

end Numbered

/-! ## Claims in a row -/

/-- The same entries, in any order. -/
structure Reordered (s s' : Store) : Prop where
  entries : s'.entries.Perm s.entries
  nextSeq : s'.nextSeq = s.nextSeq

theorem Reordered.refl (s : Store) : s.Reordered s := ⟨.refl _, rfl⟩

theorem Reordered.distinct {s' : Store} (h : s.Reordered s') (hd : s.Distinct) : s'.Distinct := by
  unfold Distinct messages at hd ⊢
  exact ((h.entries.map _).map _).nodup_iff.mpr hd

/-- Claims with one filter at one instant, by one worker after the other, and the replies to
them. Every claim looks through the store in an order of its own. -/
inductive Claims (filter : ClaimFilter) (now : Instant) :
    Store → List WorkerId → List (Option Message) → Store → Prop
  | nil (s : Store) : Claims filter now s [] [] s
  | cons {s looked after : Store} {worker : WorkerId} {workers : List WorkerId} {replies : List (Option Message)} :
      s.Reordered looked → Claims filter now (looked.tryClaim worker filter now).2 workers replies after →
      Claims filter now s (worker :: workers) ((looked.tryClaim worker filter now).1 :: replies) after

/-- Claims as a run makes them. -/
theorem Claims.of_run (filter : ClaimFilter) (now : Instant) (s : Store) (workers : List WorkerId) :
    let asked := workers.map fun w => (now, Request.tryClaim w filter)
    Claims filter now s workers ((s.history asked).map (·.claimed?)) (s.run asked) := by
  induction workers generalizing s with
  | nil => exact .nil s
  | cons worker workers ih => exact .cons (Reordered.refl s) (ih _)

/-- To change the message under one id is to change one entry. -/
theorem Distinct.entries_modify_id (hd : s.Distinct) {e : Entry} {others : List Entry}
    (perm : s.entries.Perm (e :: others)) (f : Message → Message) :
    (s.modify (·.id == e.message.id) f).entries.Perm ({ e with message := f e.message } :: others) := by
  have apart : ∀ b ∈ others, b.message.id ≠ e.message.id := by
    have nodup : ((e :: others).map (·.message.id)).Nodup := by
      unfold Distinct messages at hd
      rw [List.map_map] at hd
      exact (perm.map _).nodup_iff.mp hd
    rw [List.map_cons, List.nodup_cons] at nodup
    intro b hb same
    exact nodup.1 (same ▸ List.mem_map_of_mem hb)
  rw [entries_modify]
  refine (perm.map _).trans (List.Perm.of_eq ?_)
  rw [List.map_cons]
  congr 1
  · simp
  · refine (List.map_congr_left fun b hb => ?_).trans (List.map_id others)
    simp [apart b hb]

/-- The eligible entries of a store, in the order of claims, and all others. -/
structure Lined (filter : ClaimFilter) (now : Instant) (s : Store) (queue others : List Entry) : Prop where
  entries : s.entries.Perm (queue ++ others)
  eligible : ∀ e ∈ queue, isEligible filter now e.message = true
  ineligible : ∀ e ∈ others, isEligible filter now e.message = false
  sorted : queue.Pairwise (Entry.Precedes filter.order)
  distinct : s.Distinct

namespace Lined

variable {queue others : List Entry} {e : Entry}

theorem reordered {looked : Store} (h : Lined filter now s queue others) (order : s.Reordered looked) :
    Lined filter now looked queue others :=
  ⟨order.entries.trans h.entries, h.eligible, h.ineligible, h.sorted, order.distinct h.distinct⟩

theorem filtered (h : Lined filter now s queue others) :
    (s.entries.filter fun e => isEligible filter now e.message).Perm queue := by
  have all : queue.filter (fun e => isEligible filter now e.message) = queue := List.filter_eq_self.mpr h.eligible
  have none : others.filter (fun e => isEligible filter now e.message) = [] := by
    rw [List.filter_eq_nil_iff]
    intro e he
    simp [h.ineligible e he]
  have perm := h.entries.filter fun e => isEligible filter now e.message
  rwa [List.filter_append, all, none, List.append_nil] at perm

/-- Where nothing is eligible a claim finds nothing. -/
theorem claim_nil (h : Lined filter now s [] others) (worker : WorkerId) : s.tryClaim worker filter now = (none, s) := by
  have nothing : s.next? filter now = none := by
    unfold next?
    rw [h.filtered.eq_nil]
    rfl
  simp only [tryClaim, nothing]

/-- A claim takes the head of the queue, and leaves the rest of it as it was. -/
theorem claim_cons (h : Lined filter now s (e :: queue) others) (worker : WorkerId) :
    (s.tryClaim worker filter now).1 = some (e.message.claim worker now) ∧
      (s.tryClaim worker filter now).2.nextSeq = s.nextSeq ∧
      Lined filter now (s.tryClaim worker filter now).2 queue (Entry.claim e worker now :: others) := by
  obtain ⟨first, sorted⟩ := List.pairwise_cons.mp h.sorted
  have next : s.next? filter now = some e.message := by
    unfold next?
    rw [first?_eq h.filtered first]
    rfl
  simp only [tryClaim, next, true_and]
  refine ⟨rfl, ?_⟩
  constructor
  · have changed := h.distinct.entries_modify_id h.entries (·.claim worker now)
    exact changed.trans List.perm_middle.symm
  · exact fun b hb => h.eligible b (List.mem_cons_of_mem e hb)
  · intro b hb
    rcases List.mem_cons.mp hb with rfl | hb
    · rfl -- a message at work is not eligible
    · exact h.ineligible b hb
  · exact sorted
  · exact h.distinct.modify _ fun _ => rfl

/-- Claims in a row go through the queue from its head. -/
theorem claims {workers : List WorkerId} {replies : List (Option Message)} {after : Store}
    (run : Claims filter now s workers replies after) (h : Lined filter now s queue others) :
    replies = List.zipWith (fun e w => some (e.message.claim w now)) queue workers ++
        List.replicate (workers.length - queue.length) none ∧
      after.nextSeq = s.nextSeq ∧
      after.entries.Perm
        (List.zipWith (Entry.claim · · now) queue workers ++ queue.drop workers.length ++ others) := by
  induction run generalizing queue others with
  | nil s => exact ⟨by simp, rfl, by simpa using h.entries⟩
  | @cons s looked after worker workers replies order _ ih =>
    have h := h.reordered order
    cases queue with
    | nil =>
      rw [h.claim_nil worker] at ih ⊢
      obtain ⟨replies, nextSeq, entries⟩ := ih h
      refine ⟨?_, nextSeq.trans order.nextSeq, by simpa using entries⟩
      rw [replies]
      simp [List.replicate_succ]
    | cons e queue =>
      obtain ⟨reply, kept, lined⟩ := h.claim_cons worker
      obtain ⟨replies, nextSeq, entries⟩ := ih lined
      refine ⟨?_, nextSeq.trans (kept.trans order.nextSeq), ?_⟩
      · rw [reply, replies]
        simp
      · exact entries.trans List.perm_middle

end Lined

/-- The entries of a store can be put in line in one way. -/
theorem Numbered.lined (h : s.Numbered) (hd : s.Distinct) (filter : ClaimFilter) (now : Instant) :
    ∃ queue, queue.Perm (s.entries.filter fun e => isEligible filter now e.message) ∧
      Lined filter now s queue (s.entries.filter fun e => !isEligible filter now e.message) := by
  let eligible := s.entries.filter fun e => isEligible filter now e.message
  let queue := eligible.mergeSort fun a b => !before filter.order b a
  have perm : queue.Perm eligible := List.mergeSort_perm _ _
  refine ⟨queue, perm, ?_⟩
  constructor
  · exact (List.filter_append_perm _ s.entries).symm.trans (perm.symm.append_right _)
  · intro e he
    exact (List.mem_filter.mp (perm.mem_iff.mp he)).2
  · intro e he
    simpa using (List.mem_filter.mp he).2
  · have ordered : queue.Pairwise fun a b => (!before filter.order b a) = true := by
      refine List.pairwise_mergeSort ?_ ?_ eligible
      · intro a b c
        simp only [Bool.not_eq_true', ← Bool.not_eq_true, before_iff]
        exact Entry.not_precedes_trans
      · intro a b
        simp only [Bool.or_eq_true, Bool.not_eq_true', ← Bool.not_eq_true, before_iff]
        by_cases c : b.Precedes filter.order a
        · exact Or.inr c.asymm
        · exact Or.inl c
    have apart : queue.Pairwise (·.seq ≠ ·.seq) :=
      (perm.pairwise_iff fun h => h.symm).mpr (h.apart.sublist List.filter_sublist)
    refine (ordered.and apart).imp ?_
    rintro a b ⟨notAfter, ne⟩
    simp only [Bool.not_eq_true', ← Bool.not_eq_true, before_iff] at notAfter
    exact (Entry.precedes_total ne).resolve_right notAfter
  · exact hd

end Store

/-- Whatever requests led to the store, its entries are numbered in the order in which they came in. Claims with one
filter at one instant, whoever makes them and in whatever order each looks through the store, hand out what the filter
admits and can be claimed then, each message once, by priority, age and arrival; when all is handed out they find
nothing. All other entries stay as they are. -/
theorem drained_in_order (rs : List (Instant × Request)) (filter : ClaimFilter) (now : Instant) :
    let s := Store.empty.run rs
    s.Numbered ∧ ∃ queue : List Entry,
      queue.Perm (s.entries.filter fun e => e.message.isClaimable now && filter.admits e.message) ∧
      queue.Pairwise (Entry.Precedes filter.order) ∧
      (∀ workers replies after, Store.Claims filter now s workers replies after →
        replies = List.zipWith (fun e w => some (e.message.claim w now)) queue workers ++
            List.replicate (workers.length - queue.length) none ∧
          after.nextSeq = s.nextSeq ∧
          after.entries.Perm (List.zipWith (Entry.claim · · now) queue workers ++ queue.drop workers.length ++
            s.entries.filter fun e => !(e.message.isClaimable now && filter.admits e.message))) ∧
      ∀ workers : List WorkerId, let asked := workers.map fun w => (now, Request.tryClaim w filter)
        Store.Claims filter now s workers ((s.history asked).map (·.claimed?)) (s.run asked) := by
  intro s
  have numbered : s.Numbered := Store.Numbered.empty.run rs
  have distinct : s.Distinct := Store.distinct_run Store.distinct_empty rs
  obtain ⟨queue, eligible, lined⟩ := numbered.lined distinct filter now
  refine ⟨numbered, queue, eligible, lined.sorted, ?_, ?_⟩
  · intro workers replies after run
    exact lined.claims run
  · exact Store.Claims.of_run filter now s

/-- A store that was emptied once, with three messages of two priorities. -/
def mixed : List (Instant × Request) :=
  let job (id : MessageId) (priority : UInt16) := Message.ofDraft id { type := "job", body := [], priority } .epoch
  [(.epoch, .enqueue (job .nil 0)), (.epoch, .remove), (.epoch, .enqueue (job ⟨1⟩ 7)), (.epoch, .enqueue (job ⟨2⟩ 3)),
    (.epoch, .enqueue (job ⟨3⟩ 7))]

/-- Looked through from its end, the store hands out the same messages in the same order. -/
theorem drained_in_order_mixed :
    let s := Store.empty.run mixed
    let back : Store := { s with entries := s.entries.reverse }
    let asked := [⟨"first"⟩, ⟨"second"⟩, ⟨"first"⟩, ⟨"second"⟩].map fun w => (Instant.epoch, Request.tryClaim w {})
    (back.history asked).map (·.claimed?) = (s.history asked).map (·.claimed?) ∧
      (s.history asked).map (fun t => t.claimed?.map (·.id)) = [some ⟨2⟩, some ⟨1⟩, some ⟨3⟩, none] := by
  intro s back asked
  obtain ⟨-, queue, -, -, inOrder, runs⟩ := drained_in_order mixed {} .epoch
  have turned : s.Reordered back := ⟨List.reverse_perm _, rfl⟩
  have run : Store.Claims {} .epoch s [⟨"first"⟩, ⟨"second"⟩, ⟨"first"⟩, ⟨"second"⟩]
      ((back.history asked).map (·.claimed?)) (back.run asked) :=
    .cons turned (.of_run {} .epoch _ [⟨"second"⟩, ⟨"first"⟩, ⟨"second"⟩])
  exact ⟨(inOrder _ _ _ run).1.trans (inOrder _ _ _ (runs _)).1.symm, by decide⟩

end ClaimQueue
