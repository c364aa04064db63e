/-
  ClaimQueue.Proofs.Store.Lookup — a store as its ids show it.

  What an operation does is said here by `get?`: which message stands under an id
  afterwards, given the one before. Only claims need more than that: the message a claim
  takes is an entry of the list, and is the one under its id because no id stands in the
  list twice (`Distinct`, kept by every request: `distinct_serve`). `effect` says what any
request can do to the ids.
-/

import ClaimQueue.Store.Request

namespace ClaimQueue

theorem Status.isWaiting_iff (a : Status) : a.isWaiting = true ↔ a = .delayed ∨ a = .pending := by
  cases a <;> decide

/-- Nothing becomes delayed. -/
theorem Status.canBecome_delayed (a : Status) : a.canBecome .delayed = false := by cases a <;> rfl

theorem Change.isAllowed_iff (c : Change) : c.isAllowed = true ↔ c.dst ≠ .working ∧ c.src.canBecome c.dst = true := by
  simp [isAllowed]

@[simp] theorem Message.promote_id (m : Message) (now : Instant) : (m.promote now).id = m.id := rfl
@[simp] theorem Change.apply_id (c : Change) (m : Message) (now : Instant) : (c.apply m now).id = m.id := rfl

/-- A span that can be measured against no instant is longer than any two are apart. -/
theorem Instant.since_lt_reach (a b : Instant) : a.since b < Span.reach := by
  have := a.upper
  have := b.lower
  unfold Instant.since Span.reach
  omega

theorem Message.isClaimDead_iff {m : Message} {beat now : Instant} (working : m.status = .working)
    (heard : m.heartbeatAt = some beat) (dead : Span) :
    m.isClaimDead now dead = true ↔ beat.nanos + dead.nanos < now.nanos := by
  have reach := now.since_lt_reach beat
  simp only [isClaimDead, working, heard, Span.measurable, beq_self_eq_true, Bool.true_and, Bool.and_eq_true,
    decide_eq_true_eq]
  unfold Instant.since at reach ⊢
  omega

namespace Store

variable {s : Store} {id : MessageId} {m : Message}

theorem get?_id (h : s.get? id = some m) : m.id = id := by simpa using List.find?_some h

theorem mem_of_get? (h : s.get? id = some m) : m ∈ s.messages := List.mem_of_find?_eq_some h

theorem contains_eq (s : Store) (id : MessageId) : s.contains id = (s.get? id).isSome := by
  rw [Bool.eq_iff_iff, contains, get?, List.any_eq_true, List.find?_isSome]

/-! ## Changes that keep the ids -/

theorem entries_modify (s : Store) (p : Message → Bool) (f : Message → Message) :
    (s.modify p f).entries = s.entries.map fun e => { e with message := if p e.message then f e.message else e.message } := by
  refine List.map_congr_left fun e _ => ?_
  split <;> rfl

theorem messages_modify (s : Store) (p : Message → Bool) (f : Message → Message) :
    (s.modify p f).messages = s.messages.map fun m => if p m then f m else m := by
  simp only [messages, entries_modify, List.map_map]
  rfl

theorem get?_modify (s : Store) (p : Message → Bool) {f : Message → Message} (hf : ∀ m, (f m).id = m.id)
    (id : MessageId) : (s.modify p f).get? id = (s.get? id).map fun m => if p m then f m else m := by
  have same : ((fun m : Message => m.id == id) ∘ fun m => if p m then f m else m) = fun m => m.id == id := by
    funext m
    simp only [Function.comp_apply]
    split
    · rw [hf]
    · rfl
  rw [get?, messages_modify, List.find?_map, same]
  rfl

/-- A change of the message under one id. -/
theorem get?_modify_id (s : Store) (i : MessageId) {f : Message → Message} (hf : ∀ m, (f m).id = m.id)
    (id : MessageId) :
    (s.modify (·.id == i) f).get? id = if id = i then (s.get? id).map f else s.get? id := by
  rw [get?_modify s _ hf]
  cases h : s.get? id with
  | none => simp
  | some m =>
    obtain rfl := get?_id h
    by_cases e : m.id = i
    · simp [e]
    · simp [e]

/-! ## Arrivals and removals -/

theorem messages_enqueue (s : Store) (m : Message) :
    (s.enqueue m).messages = if s.contains m.id then s.messages else s.messages ++ [m] := by
  unfold enqueue
  split
  · rfl
  · simp [messages]

theorem get?_enqueue (s : Store) (m : Message) (id : MessageId) :
    (s.enqueue m).get? id = if id = m.id then some ((s.get? id).getD m) else s.get? id := by
  rw [get?, messages_enqueue, contains_eq]
  by_cases e : id = m.id
  · subst e
    cases h : s.get? m.id with
    | some m' =>
      simp only [Option.isSome_some, if_true, Option.getD_some]
      exact h
    | none =>
      rw [get?] at h
      simp [List.find?_append, h]
  · have ne : (m.id == id) = false := by simpa using fun h : m.id = id => e h.symm
    rw [if_neg e]
    split
    · rfl
    · simp [get?, List.find?_append, ne]

theorem get?_delete (s : Store) (i id : MessageId) :
    (s.delete i).2.get? id = if id = i then none else s.get? id := by
  have filtered : (s.delete i).2.messages = s.messages.filter (·.id != i) := by
    simp only [delete, messages, List.filter_map]
    rfl
  rw [get?, filtered, List.find?_filter]
  split
  · rename_i e
    subst e
    rw [List.find?_eq_none]
    intro m _
    simp
  · rename_i e
    rw [get?]
    congr 1
    funext m
    by_cases h : m.id = id
    · simp [h, e]
    · simp [h]

/-! ## No id twice -/

def Distinct (s : Store) : Prop := (s.messages.map (·.id)).Nodup

theorem distinct_empty : Store.empty.Distinct := List.nodup_nil

theorem Distinct.get?_of_mem (hd : s.Distinct) (h : m ∈ s.messages) : s.get? m.id = some m := by
  unfold Distinct at hd
  unfold get?
  generalize s.messages = l at hd h
  induction l with
  | nil => cases h
  | cons a l ih =>
    rw [List.map_cons, List.nodup_cons] at hd
    rcases List.mem_cons.mp h with rfl | h
    · simp
    · have ne : a.id ≠ m.id := fun e => hd.1 (e ▸ List.mem_map_of_mem h)
      rw [List.find?_cons_of_neg (by simpa using ne)]
      exact ih hd.2 h

theorem Distinct.eq_of_id {m' : Message} (hd : s.Distinct) (mem : m' ∈ s.messages) (h : s.get? id = some m)
    (same : m'.id = id) : m' = m := by
  subst same
  exact Option.some.inj ((hd.get?_of_mem mem).symm.trans h)

theorem ids_modify (s : Store) (p : Message → Bool) {f : Message → Message} (hf : ∀ m, (f m).id = m.id) :
    (s.modify p f).messages.map (·.id) = s.messages.map (·.id) := by
  rw [messages_modify, List.map_map]
  refine List.map_congr_left fun m _ => ?_
  simp only [Function.comp_apply]
  split
  · exact hf m
  · rfl

theorem Distinct.modify (hd : s.Distinct) (p : Message → Bool) {f : Message → Message}
    (hf : ∀ m, (f m).id = m.id) : (s.modify p f).Distinct := by
  unfold Distinct
  rw [ids_modify s p hf]
  exact hd

theorem Distinct.enqueue (hd : s.Distinct) (m : Message) : (s.enqueue m).Distinct := by
  unfold Store.enqueue
  split
  · exact hd
  · rename_i h
    have absent : ∀ m' ∈ s.messages, m'.id ≠ m.id := by simpa [contains] using h
    simp only [Distinct, messages, List.map_append, List.map_cons, List.map_nil]
    refine List.nodup_append.mpr ⟨hd, by simp, ?_⟩
    intro i hi j hj
    obtain ⟨m', hm', rfl⟩ := List.mem_map.mp hi
    rw [List.mem_singleton.mp hj]
    exact absent m' hm'

theorem Distinct.delete (hd : s.Distinct) (i : MessageId) : (s.delete i).2.Distinct := by
  refine List.Nodup.sublist ?_ hd
  exact (List.filter_sublist.map _).map _

/-! ## Claims -/

theorem first?_mem {order : PriorityOrder} {l : List Entry} {e : Entry} (h : first? order l = some e) : e ∈ l := by
  induction l generalizing e with
  | nil => cases h
  | cons a l ih =>
    simp only [first?] at h
    split at h
    · cases h
      exact List.mem_cons_self
    · rename_i b hb
      split at h
      · cases h
        exact List.mem_cons_of_mem _ (ih hb)
      · cases h
        exact List.mem_cons_self

theorem next?_mem {filter : ClaimFilter} {now : Instant} (h : s.next? filter now = some m) :
    m ∈ s.messages ∧ isEligible filter now m = true := by
  obtain ⟨e, he, rfl⟩ := Option.map_eq_some_iff.mp h
  obtain ⟨mem, eligible⟩ := List.mem_filter.mp (first?_mem he)
  exact ⟨List.mem_map_of_mem mem, eligible⟩

/-- A claim takes an eligible message; the store then holds it as it was handed out. -/
theorem tryClaim_some {worker : WorkerId} {filter : ClaimFilter} {now : Instant} {out : Message}
    (hd : s.Distinct) (h : (s.tryClaim worker filter now).1 = some out) :
    ∃ m, s.get? m.id = some m ∧ isEligible filter now m = true ∧ out = m.claim worker now ∧
      ∀ id, (s.tryClaim worker filter now).2.get? id = if id = m.id then some out else s.get? id := by
  unfold tryClaim at h ⊢
  cases hn : s.next? filter now with
  | none => simp [hn] at h
  | some m =>
    obtain ⟨mem, eligible⟩ := next?_mem hn
    simp only [hn, Option.some.injEq] at h
    have stored := hd.get?_of_mem mem
    refine ⟨m, stored, eligible, h.symm, fun id => ?_⟩
    rw [get?_modify_id s m.id (f := (·.claim worker now)) fun _ => rfl]
    split
    · rename_i e
      rw [e, stored, ← h]
      rfl
    · rfl

theorem tryClaim_none {worker : WorkerId} {filter : ClaimFilter} {now : Instant}
    (h : (s.tryClaim worker filter now).1 = none) : (s.tryClaim worker filter now).2 = s := by
  unfold tryClaim at h ⊢
  cases hn : s.next? filter now with
  | none => rfl
  | some m => simp [hn] at h

/-! ## Outcomes -/

/-- A change is made only if it is allowed and the message is where it starts, at the version asked for. -/
theorem updateStatus_ok {change : Change} {version : UInt64} {now : Instant} {out : Message}
    (h : (s.updateStatus id change version now).1 = .ok out) :
    ∃ m, s.get? id = some m ∧ change.isAllowed = true ∧ m.status = change.src ∧ m.version = version ∧
      out = change.apply m now ∧
      ∀ i, (s.updateStatus id change version now).2.get? i = if i = id then some out else s.get? i := by
  unfold updateStatus Change.check at h ⊢
  by_cases allowed : change.isAllowed = true
  · rw [if_pos allowed] at h ⊢
    cases hg : s.get? id with
    | none => simp [hg] at h
    | some m =>
      by_cases c : m.status = change.src ∧ m.version = version
      · simp only [hg, if_pos c, Except.ok.injEq] at h
        refine ⟨m, rfl, allowed, c.1, c.2, h.symm, fun i => ?_⟩
        simp only [if_pos c]
        rw [get?_modify_id s id (f := (change.apply · now)) fun _ => rfl]
        split
        · rename_i e
          rw [e, hg, ← h]
          rfl
        · rfl
      · simp [hg, if_neg c] at h
  · simp [if_neg allowed] at h

theorem updateStatus_made {change : Change} {now : Instant} (h : s.get? id = some m)
    (allowed : change.isAllowed = true) (src : m.status = change.src) :
    (s.updateStatus id change m.version now).1 = .ok (change.apply m now) := by
  simp [updateStatus, Change.check, allowed, h, src]

theorem updateStatus_error {change : Change} {version : UInt64} {now : Instant} {e : Error}
    (h : (s.updateStatus id change version now).1 = .error e) :
    (s.updateStatus id change version now).2 = s := by
  unfold updateStatus at h ⊢
  split at h
  · rfl
  · split at h
    · rfl
    · split at h
      · cases h
      · rename_i hn _ c
        simp [c]

/-! ## What requests look for -/

theorem isWaiting_of_eligible {filter : ClaimFilter} {now : Instant} (h : isEligible filter now m = true) :
    m.status.isWaiting = true := by
  simp only [isEligible, Message.isClaimable, Bool.and_eq_true] at h
  exact h.1.1.1

theorem working_of_holds {worker : WorkerId} (h : holds m worker = true) :
    m.status = .working ∧ m.owner = some worker := by
  simpa [holds] using h

theorem working_of_reclaimable {now : Instant} {dead : Span} {lookback : Option Span}
    (h : isReclaimable now dead lookback m = true) : m.status = .working := by
  simp only [isReclaimable, Message.isClaimDead, Bool.and_eq_true, beq_iff_eq] at h
  exact h.1.1

theorem isWaiting_of_due {now : Instant} (h : isDue now m = true) : m.status.isWaiting = true := by
  simp only [isDue, Bool.and_eq_true] at h
  exact h.1

theorem delayed_of_ripe {now : Instant} (h : isRipe now m = true) : m.status = .delayed := by
  simp only [isRipe, Bool.and_eq_true, beq_iff_eq] at h
  exact h.1.1

/-! ## Heartbeats and scans -/

theorem get?_resetHeartbeat (s : Store) (id : MessageId) (worker : WorkerId) (now : Instant) (i : MessageId) :
    (s.resetHeartbeat id worker now).2.get? i = (s.get? i).map fun m =>
      if m.id = id ∧ holds m worker = true then { m with heartbeatAt := some now } else m := by
  have fixed : ∀ {o : Option Message}, (∀ m, o = some m → ¬(m.id = id ∧ holds m worker = true)) →
      o = o.map fun m => if m.id = id ∧ holds m worker = true then { m with heartbeatAt := some now } else m := by
    rintro (_ | m) h
    · rfl
    · rw [Option.map_some, if_neg (h m rfl)]
  unfold resetHeartbeat
  split
  · rename_i held
    rw [get?_modify_id s id (f := fun m => { m with heartbeatAt := some now }) fun _ => rfl]
    split
    · rename_i e
      subst e
      cases h : s.get? i with
      | none => rfl
      | some m =>
        have hm : holds m worker = true := by simpa [h] using held
        simp [get?_id h, hm]
    · rename_i e
      exact fixed fun m h c => e ((get?_id h).symm.trans c.1)
  · rename_i free
    refine fixed fun m h c => free ?_
    obtain rfl : i = id := (get?_id h).symm.trans c.1
    rw [h]
    exact c.2

theorem get?_reclaimDead (s : Store) (now : Instant) (dead : Span) (lookback : Option Span) (id : MessageId) :
    (s.reclaimDead now dead lookback).2.get? id = (s.get? id).map fun m =>
      if isReclaimable now dead lookback m then Change.rollback.apply m now else m :=
  get?_modify s _ (fun m => Change.apply_id .rollback m now) id

theorem get?_expireDue (s : Store) (now : Instant) (id : MessageId) :
    (s.expireDue now).2.get? id = (s.get? id).map fun m =>
      if isDue now m then ({ src := m.status, dst := .expired : Change }).apply m now else m :=
  get?_modify s _ (fun m => Change.apply_id { src := m.status, dst := .expired } m now) id

theorem get?_promoteDelayed (s : Store) (now : Instant) (id : MessageId) :
    (s.promoteDelayed now).2.get? id = (s.get? id).map fun m => if isRipe now m then m.promote now else m :=
  get?_modify s _ (fun m => Message.promote_id m now) id

theorem mem_reclaimDead {now : Instant} {dead : Span} {lookback : Option Span} (hd : s.Distinct) :
    id ∈ (s.reclaimDead now dead lookback).1 ↔
      ∃ m, s.get? id = some m ∧ isReclaimable now dead lookback m = true := by
  simp only [reclaimDead, List.mem_map, List.mem_filter]
  constructor
  · rintro ⟨m, ⟨mem, h⟩, rfl⟩
    exact ⟨m, hd.get?_of_mem mem, h⟩
  · rintro ⟨m, hm, h⟩
    exact ⟨m, ⟨mem_of_get? hm, h⟩, get?_id hm⟩

/-! ## What requests do to the ids -/

/-- What a request leaves of a store: only `enqueue` brings ids in, and only `delete` and
`remove` take them out. -/
inductive Effect (s : Store) (r : Request) (after : Store) : Prop
  | still : after = s → Effect s r after
  | change (p : Message → Bool) (f : Message → Message) : after = s.modify p f → (∀ m, (f m).id = m.id) →
      Effect s r after
  | arrival (m : Message) : r = .enqueue m → after = s.enqueue m → Effect s r after
  | departure (id : MessageId) : r = .delete id → after = (s.delete id).2 → Effect s r after
  | removal : r = .remove → after = s.clear → Effect s r after

theorem effect (s : Store) (now : Instant) (r : Request) : Effect s r (s.serve now r).2 := by
  cases r with
  | create | get | count => exact .still rfl
  | remove => exact .removal rfl rfl
  | enqueue m => exact .arrival m rfl rfl
  | delete id => exact .departure id rfl rfl
  | tryClaim worker filter =>
    show Effect s _ (s.tryClaim worker filter now).2
    unfold tryClaim
    split
    · exact .still rfl
    · rename_i m _
      exact .change (·.id == m.id) (·.claim worker now) rfl fun _ => rfl
  | updateStatus id c version =>
    show Effect s _ (s.updateStatus id c version now).2
    unfold updateStatus
    repeat' split
    all_goals first
      | exact .still rfl
      | exact .change (·.id == id) (c.apply · now) rfl fun _ => rfl
  | resetHeartbeat id worker =>
    show Effect s _ (s.resetHeartbeat id worker now).2
    unfold resetHeartbeat
    split
    · exact .change (·.id == id) (fun m => { m with heartbeatAt := some now }) rfl fun _ => rfl
    · exact .still rfl
  | reclaimDead dead lookback =>
    exact .change (isReclaimable now dead lookback) (Change.rollback.apply · now) rfl fun _ => rfl
  | expireDue =>
    exact .change (isDue now) (fun m => ({ src := m.status, dst := .expired : Change }).apply m now) rfl fun _ => rfl
  | promoteDelayed => exact .change (isRipe now) (·.promote now) rfl fun _ => rfl

theorem distinct_serve (hd : s.Distinct) (now : Instant) (r : Request) : (s.serve now r).2.Distinct := by
  cases s.effect now r with
  | still e =>
    rw [e]
    exact hd
  | change p f e hf =>
    rw [e]
    exact hd.modify p hf
  | arrival m _ e =>
    rw [e]
    exact hd.enqueue m
  | departure id _ e =>
    rw [e]
    exact hd.delete id
  | removal _ e =>
    rw [e]
    exact List.nodup_nil

theorem distinct_run (hd : s.Distinct) (rs : List (Instant × Request)) : (s.run rs).Distinct := by
  induction rs generalizing s with
  | nil => exact hd
  | cons r rs ih => exact ih (distinct_serve hd r.1 r.2)

end Store

end ClaimQueue
