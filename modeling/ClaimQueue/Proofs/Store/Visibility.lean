/-
  ClaimQueue.Proofs.Store.Visibility — no message is claimed before its time or after its end.

  The visibility of a message is erased in three ways: by a promotion, by a release and by a
  reclaim. None comes before the instant itself: a promotion looks at it, and the other two
  end a claim, which looked at it when it was made. As the clock does not go back, a message
  either waits with its visibility in place, or its time has come for good (`Message.Veiled`).

  What is so of a message when it arrives, and is kept whatever becomes of it, is so in the
  whole run (`Store.follow`). Main statement: `visibility_honored`.
-/

import ClaimQueue.Proofs.Store.Lifecycle

namespace ClaimQueue

theorem Instant.le_trans {a b c : Instant} (h : a ≤ b) (h' : b ≤ c) : a ≤ c := Int.le_trans h h'

/-- Histories in which messages are sent, claimed, finished and looked after, and the clock does not go back. -/
structure Timely (ts : List Served) : Prop where
  drafted : ∀ t ∈ ts, ∀ m, t.request = .enqueue m → ∃ draft now, m = .ofDraft m.id draft now
  /-- An id stands for one message, however often it is sent. -/
  named : ∀ t ∈ ts, ∀ u ∈ ts, ∀ m m', t.request = .enqueue m → u.request = .enqueue m' → m.id = m'.id → m = m'
  /-- An id that left the store does not come back. -/
  fresh : ts.Pairwise fun u t => ∀ m, t.request = .enqueue m → u.drops m.id = false
  /-- All changes are outcomes of work. -/
  outcomes : ∀ t ∈ ts, ∀ id change version, t.request = .updateStatus id change version → change.src = .working
  ordered : ts.Pairwise (·.now ≤ ·.now)

theorem Timely.right {ts us : List Served} (h : Timely (ts ++ us)) : Timely us where
  drafted t ht := h.drafted t (List.mem_append_right _ ht)
  named t ht u hu := h.named t (List.mem_append_right _ ht) u (List.mem_append_right _ hu)
  fresh := (List.pairwise_append.mp h.fresh).2.1
  outcomes t ht := h.outcomes t (List.mem_append_right _ ht)
  ordered := (List.pairwise_append.mp h.ordered).2.1

/-! ## One message -/

theorem Message.ofDraft_waits (id : MessageId) (draft : Draft) (now : Instant) :
    (Message.ofDraft id draft now).status.isWaiting = true := by
  simp only [Message.ofDraft]
  split <;> rfl

namespace Store

variable {filter : ClaimFilter} {now v x : Instant} {m : Message}

theorem visible_of_eligible (h : isEligible filter now m = true) (visible : m.visibleAt = some v) : v ≤ now := by
  simp only [isEligible, Message.isClaimable, Message.isVisible, visible, Bool.and_eq_true, Option.all_some,
    decide_eq_true_eq] at h
  exact h.1.1.2

theorem before_end_of_eligible (h : isEligible filter now m = true) (expires : m.expiresAt = some x) : now < x := by
  simp only [isEligible, Message.isClaimable, Message.isExpired, expires, Bool.and_eq_true, Bool.not_eq_true',
    Option.any_some, decide_eq_false_iff_not] at h
  exact Int.lt_of_not_ge h.1.2

theorem visible_of_ripe (h : isRipe now m = true) (visible : m.visibleAt = some v) : v ≤ now := by
  simp only [isRipe, Message.isVisible, visible, Bool.and_eq_true, Option.all_some, decide_eq_true_eq] at h
  exact h.1.2

end Store

/-- Nobody gets the message before `v`: it waits for that, or it ended, or `v` has come. -/
def Message.Veiled (v now : Instant) (m : Message) : Prop :=
  v ≤ now ∨ m.status.isTerminal = true ∨ (m.status.isWaiting = true ∧ m.visibleAt = some v)

namespace Message.Veiled

variable {v since : Instant} {m m' : Message} {t : Served}

theorem eligible {filter : ClaimFilter} {now : Instant} (veiled : m.Veiled v since) (later : since ≤ now)
    (eligible : Store.isEligible filter now m = true) : v ≤ now := by
  rcases veiled with come | ended | ⟨_, visible⟩
  · exact Instant.le_trans come later
  · have waits := Store.isWaiting_of_eligible eligible
    cases h : m.status <;> simp_all [Status.isTerminal, Status.isWaiting]
  · exact Store.visible_of_eligible eligible visible

/-- Whatever becomes of the message, if changes are outcomes of work. -/
theorem fate (veiled : m.Veiled v since) (later : since ≤ t.now)
    (outcomes : ∀ id change version, t.request = .updateStatus id change version → change.src = .working)
    (f : t.Fate m (some m')) : m'.Veiled v t.now := by
  rcases veiled with come | ended | ⟨waits, visible⟩
  · exact Or.inl (Instant.le_trans come later)
  · exact Or.inr (Or.inl (f.terminal ended ▸ ended))
  · -- nobody works on a message that waits
    have idle : m.status ≠ .working := by
      intro working
      rw [working] at waits
      cases waits
    cases f with
    | kept => exact Or.inr (Or.inr ⟨waits, visible⟩)
    | refreshed _ _ held => exact absurd (Store.working_of_holds held).1 idle
    | claimed _ _ _ eligible => exact Or.inl (Store.visible_of_eligible eligible visible)
    | changed change asked _ src => exact absurd (src.symm.trans (outcomes _ change _ asked)) idle
    | reclaimed _ _ _ silent => exact absurd (Store.working_of_reclaimable silent) idle
    | expired => exact Or.inr (Or.inl rfl)
    | promoted _ ripe => exact Or.inl (Store.visible_of_ripe ripe visible)

end Message.Veiled

/-- The end of a message is set once and for all. -/
theorem Served.Fate.expiresAt {t : Served} {m m' : Message} (f : t.Fate m (some m')) : m'.expiresAt = m.expiresAt := by
  cases f <;> rfl

/-! ## Runs -/

namespace Store

variable {s : Store} {id : MessageId} {m : Message}

/-- What is so of the message under an id at the start, or when it arrives, and is kept whatever becomes of it,
is so when any request of the run comes. -/
theorem follow {P : Instant → Message → Prop} {since : Instant} (distinct : s.Distinct) (rs : List (Instant × Request))
    (ordered : (s.history rs).Pairwise (·.now ≤ ·.now)) (later : ∀ t ∈ s.history rs, since ≤ t.now)
    (holds : ∀ m, s.get? id = some m → P since m)
    (arrives : ∀ t ∈ s.history rs, ∀ m, t.before.get? id = none → t.request = .enqueue m → m.id = id → P t.now m)
    (fate : ∀ t ∈ s.history rs, ∀ since m m', since ≤ t.now → P since m → t.Fate m (some m') → P t.now m') :
    ∀ t ∈ s.history rs, ∀ m, t.before.get? id = some m → ∃ since, since ≤ t.now ∧ P since m := by
  induction rs generalizing s since with
  | nil => exact fun _ => nofun
  | cons r rs ih =>
    let t : Served := ⟨r.1, r.2, s⟩
    obtain ⟨after, ordered⟩ := List.pairwise_cons.mp ordered
    have first := later t List.mem_cons_self
    have next : ∀ m', t.after.get? id = some m' → P t.now m' := by
      intro m' stored
      cases before : s.get? id with
      | none => exact arrives t List.mem_cons_self m' before (Served.arrival (t := t) before stored) (get?_id stored)
      | some m =>
        have f : t.Fate m (some m') := stored ▸ Served.fate (t := t) distinct before
        exact fate t List.mem_cons_self since m m' first (holds m before) f
    intro u mem m stored
    rcases List.mem_cons.mp mem with rfl | mem
    · exact ⟨since, first, holds m stored⟩
    · exact ih (distinct_serve distinct r.1 r.2) ordered after next
        (fun t mem => arrives t (List.mem_cons_of_mem _ mem)) (fun t mem => fate t (List.mem_cons_of_mem _ mem))
        u mem m stored

/-- As `follow`, from the empty store. -/
theorem follow_empty {P : Instant → Message → Prop} (rs : List (Instant × Request))
    (ordered : (empty.history rs).Pairwise (·.now ≤ ·.now))
    (arrives : ∀ t ∈ empty.history rs, ∀ m, t.before.get? id = none → t.request = .enqueue m → m.id = id → P t.now m)
    (fate : ∀ t ∈ empty.history rs, ∀ since m m', since ≤ t.now → P since m → t.Fate m (some m') → P t.now m') :
    ∀ t ∈ empty.history rs, ∀ m, t.before.get? id = some m → ∃ since, since ≤ t.now ∧ P since m := by
  cases rs with
  | nil => exact fun _ => nofun
  | cons r rs =>
    have later : ∀ t ∈ empty.history (r :: rs), r.1 ≤ t.now := by
      intro t mem
      rcases List.mem_cons.mp mem with rfl | mem
      · exact Int.le_refl _
      · exact (List.pairwise_cons.mp ordered).1 t mem
    exact follow distinct_empty (r :: rs) ordered later (fun _ => nofun) arrives fate

/-- What was there and is gone was dropped on the way. -/
theorem dropped_run (distinct : s.Distinct) (stored : s.get? id = some m) (rs : List (Instant × Request))
    (gone : (s.run rs).get? id = none) : ∃ t ∈ s.history rs, t.drops id = true := by
  induction rs generalizing s m with
  | nil => cases stored.symm.trans gone
  | cons r rs ih =>
    let t : Served := ⟨r.1, r.2, s⟩
    cases after : t.after.get? id with
    | none => exact ⟨t, List.mem_cons_self, Served.drops_iff.mpr ⟨⟨m, stored⟩, after⟩⟩
    | some m' =>
      obtain ⟨u, mem, dropped⟩ := ih (distinct_serve distinct r.1 r.2) after gone
      exact ⟨u, List.mem_cons_of_mem _ mem, dropped⟩

/-- A message that was there does not arrive again. -/
theorem not_arrives (distinct : s.Distinct) (stored : s.get? id = some m) {rs : List (Instant × Request)}
    (fresh : (s.history rs).Pairwise fun u t => ∀ m, t.request = .enqueue m → u.drops m.id = false) :
    ∀ t ∈ s.history rs, ∀ m, t.before.get? id = none → t.request = .enqueue m → m.id ≠ id := by
  rintro t mem m' absent sent rfl
  obtain ⟨pre, post, e⟩ := List.append_of_mem mem
  obtain ⟨rs₁, rs₂, rfl, rfl, before, _⟩ := history_cut e
  obtain ⟨u, mem', dropped⟩ := dropped_run distinct stored rs₁ (before ▸ absent)
  rw [e] at fresh
  have kept := (List.pairwise_append.mp fresh).2.2 u mem' t List.mem_cons_self m' sent
  rw [dropped] at kept
  cases kept

end Store

namespace Timely

variable {rs : List (Instant × Request)} {c t u : Served} {id : MessageId} {m out : Message} {v : Instant}

theorem distinct_before (mem : t ∈ Store.empty.history rs) : t.before.Distinct := by
  obtain ⟨pre, post, e⟩ := List.append_of_mem mem
  obtain ⟨rs₁, _, _, _, before, _⟩ := Store.history_cut e
  exact before ▸ Store.distinct_run Store.distinct_empty rs₁

/-- What a claim hands out was stored and could be claimed. -/
theorem eligible_of_claims (mem : c ∈ Store.empty.history rs) (claims : c.claims id = true) :
    ∃ m filter, c.before.get? id = some m ∧ Store.isEligible filter c.now m = true := by
  obtain ⟨out, claimed, rfl⟩ := Served.claims_iff.mp claims
  obtain ⟨m, _, filter, _, stored, eligible, _⟩ := Served.claimed?_some (distinct_before mem) claimed
  exact ⟨m, filter, stored, eligible⟩

/-- The rest of the run after a request. -/
theorem rest {pre post : List Served} (h : Timely (Store.empty.history rs))
    (e : Store.empty.history rs = pre ++ u :: post) :
    ∃ rs₂, u.after.history rs₂ = post ∧ Timely post ∧ (∀ t ∈ post, u.now ≤ t.now) ∧ u.after.Distinct := by
  have mem : u ∈ Store.empty.history rs := e ▸ List.mem_append_right _ List.mem_cons_self
  have distinct : u.after.Distinct := Store.distinct_serve (distinct_before mem) u.now u.request
  obtain ⟨_, rs₂, _, _, _, split⟩ := Store.history_cut e
  rw [e] at h
  have later : Timely ([u] ++ post) := h.right
  exact ⟨rs₂, split, later.right, (List.pairwise_cons.mp later.ordered).1, distinct⟩

theorem delayed (h : Timely (Store.empty.history rs)) (mem : t ∈ Store.empty.history rs) (sent : t.request = .enqueue m)
    (visible : m.visibleAt = some v) (mem' : c ∈ Store.empty.history rs) (claims : c.claims m.id = true) :
    v ≤ c.now := by
  obtain ⟨m', filter, stored, eligible⟩ := eligible_of_claims mem' claims
  obtain ⟨since, later, veiled⟩ := Store.follow_empty (P := Message.Veiled v) rs h.ordered
    (fun u hu m' _ arrives same => by
      obtain rfl := h.named u hu t mem m' m arrives sent same
      obtain ⟨draft, now, e⟩ := h.drafted u hu m' arrives
      exact Or.inr (Or.inr ⟨e ▸ Message.ofDraft_waits _ draft now, visible⟩))
    (fun u hu since _ _ later veiled f => veiled.fate later (h.outcomes u hu) f) c mem' m' stored
  exact veiled.eligible later eligible

theorem requeued {pre mid post : List Served} {change : Change} {version : UInt64}
    (h : Timely (Store.empty.history rs)) (e : Store.empty.history rs = pre ++ u :: (mid ++ c :: post))
    (request : u.request = .updateStatus id change version)
    (made : (u.before.updateStatus id change version u.now).1 = .ok out) (back : change.dst = .pending)
    (visible : change.visibleAt = some v) (claims : c.claims id = true) : v ≤ c.now := by
  have own : c ∈ Store.empty.history rs := by simp [e]
  obtain ⟨m', filter, stored, eligible⟩ := eligible_of_claims own claims
  obtain ⟨m, _, _, _, _, rfl, after⟩ := Store.updateStatus_ok made
  have there : u.after.get? id = some (change.apply m u.now) := by
    show (u.before.serve u.now u.request).2.get? id = _
    rw [request]
    exact (after id).trans (if_pos rfl)
  have veiled : (change.apply m u.now).Veiled v u.now := by
    refine Or.inr (Or.inr ⟨?_, ?_⟩)
    · show change.dst.isWaiting = true
      rw [back]
      rfl
    · simp [Change.apply, back, visible]
  obtain ⟨rs₂, split, rest, onward, distinct⟩ := h.rest e
  have mem : c ∈ u.after.history rs₂ := split ▸ List.mem_append_right _ List.mem_cons_self
  rw [← split] at rest onward
  obtain ⟨since, later, veiled⟩ := Store.follow (P := Message.Veiled v) distinct rs₂ rest.ordered onward
    (fun m' stored => by
      cases there.symm.trans stored
      exact veiled)
    (fun t ht m' absent sent same => absurd same (Store.not_arrives distinct there rest.fresh t ht m' absent sent))
    (fun t ht since _ _ later veiled f => veiled.fate later (rest.outcomes t ht) f) c mem m' stored
  exact veiled.eligible later eligible

theorem ends (h : Timely (Store.empty.history rs)) (mem : t ∈ Store.empty.history rs) (sent : t.request = .enqueue m)
    (mem' : c ∈ Store.empty.history rs) (claimed : c.claimed? = some out) (same : out.id = m.id) :
    out.expiresAt = m.expiresAt := by
  obtain ⟨m', _, _, _, stored, _, rfl, _⟩ := Served.claimed?_some (distinct_before mem') claimed
  obtain ⟨_, _, kept⟩ := Store.follow_empty (P := fun _ m' => m'.expiresAt = m.expiresAt) rs h.ordered
    (fun u hu m' _ arrives same' => by rw [h.named u hu t mem m' m arrives sent (same'.trans same)])
    (fun _ _ _ _ _ _ kept f => f.expiresAt.trans kept) c mem' m' stored
  exact kept

/-- What has ended stays so until it is deleted. -/
theorem stays {pre mid post : List Served} (h : Timely (Store.empty.history rs))
    (e : Store.empty.history rs = pre ++ u :: (mid ++ t :: post)) (after : u.after.get? id = some m)
    (ended : m.status.isTerminal = true) :
    t.after.get? id = some m ∨ t.after.get? id = none ∧ ∃ d ∈ mid ++ [t], d.drops id = true ∧
      (d.request = .delete id ∨ d.request = .remove) := by
  obtain ⟨rs₂, split, rest, _, distinct⟩ := h.rest e
  have fresh := rest.fresh
  obtain ⟨rs₃, rs₄, rfl, rfl, before, _⟩ := Store.history_cut split
  -- the run up to `t` and with it
  have upTo : u.after.history (rs₃ ++ [(t.now, t.request)]) = u.after.history rs₃ ++ [t] := by
    rw [Store.history_append, ← before]
    rfl
  have there : u.after.run (rs₃ ++ [(t.now, t.request)]) = t.after := by
    rw [Store.run_append, ← before]
    rfl
  rw [List.append_cons, ← upTo] at fresh
  have stays := Store.terminal_run distinct after ended _ (List.pairwise_append.mp fresh).1
  rw [there, upTo] at stays
  exact stays

end Timely

/-- A pass ends what waits beyond its end. -/
theorem Served.expires {u : Served} {id : MessageId} {m : Message} {x : Instant} (request : u.request = .expireDue)
    (stored : u.before.get? id = some m) (waits : m.status = .delayed ∨ m.status = .pending)
    (expires : m.expiresAt = some x) (come : x ≤ u.now) :
    u.after.get? id = some (({ src := m.status, dst := .expired } : Change).apply m u.now) := by
  have waiting : m.status.isWaiting = true := (Status.isWaiting_iff _).mpr waits
  have due : Store.isDue u.now m = true := by simp [Store.isDue, waiting, Message.isExpired, expires, come]
  show (u.before.serve u.now u.request).2.get? id = _
  rw [request]
  show (u.before.expireDue u.now).2.get? id = _
  rw [Store.get?_expireDue, stored, Option.map_some, if_pos due]

/-- When messages are handed out, and when they end. -/
structure Honored (ts : List Served) : Prop where
  delayed : ∀ t ∈ ts, ∀ m v, t.request = .enqueue m → m.visibleAt = some v → ∀ c ∈ ts, c.claims m.id → v ≤ c.now
  requeued : ∀ pre u mid c post id change version v, ts = pre ++ u :: (mid ++ c :: post) →
    u.request = .updateStatus id change version →
    (∃ out, (u.before.updateStatus id change version u.now).1 = .ok out) → change.dst = .pending →
    change.visibleAt = some v → c.claims id → v ≤ c.now
  unexpired : ∀ c ∈ ts, ∀ m x, c.claimed? = some m → m.expiresAt = some x → c.now < x
  /-- The end of a message is the one it was sent with. -/
  ends : ∀ t ∈ ts, ∀ m, t.request = .enqueue m → ∀ c ∈ ts, ∀ out, c.claimed? = some out → out.id = m.id →
    out.expiresAt = m.expiresAt
  /-- A pass ends all that waits beyond its end, and what it ended stays so until it is deleted. -/
  expired : ∀ pre u post id m x, ts = pre ++ u :: post → u.request = .expireDue → u.before.get? id = some m →
    m.status = .delayed ∨ m.status = .pending → m.expiresAt = some x → x ≤ u.now →
    ∃ m', m'.status = .expired ∧ u.after.get? id = some m' ∧ ∀ mid t rest, post = mid ++ t :: rest →
      t.after.get? id = some m' ∨ t.after.get? id = none ∧ ∃ d ∈ mid ++ [t], d.drops id = true ∧
        (d.request = .delete id ∨ d.request = .remove)

/-- Over every timely run, visibility and expiration are honored. -/
theorem visibility_honored (rs : List (Instant × Request)) (h : Timely (Store.empty.history rs)) :
    Honored (Store.empty.history rs) where
  delayed t mem m v sent visible c mem' claims := h.delayed mem sent visible mem' claims
  requeued pre u mid c post id change version v e request made back visible claims := by
    obtain ⟨out, made⟩ := made
    exact h.requeued e request made back visible claims
  unexpired c mem out x claimed expires := by
    obtain ⟨m, _, _, _, _, eligible, rfl, _⟩ := Served.claimed?_some (Timely.distinct_before mem) claimed
    exact Store.before_end_of_eligible eligible expires
  ends t mem m sent c mem' out claimed same := h.ends mem sent mem' claimed same
  expired pre u post id m x e request stored waits expires come := by
    have after := Served.expires request stored waits expires come
    refine ⟨_, rfl, after, ?_⟩
    rintro mid t rest rfl
    exact h.stays e after rfl

/-- A message is sent with a delay of one second. The worker that gets it then fails and defers
it to second three; the next one gives it back, and in second six the message expires. -/
def deferred : List (Instant × Request) :=
  let second (n : UInt64) : Instant := (Instant.epoch.add? (.ofMillis (1000 * n))).getD .epoch
  let m := Message.ofDraft .nil
    { type := "job", body := [], delay := some (.ofMillis 1000), expiration := some (.ofMillis 6000) } .epoch
  [(second 0, .enqueue m), (second 0, .promoteDelayed), (second 0, .tryClaim ⟨"first"⟩ {}),
    (second 1, .promoteDelayed), (second 1, .tryClaim ⟨"first"⟩ {}),
    (second 1, .updateStatus .nil (.requeue "busy" (some (second 3))) 2), (second 2, .promoteDelayed),
    (second 2, .tryClaim ⟨"second"⟩ {}), (second 3, .tryClaim ⟨"second"⟩ {}), (second 3, .updateStatus .nil .rollback 4),
    (second 6, .expireDue), (second 6, .tryClaim ⟨"first"⟩ {})]

theorem timely_deferred : Timely (Store.empty.history deferred) := by
  have sent : ∀ t ∈ Store.empty.history deferred, ∀ m, t.request = .enqueue m → m = .ofDraft .nil
      { type := "job", body := [], delay := some (.ofMillis 1000), expiration := some (.ofMillis 6000) } .epoch := by
    simp [deferred, Store.history]
  exact {
    drafted := by
      intro t ht m h
      obtain rfl := sent t ht m h
      exact ⟨_, _, rfl⟩
    named := fun t ht u hu m m' h h' _ => (sent t ht m h).trans (sent u hu m' h').symm
    fresh := by
      have kept : ∀ u ∈ Store.empty.history deferred, u.drops .nil = false := by decide
      refine List.pairwise_of_forall_mem_list fun u hu t ht m h => ?_
      rw [sent t ht m h]
      exact kept u hu
    outcomes := by simp [deferred, Store.history, Change.requeue, Change.rollback]
    ordered := by decide }

/-- In `deferred` the message is claimed in seconds one and three, after its delay and never
beyond its end, and its expiry is the last thing that happens to it. -/
theorem visibility_honored_deferred :
    Timely (Store.empty.history deferred) ∧
      ((Store.empty.history deferred).filter (·.claims .nil)).map (·.now.nanos) = [1_000_000_000, 3_000_000_000] ∧
      (∃ m v x, (Instant.epoch, Request.enqueue m) ∈ deferred ∧ m.visibleAt = some v ∧ m.expiresAt = some x ∧
        ∀ c ∈ Store.empty.history deferred, ∀ out, c.claimed? = some out → out.id = m.id → v ≤ c.now ∧ c.now < x) ∧
      ((Store.empty.run deferred).get? .nil).map (·.status) = some .expired := by
  have honored := visibility_honored deferred timely_deferred
  refine ⟨timely_deferred, by decide, ⟨_, _, _, List.mem_cons_self, rfl, rfl, fun c hc out claimed same => ?_⟩, rfl⟩
  have sent : ∃ u ∈ Store.empty.history deferred, u.request = .enqueue _ := ⟨_, List.mem_cons_self, rfl⟩
  obtain ⟨u, hu, sent⟩ := sent
  exact ⟨honored.delayed u hu _ _ sent rfl c hc (Served.claims_iff.mpr ⟨out, claimed, same⟩),
    honored.unexpired c hc out _ claimed (honored.ends u hu _ sent c hc out claimed same)⟩

end ClaimQueue
