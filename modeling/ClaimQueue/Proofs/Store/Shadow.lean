/-
  ClaimQueue.Proofs.Store.Shadow — two stores that differ only in what the scans for delays
  and expirations did.

  `s` is a store in which nobody looks for messages whose time has come or has run out, `u`
  one in which somebody does. A message of `u` may then be ahead of the one in `s`
  (`Ahead`): pending though `s` still has it delayed, or expired though `s` still has it
  waiting. Neither shows: a claim takes a delayed message as soon as it is visible, and no
  message after its expiration.

  Versions drift apart, as `u` counts the changes that `s` did not make. But a message that
  was claimed once is never delayed again, so from its first claim on both versions move
  together until it expires: what was handed out (`tickets`) is as far behind in `s` as in
  `u`, and an outcome that shows its ticket meets the same answer (`Shadow.fits_iff`).
-/

import Mathlib.Data.List.Forall2
import ClaimQueue.Proofs.Store.Lookup

namespace ClaimQueue

/-- What the scans for delays and expirations leave alone. -/
def Message.core (m : Message) : Message :=
  { m with status := .pending, visibleAt := none, version := 0, updatedAt := .epoch }

/-- `b` is where `a` is, or where the scans would have taken it by `now`. -/
inductive Ahead (now : Instant) (a b : Message) : Prop
  | level : a.status = b.status → (a.status.isWaiting = true → a.visibleAt = b.visibleAt) → Ahead now a b
  | promoted : a.status = .delayed → a.isVisible now = true → b.status = .pending → b.visibleAt = none → Ahead now a b
  | expired : a.status.isWaiting = true → a.isExpired now = true → b.status = .expired → Ahead now a b

/-- A message, and the same one after scans. Each ticket is what one claim handed out on
either side. -/
structure Shadow (now : Instant) (tickets : List (Message × Message)) (a b : Message) : Prop where
  core : a.core = b.core
  ahead : Ahead now a b
  tracked : ∀ t ∈ tickets, t.1.id = a.id →
    a.status ≠ .delayed ∧ (b.status = .expired ∨ a.version - t.1.version = b.version - t.2.version)

theorem Message.isVisible_later {m : Message} {now later : Instant} (h : m.isVisible now = true) (le : now ≤ later) :
    m.isVisible later = true := by
  unfold isVisible at h ⊢
  cases hv : m.visibleAt with
  | none => rfl
  | some at' =>
    rw [hv] at h
    simp only [Option.all_some, decide_eq_true_eq] at h ⊢
    exact Int.le_trans h le

theorem Message.isExpired_later {m : Message} {now later : Instant} (h : m.isExpired now = true) (le : now ≤ later) :
    m.isExpired later = true := by
  unfold isExpired at h ⊢
  cases he : m.expiresAt with
  | none => rw [he] at h; cases h
  | some at' =>
    rw [he] at h
    simp only [Option.any_some, decide_eq_true_eq] at h ⊢
    exact Int.le_trans h le

namespace Shadow

variable {now : Instant} {tickets : List (Message × Message)} {a b : Message}

/-! ## What both sides agree on -/

theorem id (h : Shadow now tickets a b) : a.id = b.id := congrArg (·.id) h.core

theorem isExpired (h : Shadow now tickets a b) (t : Instant) : a.isExpired t = b.isExpired t :=
  congrArg (·.isExpired t) h.core

theorem admits (h : Shadow now tickets a b) (filter : ClaimFilter) : filter.admits a = filter.admits b := by
  show filter.admits a.core = filter.admits b.core
  rw [h.core]

theorem working_iff (h : Shadow now tickets a b) : a.status = .working ↔ b.status = .working := by
  cases h.ahead with
  | level same => rw [same]
  | promoted ha _ hb => simp [ha, hb]
  | expired ha _ hb =>
    rw [hb]
    constructor
    · intro c
      rw [c] at ha
      cases ha
    · nofun

theorem isClaimable (h : Shadow now tickets a b) : a.isClaimable now = b.isClaimable now := by
  have expired := h.isExpired now
  unfold Message.isClaimable
  cases h.ahead with
  | level same visible =>
    rw [← expired, ← same]
    cases hw : a.status.isWaiting with
    | false => rfl
    | true => simp only [Message.isVisible, visible hw]
  | promoted ha visible hb none =>
    rw [← expired, ha, visible, hb]
    simp [Message.isVisible, none, Status.isWaiting]
  | expired _ past hb => simp [past, hb, Status.isWaiting]

theorem isEligible (h : Shadow now tickets a b) (filter : ClaimFilter) :
    Store.isEligible filter now a = Store.isEligible filter now b := by
  rw [Store.isEligible, Store.isEligible, h.isClaimable, h.admits]

theorem holds (h : Shadow now tickets a b) (worker : WorkerId) : Store.holds a worker = Store.holds b worker := by
  have owner : a.owner = b.owner := congrArg (·.owner) h.core
  rw [Bool.eq_iff_iff]
  simp [Store.holds, h.working_iff, owner]

theorem isReclaimable (h : Shadow now tickets a b) (t : Instant) (dead : Span) (lookback : Option Span) :
    Store.isReclaimable t dead lookback a = Store.isReclaimable t dead lookback b := by
  have beat : a.heartbeatAt = b.heartbeatAt := congrArg (·.heartbeatAt) h.core
  have working : (a.status == .working) = (b.status == .working) := by
    rw [Bool.eq_iff_iff]
    simpa using h.working_iff
  simp only [Store.isReclaimable, Message.isClaimDead, beat, working]

/-- An outcome with a ticket finds both sides at the ticket, or neither. -/
theorem fits_iff (h : Shadow now tickets a b) {t : Message × Message} (ht : t ∈ tickets) (same : t.1.id = a.id) :
    (a.status = .working ∧ a.version = t.1.version) ↔ (b.status = .working ∧ b.version = t.2.version) := by
  have drift : b.status = .working → a.version - t.1.version = b.version - t.2.version := by
    intro working
    rcases (h.tracked t ht same).2 with expired | drift
    · rw [working] at expired
      cases expired
    · exact drift
  constructor
  · rintro ⟨working, version⟩
    have := drift (h.working_iff.mp working)
    exact ⟨h.working_iff.mp working, by grind⟩
  · rintro ⟨working, version⟩
    have := drift working
    exact ⟨h.working_iff.mpr working, by grind⟩

/-! ## What the requests of workers do -/

theorem later (h : Shadow now tickets a b) {t : Instant} (le : now ≤ t) : Shadow t tickets a b where
  core := h.core
  ahead := by
    cases h.ahead with
    | level same visible => exact .level same visible
    | promoted ha visible hb none => exact .promoted ha (Message.isVisible_later visible le) hb none
    | expired ha past hb => exact .expired ha (Message.isExpired_later past le) hb
  tracked := h.tracked

theorem claim (h : Shadow now tickets a b) (waiting : b.status.isWaiting = true) (worker : WorkerId) (t : Instant) :
    Shadow now tickets (a.claim worker t) (b.claim worker t) where
  core := by
    show (a.core.claim worker t).core = (b.core.claim worker t).core
    rw [h.core]
  ahead := .level rfl nofun
  tracked := by
    intro u hu same
    refine ⟨nofun, Or.inr ?_⟩
    rcases (h.tracked u hu same).2 with expired | drift
    · rw [expired] at waiting
      cases waiting
    · show a.version + 1 - u.1.version = b.version + 1 - u.2.version
      grind

theorem apply (h : Shadow now tickets a b) (working : b.status = .working) {c : Change} (hc : c.dst ≠ .delayed)
    (t : Instant) : Shadow now tickets (c.apply a t) (c.apply b t) where
  core := by
    show (c.apply a.core t).core = (c.apply b.core t).core
    rw [h.core]
  ahead := by
    refine .level rfl fun waiting => ?_
    have back : c.dst = .pending := by
      rcases (Status.isWaiting_iff _).mp waiting with e | e
      · exact absurd e hc
      · exact e
    simp only [Change.apply, if_pos back]
  tracked := by
    intro u hu same
    refine ⟨hc, Or.inr ?_⟩
    rcases (h.tracked u hu same).2 with expired | drift
    · rw [working] at expired
      cases expired
    · show a.version + 1 - u.1.version = b.version + 1 - u.2.version
      grind

theorem refresh (h : Shadow now tickets a b) (t : Instant) :
    Shadow now tickets { a with heartbeatAt := some t } { b with heartbeatAt := some t } where
  core := congrArg (fun m => { m with heartbeatAt := some t }) h.core
  ahead := by
    cases h.ahead with
    | level same visible => exact .level same visible
    | promoted ha visible hb none => exact .promoted ha visible hb none
    | expired ha past hb => exact .expired ha past hb
  tracked := h.tracked

/-- A ticket for a message that is not this one. -/
theorem other (h : Shadow now tickets a b) {t : Message × Message} (ne : t.1.id ≠ a.id) :
    Shadow now (tickets ++ [t]) a b where
  core := h.core
  ahead := h.ahead
  tracked := by
    intro u hu same
    rcases List.mem_append.mp hu with hu | hu
    · exact h.tracked u hu same
    · rw [List.mem_singleton.mp hu] at same
      exact absurd same ne

/-- A ticket that was just handed out. -/
theorem ticket (h : Shadow now tickets a b) (claimed : a.status = .working) :
    Shadow now (tickets ++ [(a, b)]) a b where
  core := h.core
  ahead := h.ahead
  tracked := by
    intro u hu same
    rcases List.mem_append.mp hu with hu | hu
    · exact h.tracked u hu same
    · rw [List.mem_singleton.mp hu]
      exact ⟨by simp [claimed], Or.inr (by simp)⟩

/-- A message that is new on both sides. -/
theorem refl (m : Message) (unclaimed : ∀ t ∈ tickets, t.1.id ≠ m.id) : Shadow now tickets m m where
  core := rfl
  ahead := .level rfl fun _ => rfl
  tracked t ht same := absurd same (unclaimed t ht)

/-! ## What the scans do -/

theorem promote (h : Shadow now tickets a b) (ripe : Store.isRipe now b = true) :
    Shadow now tickets a (b.promote now) := by
  have delayed := Store.delayed_of_ripe ripe
  simp only [Store.isRipe, Bool.and_eq_true] at ripe
  cases h.ahead with
  | level same visible =>
    have ha : a.status = .delayed := same.trans delayed
    have seen : a.isVisible now = true := by
      rw [Message.isVisible, visible (by rw [ha]; rfl)]
      exact ripe.1.2
    exact ⟨h.core, .promoted ha seen rfl rfl, fun t ht e => absurd ha (h.tracked t ht e).1⟩
  | promoted _ _ hb => cases hb.symm.trans delayed
  | expired _ _ hb => cases hb.symm.trans delayed

theorem expire (h : Shadow now tickets a b) (due : Store.isDue now b = true) :
    Shadow now tickets a (({ src := b.status, dst := .expired } : Change).apply b now) := by
  have waits := Store.isWaiting_of_due due
  simp only [Store.isDue, Bool.and_eq_true] at due
  have past : a.isExpired now = true := (h.isExpired now).trans due.2
  have waiting : a.status.isWaiting = true := by
    cases h.ahead with
    | level same => rw [same]; exact waits
    | promoted ha => rw [ha]; rfl
    | expired ha => exact ha
  exact ⟨h.core, .expired waiting past rfl, fun t ht e => ⟨(h.tracked t ht e).1, Or.inl rfl⟩⟩

end Shadow

/-! ## Stores -/

def Paired (now : Instant) (tickets : List (Message × Message)) (x y : Entry) : Prop :=
  x.seq = y.seq ∧ Shadow now tickets x.message y.message

/-- A store, and the same one after scans. -/
structure Twin (now : Instant) (tickets : List (Message × Message)) (s u : Store) : Prop where
  entries : List.Forall₂ (Paired now tickets) s.entries u.entries
  nextSeq : s.nextSeq = u.nextSeq

theorem map_id_of_shadows {now : Instant} {tickets : List (Message × Message)} {xs ys : List Message}
    (h : List.Forall₂ (Shadow now tickets) xs ys) : xs.map (·.id) = ys.map (·.id) := by
  induction h with
  | nil => rfl
  | cons hxy _ ih => rw [List.map_cons, List.map_cons, hxy.id, ih]

/-- The order of claims looks at nothing that the scans change. -/
theorem Paired.before {now : Instant} {tickets : List (Message × Message)} {x y x' y' : Entry}
    (h : Paired now tickets x y) (h' : Paired now tickets x' y') (order : PriorityOrder) :
    Store.before order x x' = Store.before order y y' := by
  have priority {x y} (h : Paired now tickets x y) : x.message.priority = y.message.priority :=
    congrArg (·.priority) h.2.core
  have queuedAt {x y} (h : Paired now tickets x y) : x.message.queuedAt = y.message.queuedAt :=
    congrArg (·.queuedAt) h.2.core
  unfold Store.before
  rw [priority h, priority h', queuedAt h, queuedAt h', h.1, h'.1]

theorem Paired.first? {now : Instant} {tickets : List (Message × Message)} {xs ys : List Entry}
    (h : List.Forall₂ (Paired now tickets) xs ys) (order : PriorityOrder) :
    (Store.first? order xs = none ∧ Store.first? order ys = none) ∨
      ∃ x y, Store.first? order xs = some x ∧ Store.first? order ys = some y ∧ Paired now tickets x y := by
  induction h with
  | nil => exact Or.inl ⟨rfl, rfl⟩
  | cons hxy _ ih =>
    right
    simp only [Store.first?]
    rcases ih with ⟨none, none'⟩ | ⟨best, best', found, found', better⟩
    · rw [none, none']
      exact ⟨_, _, rfl, rfl, hxy⟩
    · rw [found, found']
      simp only [better.before hxy]
      split
      · exact ⟨_, _, rfl, rfl, better⟩
      · exact ⟨_, _, rfl, rfl, hxy⟩

namespace Twin

variable {now : Instant} {tickets : List (Message × Message)} {s u : Store}

theorem messages (h : Twin now tickets s u) : List.Forall₂ (Shadow now tickets) s.messages u.messages := by
  rw [Store.messages, Store.messages, List.forall₂_map_left_iff, List.forall₂_map_right_iff]
  exact h.entries.imp fun _ _ hxy => hxy.2

theorem ids (h : Twin now tickets s u) : s.messages.map (·.id) = u.messages.map (·.id) := map_id_of_shadows h.messages

theorem distinct (h : Twin now tickets s u) (hd : s.Distinct) : u.Distinct := by
  unfold Store.Distinct at hd ⊢
  rw [← h.ids]
  exact hd

theorem get? (h : Twin now tickets s u) (id : MessageId) :
    (s.get? id = none ∧ u.get? id = none) ∨
      ∃ a b, s.get? id = some a ∧ u.get? id = some b ∧ Shadow now tickets a b := by
  have messages := h.messages
  unfold Store.get?
  generalize s.messages = xs, u.messages = ys at messages
  induction messages with
  | nil => exact Or.inl ⟨rfl, rfl⟩
  | cons hxy _ ih =>
    simp only [List.find?_cons, hxy.id]
    split
    · exact Or.inr ⟨_, _, rfl, rfl, hxy⟩
    · exact ih

theorem next? (h : Twin now tickets s u) (filter : ClaimFilter) :
    (s.next? filter now = none ∧ u.next? filter now = none) ∨
      ∃ a b, s.next? filter now = some a ∧ u.next? filter now = some b ∧ Shadow now tickets a b := by
  have eligible : List.Forall₂ (Paired now tickets)
      (s.entries.filter fun e => Store.isEligible filter now e.message)
      (u.entries.filter fun e => Store.isEligible filter now e.message) :=
    List.rel_filter (fun x y hxy => by simp only [hxy.2.isEligible filter]) h.entries
  unfold Store.next?
  rcases Paired.first? eligible filter.order with ⟨none, none'⟩ | ⟨x, y, found, found', hxy⟩
  · rw [none, none']
    exact Or.inl ⟨rfl, rfl⟩
  · rw [found, found']
    exact Or.inr ⟨_, _, rfl, rfl, hxy.2⟩

theorem reclaimed (h : Twin now tickets s u) (t : Instant) (dead : Span) (lookback : Option Span) :
    (s.reclaimDead t dead lookback).1 = (u.reclaimDead t dead lookback).1 :=
  map_id_of_shadows (List.rel_filter (fun x y hxy => by simp only [hxy.isReclaimable t dead lookback]) h.messages)

/-- Changes on both sides that keep the messages in step. -/
theorem modify {later : Instant} {tickets' : List (Message × Message)} {p q : Message → Bool} {f g : Message → Message}
    (h : Twin now tickets s u)
    (each : ∀ a ∈ s.messages, ∀ b ∈ u.messages, Shadow now tickets a b →
      Shadow later tickets' (if p a then f a else a) (if q b then g b else b)) :
    Twin later tickets' (s.modify p f) (u.modify q g) := by
  refine ⟨?_, h.nextSeq⟩
  have entries := h.entries
  simp only [Store.messages] at each
  rw [Store.entries_modify, Store.entries_modify]
  generalize s.entries = xs, u.entries = ys at entries each
  induction entries with
  | nil => exact .nil
  | cons hxy _ ih =>
    simp only [List.map_cons, List.mem_cons, forall_eq_or_imp] at each ⊢
    exact .cons ⟨hxy.1, each.1.1 hxy.2⟩ (ih fun a ha b hb => (each.2 a ha).2 b hb)

/-- A change of the message under one id. -/
theorem modify_id {tickets' : List (Message × Message)} {id : MessageId} {m m' : Message}
    (h : Twin now tickets s u) (f g : Message → Message) (hd : s.Distinct) (hm : s.get? id = some m) (hm' : u.get? id = some m')
    (changed : Shadow now tickets' (f m) (g m'))
    (others : ∀ a b, Shadow now tickets a b → a.id ≠ id → Shadow now tickets' a b) :
    Twin now tickets' (s.modify (·.id == id) f) (u.modify (·.id == id) g) := by
  refine h.modify fun a ha b hb hab => ?_
  rw [← hab.id]
  split
  · rename_i same
    have same : a.id = id := by simpa using same
    rw [hd.eq_of_id ha hm same, (h.distinct hd).eq_of_id hb hm' (hab.id ▸ same)]
    exact changed
  · rename_i ne
    exact others a b hab (by simpa using ne)

/-- A scan of `u` alone. -/
theorem scan {q : Message → Bool} {g : Message → Message} (h : Twin now tickets s u)
    (each : ∀ a b, Shadow now tickets a b → q b = true → Shadow now tickets a (g b)) :
    Twin now tickets s (u.modify q g) := by
  have still : s.modify (fun _ => false) (fun m => m) = s := by simp [Store.modify]
  rw [← still]
  refine h.modify fun a _ b _ hab => ?_
  simp only [Bool.false_eq_true, if_false]
  split
  · exact each a b hab ‹_›
  · exact hab

theorem later (h : Twin now tickets s u) {t : Instant} (le : now ≤ t) : Twin t tickets s u :=
  ⟨h.entries.imp fun _ _ hxy => ⟨hxy.1, hxy.2.later le⟩, h.nextSeq⟩

theorem enqueue (h : Twin now tickets s u) (m : Message)
    (known : ∀ t ∈ tickets, t.1.id ∈ s.messages.map (·.id)) : Twin now tickets (s.enqueue m) (u.enqueue m) := by
  have same : s.contains m.id = u.contains m.id := by
    rw [Store.contains_eq, Store.contains_eq]
    rcases h.get? m.id with ⟨hs, hu⟩ | ⟨a, b, hs, hu, _⟩ <;> simp [hs, hu]
  unfold Store.enqueue
  rw [← same]
  split
  · exact h
  · rename_i absent
    have unclaimed : ∀ t ∈ tickets, t.1.id ≠ m.id := by
      intro t ht e
      obtain ⟨m', mem, same⟩ := List.mem_map.mp (known t ht)
      exact absent (List.any_eq_true.mpr ⟨m', mem, by simp [same, e]⟩)
    refine ⟨List.rel_append h.entries (.cons ⟨h.nextSeq, .refl m unclaimed⟩ .nil), ?_⟩
    simp only [h.nextSeq]

end Twin

end ClaimQueue
