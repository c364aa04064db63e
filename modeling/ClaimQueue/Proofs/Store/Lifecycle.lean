/-
  ClaimQueue.Proofs.Store.Lifecycle — the life of a message over whole runs.

  `Orderly` is what the fields of a stored message have to do with each other: owner and
  heartbeat belong to working messages, attempts count claims, and the version counts the
  changes of status. Of these there are at most two after each claim and two more
  (`Status.left` is what remains), so a version stays far from its last value and every
  change raises it by exactly one.

  `Ledger` ties a store to the history that led to it: attempts are the claims so far, and
  an id that is gone was either never claimed or was taken out. Main statement:
  `lifecycle_invariant`.
-/

import ClaimQueue.Proofs.Store.History

namespace ClaimQueue

/-- How often a message can change its status before it is claimed once more. -/
def Status.left : Status → Nat
  | .delayed => 2
  | .pending => 1
  | .working => 2
  | _ => 0

/-- A change of status that is no claim uses up what was left. -/
theorem Status.left_lt {a b : Status} (h : a.canBecome b = true) (hb : b ≠ .working) : b.left < a.left := by
  cases a <;> cases b <;> first | contradiction | decide

theorem Status.canBecome_self (a : Status) : a.canBecome a = false := by cases a <;> rfl

/-- Only work is completed or fails. -/
theorem Status.working_of_ended {a b : Status} (h : a.canBecome b = true) (hb : b = .complete ∨ b = .error) :
    a = .working := by
  rcases hb with rfl | rfl <;> cases a <;> first | rfl | cases h

structure Message.Orderly (m : Message) : Prop where
  free : m.status = .delayed ∨ m.status = .pending → m.owner = none ∧ m.heartbeatAt = none
  held : m.status = .working → (∃ w, m.owner = some w) ∧ ∃ t, m.heartbeatAt = some t
  untried : m.status = .delayed → m.attempts = 0
  tried : m.status = .working ∨ m.status = .complete ∨ m.status = .error → 1 ≤ m.attempts.toNat
  attemptsLe : m.attempts.toNat ≤ m.version.toNat
  versionLe : m.version.toNat + m.status.left ≤ 2 * m.attempts.toNat + 2

namespace Message.Orderly

variable {m : Message}

/-- No change of status overflows the version. -/
theorem version_succ (h : m.Orderly) : (m.version + 1).toNat = m.version.toNat + 1 := by
  have := h.versionLe
  have := m.attempts.toNat_lt
  rw [UInt64.toNat_add, show (1 : UInt64).toNat = 1 from rfl]
  omega

theorem ofDraft (id : MessageId) (draft : Draft) (now : Instant) : (Message.ofDraft id draft now).Orderly where
  free _ := ⟨rfl, rfl⟩
  held h := by
    simp only [Message.ofDraft] at h
    split at h <;> cases h
  untried _ := rfl
  tried h := by
    simp only [Message.ofDraft] at h
    split at h <;> simp at h
  attemptsLe := Nat.le_refl _
  versionLe := by
    simp only [Message.ofDraft]
    split <;> decide

theorem refresh (h : m.Orderly) (hm : m.status = .working) (now : Instant) :
    ({ m with heartbeatAt := some now } : Message).Orderly where
  free c := by
    simp only [hm] at c
    rcases c with c | c <;> cases c
  held _ := ⟨(h.held hm).1, now, rfl⟩
  untried := h.untried
  tried := h.tried
  attemptsLe := h.attemptsLe
  versionLe := h.versionLe

theorem claim (h : m.Orderly) (hm : m.status.isWaiting = true) (few : m.attempts.toNat + 1 < 2 ^ 32)
    (worker : WorkerId) (now : Instant) : (m.claim worker now).Orderly := by
  have attempts : (m.attempts + 1).toNat = m.attempts.toNat + 1 := by
    rw [UInt32.toNat_add, show (1 : UInt32).toNat = 1 from rfl]
    omega
  have version := h.version_succ
  constructor
  · rintro (c | c) <;> cases c
  · exact fun _ => ⟨⟨worker, rfl⟩, now, rfl⟩
  · intro c
    cases c
  · intro _
    show 1 ≤ (m.attempts + 1).toNat
    omega
  · show (m.attempts + 1).toNat ≤ (m.version + 1).toNat
    have := h.attemptsLe
    omega
  · show (m.version + 1).toNat + 2 ≤ 2 * (m.attempts + 1).toNat + 2
    have := h.versionLe
    have : 1 ≤ m.status.left := by
      rcases (Status.isWaiting_iff _).mp hm with e | e <;> rw [e] <;> decide
    omega

/-- Any change along an edge, claims apart, whether a worker asks for it or a scan makes it. -/
theorem apply (h : m.Orderly) {c : Change} (allowed : c.isAllowed = true) (src : c.src = m.status) (now : Instant) :
    (c.apply m now).Orderly := by
  obtain ⟨noClaim, edge⟩ := c.isAllowed_iff.mp allowed
  rw [src] at edge
  have version := h.version_succ
  have left := Status.left_lt edge noClaim
  have noDelay : c.dst ≠ .delayed := by
    intro e
    rw [e, Status.canBecome_delayed] at edge
    cases edge
  constructor
  · rintro (e | e)
    · exact absurd e noDelay
    · have back : c.dst = .pending := e
      simp [Change.apply, back]
  · exact fun e => absurd e noClaim
  · exact fun e => absurd e noDelay
  · rintro (e | e)
    · exact absurd e noClaim
    · exact h.tried (Or.inl (Status.working_of_ended edge e))
  · show m.attempts.toNat ≤ (m.version + 1).toNat
    have := h.attemptsLe
    omega
  · show (m.version + 1).toNat + c.dst.left ≤ 2 * m.attempts.toNat + 2
    have := h.versionLe
    omega

theorem promote (h : m.Orderly) (hm : m.status = .delayed) (now : Instant) : (m.promote now).Orderly := by
  have version := h.version_succ
  constructor
  · exact fun _ => h.free (Or.inl hm)
  · intro c
    cases c
  · intro c
    cases c
  · rintro (c | c | c) <;> cases c
  · show m.attempts.toNat ≤ (m.version + 1).toNat
    have := h.attemptsLe
    omega
  · show (m.version + 1).toNat + 1 ≤ 2 * m.attempts.toNat + 2
    have := h.versionLe
    rw [hm] at this
    simp only [Status.left] at this
    omega

end Message.Orderly

/-! ## One request -/

namespace Served

variable {t : Served} {m m' : Message}

/-- A request leaves a message alone, refreshes its heartbeat or takes it one edge on. -/
theorem Fate.step (f : Fate t m (some m')) :
    m' = m ∨ (m.status = .working ∧ m' = { m with heartbeatAt := some t.now }) ∨
      (m.status.canBecome m'.status = true ∧ m'.version = m.version + 1) := by
  cases f with
  | kept => exact Or.inl rfl
  | refreshed worker _ h => exact Or.inr (Or.inl ⟨(Store.working_of_holds h).1, rfl⟩)
  | claimed worker filter _ h _ =>
    refine Or.inr (Or.inr ⟨?_, rfl⟩)
    show m.status.canBecome .working = true
    rcases (Status.isWaiting_iff _).mp (Store.isWaiting_of_eligible h) with e | e <;> rw [e] <;> rfl
  | changed change _ allowed src =>
    exact Or.inr (Or.inr ⟨src ▸ (change.isAllowed_iff.mp allowed).2, rfl⟩)
  | reclaimed dead lookback _ h =>
    refine Or.inr (Or.inr ⟨?_, rfl⟩)
    rw [Store.working_of_reclaimable h]
    rfl
  | expired _ h =>
    refine Or.inr (Or.inr ⟨?_, rfl⟩)
    show m.status.canBecome .expired = true
    rcases (Status.isWaiting_iff _).mp (Store.isWaiting_of_due h) with e | e <;> rw [e] <;> rfl
  | promoted _ h =>
    refine Or.inr (Or.inr ⟨?_, rfl⟩)
    rw [Store.delayed_of_ripe h]
    rfl

theorem Fate.terminal (f : Fate t m (some m')) (ended : m.status.isTerminal = true) : m' = m := by
  rcases f.step with e | ⟨working, _⟩ | ⟨edge, _⟩
  · exact e
  · rw [working] at ended
    cases ended
  · rw [(Status.isTerminal_iff _).mp ended] at edge
    cases edge

/-- A message leaves the store only if somebody asks for it. -/
theorem Fate.asked (f : Fate t m none) : t.request = .delete m.id ∨ t.request = .remove := by
  cases f with
  | deleted h => exact Or.inl h
  | removed h => exact Or.inr h

theorem Fate.orderly (f : Fate t m (some m')) (h : m.Orderly)
    (few : t.claims m.id = true → m.attempts.toNat + 1 < 2 ^ 32) : m'.Orderly := by
  cases f with
  | kept => exact h
  | refreshed worker _ held => exact h.refresh (Store.working_of_holds held).1 t.now
  | claimed worker filter _ eligible hc =>
    exact h.claim (Store.isWaiting_of_eligible eligible) (few (claims_iff.mpr ⟨_, hc, rfl⟩)) worker t.now
  | changed change _ allowed src => exact h.apply allowed src t.now
  | reclaimed dead lookback _ c => exact h.apply rfl (Store.working_of_reclaimable c).symm t.now
  | expired _ c =>
    refine h.apply ?_ rfl t.now
    rcases (Status.isWaiting_iff _).mp (Store.isWaiting_of_due c) with e | e <;> rw [e] <;> rfl
  | promoted _ c => exact h.promote (Store.delayed_of_ripe c) t.now

/-- Only claims count as attempts. -/
theorem Fate.attempts (f : Fate t m (some m')) (no : t.claims m.id = false) : m'.attempts = m.attempts := by
  cases f with
  | claimed worker filter _ _ hc =>
    have : t.claims m.id = true := claims_iff.mpr ⟨_, hc, rfl⟩
    rw [this] at no
    cases no
  | _ => rfl

end Served

/-! ## Runs -/

/-- A store and the history that led to it. -/
structure Ledger (ts : List Served) (s : Store) : Prop where
  distinct : s.Distinct
  orderly : ∀ id m, s.get? id = some m → m.Orderly
  counted : ∀ id m, s.get? id = some m → m.attempts.toNat = ts.countP (·.claims id)
  gone : ∀ id, s.get? id = none → ts.countP (·.claims id) = 0 ∨ ∃ u ∈ ts, u.drops id = true

namespace Ledger

variable {ts us : List Served} {t : Served} {s : Store}

theorem start : Ledger [] .empty :=
  ⟨Store.distinct_empty, fun _ _ => nofun, fun _ _ => nofun, fun _ _ => Or.inl rfl⟩

theorem countP_claims (id : MessageId) :
    (ts ++ [t]).countP (·.claims id) = ts.countP (·.claims id) + if t.claims id then 1 else 0 := by
  rw [List.countP_append, List.countP_cons, List.countP_nil]
  omega

/-- Claims are of stored messages, and these stay. -/
theorem claims_stored {id : MessageId} (hd : t.before.Distinct) (hc : t.claims id = true) :
    ∃ m worker, t.before.get? id = some m ∧ t.after.get? id = some (m.claim worker t.now) := by
  obtain ⟨out, claimed, rfl⟩ := Served.claims_iff.mp hc
  obtain ⟨m, worker, _, _, stored, _, e, after⟩ := Served.claimed?_some hd claimed
  exact ⟨m, worker, stored, after.trans (congrArg some e)⟩

theorem step (h : Ledger ts t.before) (hl : Lawful (ts ++ [t])) : Ledger (ts ++ [t]) t.after := by
  have room : ∀ {id m}, t.before.get? id = some m → t.claims id = true → m.attempts.toNat + 1 < 2 ^ 32 := by
    intro id m hm hc
    have := hl.few id
    rw [countP_claims, hc, if_pos rfl, ← h.counted id m hm] at this
    exact this
  -- a message that arrives was made from a draft, and its id was never claimed
  have newcomer : ∀ {id m}, t.before.get? id = none → t.after.get? id = some m →
      m.Orderly ∧ m.attempts = 0 ∧ ts.countP (·.claims id) = 0 := by
    intro id m hb ha
    have arrived := Served.arrival hb ha
    obtain ⟨draft, now, e⟩ := hl.drafted t (List.mem_append_right _ List.mem_cons_self) m arrived
    refine ⟨e ▸ .ofDraft m.id draft now, by rw [e]; rfl, ?_⟩
    rcases h.gone id hb with none | ⟨u, hu, dropped⟩
    · exact none
    · have := (List.pairwise_append.mp hl.fresh).2.2 u hu t List.mem_cons_self m arrived
      rw [Store.get?_id ha, dropped] at this
      cases this
  constructor
  · exact Store.distinct_serve h.distinct t.now t.request
  · intro id m' ha
    cases hb : t.before.get? id with
    | none => exact (newcomer hb ha).1
    | some m =>
      have f := ha ▸ Served.fate h.distinct hb
      exact f.orderly (h.orderly id m hb) (Store.get?_id hb ▸ room hb)
  · intro id m' ha
    rw [countP_claims]
    cases hb : t.before.get? id with
    | none =>
      obtain ⟨_, zero, none⟩ := newcomer hb ha
      have : t.claims id = false := by
        refine Bool.eq_false_iff.mpr fun hc => ?_
        obtain ⟨_, _, stored, _⟩ := claims_stored h.distinct hc
        cases hb.symm.trans stored
      rw [zero, none, this]
      rfl
    | some m =>
      rw [← h.counted id m hb]
      cases hc : t.claims id with
      | true =>
        obtain ⟨m₁, worker, stored, after⟩ := claims_stored h.distinct hc
        obtain rfl : m₁ = m := Option.some.inj (stored.symm.trans hb)
        obtain rfl : m' = m₁.claim worker t.now := Option.some.inj (ha.symm.trans after)
        show (m₁.attempts + 1).toNat = m₁.attempts.toNat + 1
        have := room hb hc
        rw [UInt32.toNat_add, show (1 : UInt32).toNat = 1 from rfl]
        omega
      | false =>
        have f := ha ▸ Served.fate h.distinct hb
        rw [f.attempts (Store.get?_id hb ▸ hc)]
        rfl
  · intro id ha
    cases hb : t.before.get? id with
    | some m =>
      exact Or.inr ⟨t, List.mem_append_right _ List.mem_cons_self, Served.drops_iff.mpr ⟨⟨m, hb⟩, ha⟩⟩
    | none =>
      rcases h.gone id hb with none | ⟨u, hu, dropped⟩
      · refine Or.inl ?_
        rw [countP_claims, none]
        cases hc : t.claims id with
        | false => rfl
        | true =>
          obtain ⟨_, _, stored, _⟩ := claims_stored h.distinct hc
          cases hb.symm.trans stored
      · exact Or.inr ⟨u, List.mem_append_left _ hu, dropped⟩

/-- The ledger after the first request of a run, and what is still to come. -/
theorem next (h : Ledger ts s) {r : Instant × Request} {rs : List (Instant × Request)}
    (hl : Lawful (ts ++ s.history (r :: rs))) :
    Ledger (ts ++ [⟨r.1, r.2, s⟩]) (s.serve r.1 r.2).2 ∧
      Lawful (ts ++ [⟨r.1, r.2, s⟩] ++ (s.serve r.1 r.2).2.history rs) := by
  have hl' := List.append_cons ts ⟨r.1, r.2, s⟩ ((s.serve r.1 r.2).2.history rs) ▸ hl
  exact ⟨h.step (t := ⟨r.1, r.2, s⟩) hl'.left, hl'⟩

theorem run (h : Ledger ts s) (rs : List (Instant × Request)) (hl : Lawful (ts ++ s.history rs)) :
    Ledger (ts ++ s.history rs) (s.run rs) := by
  induction rs generalizing ts s with
  | nil => exact (List.append_nil ts).symm ▸ h
  | cons r rs ih =>
    obtain ⟨h, hl⟩ := h.next hl
    rw [Store.history, List.append_cons]
    exact ih h hl

theorem ofRun {rs : List (Instant × Request)} (hl : Lawful (Store.empty.history rs)) :
    Ledger (Store.empty.history rs) (Store.empty.run rs) := start.run rs hl

/-- Every request of a lawful history meets a store in order. -/
theorem before {rs : List (Instant × Request)} {pre post : List Served}
    (h : Store.empty.history rs = pre ++ t :: post) (hl : Lawful (Store.empty.history rs)) :
    Ledger pre t.before := by
  obtain ⟨rs₁, _, _, rfl, e, _⟩ := Store.history_cut h
  rw [e]
  exact ofRun (h ▸ hl).left

end Ledger

/-! ## What ended, and what is gone -/

namespace Store

variable {s : Store} {id : MessageId} {m : Message}

/-- What is not there and is not sent stays away. -/
theorem absent_run (hd : s.Distinct) (h : s.get? id = none) (rs : List (Instant × Request))
    (unsent : ∀ t ∈ s.history rs, ∀ m, t.request = .enqueue m → m.id ≠ id) : (s.run rs).get? id = none := by
  induction rs generalizing s with
  | nil => exact h
  | cons r rs ih =>
    refine ih (distinct_serve hd r.1 r.2) ?_ fun t ht => unsent t (List.mem_cons_of_mem _ ht)
    cases ha : (s.serve r.1 r.2).2.get? id with
    | none => rfl
    | some m =>
      have arrived := Served.arrival (t := ⟨r.1, r.2, s⟩) h ha
      exact absurd (get?_id ha) (unsent _ List.mem_cons_self m arrived)

/-- A message that left a lawful store stays away. -/
theorem gone_run {t : Served} {rs : List (Instant × Request)} (hd : t.before.Distinct)
    (fresh : (t :: t.after.history rs).Pairwise fun u t => ∀ m, t.request = .enqueue m → u.drops m.id = false)
    (h : t.drops id = true) : (t.after.run rs).get? id = none := by
  refine absent_run (distinct_serve hd t.now t.request) (Served.drops_iff.mp h).2 rs fun u hu m sent e => ?_
  have := (List.pairwise_cons.mp fresh).1 u hu m sent
  rw [e, h] at this
  cases this

/-- A message that ended stays as it is until it is dropped. -/
theorem terminal_run (hd : s.Distinct) (h : s.get? id = some m) (ended : m.status.isTerminal = true)
    (rs : List (Instant × Request))
    (fresh : (s.history rs).Pairwise fun u t => ∀ m, t.request = .enqueue m → u.drops m.id = false) :
    (s.run rs).get? id = some m ∨ (s.run rs).get? id = none ∧ ∃ t ∈ s.history rs, t.drops id = true ∧
      (t.request = .delete id ∨ t.request = .remove) := by
  induction rs generalizing s with
  | nil => exact Or.inl h
  | cons r rs ih =>
    let t : Served := ⟨r.1, r.2, s⟩
    have f := Served.fate (t := t) hd h
    cases ha : t.after.get? id with
    | none =>
      have dropped : t.drops id = true := Served.drops_iff.mpr ⟨⟨m, h⟩, ha⟩
      have asked := get?_id h ▸ (ha ▸ f : t.Fate m none).asked
      exact Or.inr ⟨gone_run hd fresh dropped, t, List.mem_cons_self, dropped, asked⟩
    | some m' =>
      obtain rfl := (ha ▸ f : t.Fate m (some m')).terminal ended
      rcases ih (distinct_serve hd r.1 r.2) ha (List.pairwise_cons.mp fresh).2 with stays | ⟨none, u, hu, asked⟩
      · exact Or.inl stays
      · exact Or.inr ⟨none, u, List.mem_cons_of_mem _ hu, asked⟩

end Store

/-- Over every lawful run: a change of status follows an edge of the life of a message and
raises its version by one, and nothing else moves the version; a message that ended is not
changed any more, until it is deleted; the fields of every stored message agree with its
status, and its attempts are the claims of it so far. -/
theorem lifecycle_invariant (rs : List (Instant × Request)) (h : Lawful (Store.empty.history rs)) :
    (∀ t ∈ Store.empty.history rs, ∀ id m m', t.before.get? id = some m → t.after.get? id = some m' →
      (m'.status ≠ m.status → m.status.canBecome m'.status = true ∧ m'.version.toNat = m.version.toNat + 1) ∧
      (m'.status = m.status → m'.version = m.version)) ∧
    (∀ rs₁ rs₂ id m, rs = rs₁ ++ rs₂ → (Store.empty.run rs₁).get? id = some m → m.status.isTerminal = true →
      (Store.empty.run rs).get? id = some m ∨
        (Store.empty.run rs).get? id = none ∧ ∃ t ∈ Store.empty.history rs, t.drops id = true ∧
          (t.request = .delete id ∨ t.request = .remove)) ∧
    ∀ m ∈ (Store.empty.run rs).messages,
      m.Orderly ∧ m.attempts.toNat = (Store.empty.history rs).countP (·.claims m.id) := by
  refine ⟨?_, ?_, ?_⟩
  · intro t ht id m m' hb ha
    obtain ⟨pre, post, e⟩ := List.append_of_mem ht
    have ledger := Ledger.before e h
    have raised := (ledger.orderly id m hb).version_succ
    rcases (ha ▸ Served.fate ledger.distinct hb : t.Fate m (some m')).step with rfl | ⟨_, rfl⟩ | ⟨edge, version⟩
    · exact ⟨fun c => absurd rfl c, fun _ => rfl⟩
    · exact ⟨fun c => absurd rfl c, fun _ => rfl⟩
    · refine ⟨fun _ => ⟨edge, version ▸ raised⟩, fun same => ?_⟩
      rw [same, Status.canBecome_self] at edge
      cases edge
  · rintro rs₁ rs₂ id m rfl hm ended
    rw [Store.history_append] at h ⊢
    rw [Store.run_append]
    have later := (List.pairwise_append.mp h.fresh).2.1
    rcases Store.terminal_run (Store.distinct_run Store.distinct_empty rs₁) hm ended rs₂ later with stays | ⟨none, t, ht, asked⟩
    · exact Or.inl stays
    · exact Or.inr ⟨none, t, List.mem_append_right _ ht, asked⟩
  · intro m hm
    have ledger := Ledger.ofRun h
    have stored := ledger.distinct.get?_of_mem hm
    exact ⟨ledger.orderly m.id m stored, ledger.counted m.id m stored⟩

/-- In `handover` the message ends with the version of its fourth change and two attempts. -/
theorem lifecycle_invariant_handover :
    Lawful (Store.empty.history handover) ∧
      ∃ m, (Store.empty.run handover).get? .nil = some m ∧ m.status = .complete ∧ m.Orderly ∧
        m.attempts.toNat = 2 ∧ m.version = 4 := by
  obtain ⟨m, stored, status, version⟩ : ∃ m, (Store.empty.run handover).get? .nil = some m ∧
      m.status = .complete ∧ m.version = 4 := ⟨_, rfl, rfl, rfl⟩
  obtain ⟨orderly, counted⟩ := (lifecycle_invariant handover lawful_handover).2.2 m (Store.mem_of_get? stored)
  have claims : (Store.empty.history handover).countP (·.claims .nil) = 2 := by decide
  exact ⟨lawful_handover, m, stored, status, orderly, (Store.get?_id stored ▸ counted).trans claims, version⟩

end ClaimQueue
