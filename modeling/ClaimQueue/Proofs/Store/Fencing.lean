/-
  ClaimQueue.Proofs.Store.Fencing — a claim belongs to its worker until it ends, and it ends once.

  A claim hands out the message as the store holds it from then on, and the version in it
  is the token that an outcome has to show. The store `Keeps` the message as long as all of
  it but the heartbeat is as it was handed out.

  Versions never fall (`Ledger.keeps_run`), so the token of a claim opens nothing once
  anything else has moved the message. What a claim can be followed by is `Exclusive`: its
  end, which is an accepted outcome or a reclaim, before the next claim of the same id.
  Main statement: `claims_exclusive`.
-/

import Mathlib.Data.List.Induction
import ClaimQueue.Proofs.Store.Lifecycle

namespace ClaimQueue

theorem Status.after_working {b : Status} (h : Status.working.canBecome b = true) :
    b = .pending ∨ b.isTerminal = true := by
  cases b <;> first | exact Or.inl rfl | exact Or.inr rfl | cases h

theorem Status.not_waiting {a : Status} (h : a.isTerminal = true) : a.isWaiting = false := by
  cases a <;> first | rfl | cases h

/-- Does the store still hold the message as it was handed out, but for its heartbeat? -/
def Store.Keeps (s : Store) (m : Message) : Prop := ∃ beat, s.get? m.id = some { m with heartbeatAt := beat }

namespace Served

variable {t : Served} {id : MessageId} {m m' : Message} {worker : WorkerId}

/-- The turn of a worker that got `m`. -/
def hands (t : Served) (worker : WorkerId) (m : Message) : Prop :=
  (∃ filter, t.request = .tryClaim worker filter) ∧ t.claimed? = some m

theorem hands_of_claims (hd : t.before.Distinct) (h : t.claims id = true) : ∃ worker m, t.hands worker m ∧ m.id = id := by
  obtain ⟨m, claimed, same⟩ := claims_iff.mp h
  obtain ⟨_, worker, filter, request, _⟩ := claimed?_some hd claimed
  exact ⟨worker, m, ⟨⟨filter, request⟩, claimed⟩, same⟩

theorem handed (hd : t.before.Distinct) (h : t.hands worker m) :
    m.status = .working ∧ m.owner = some worker ∧ t.after.get? m.id = some m ∧
      ∃ m₀, t.before.get? m.id = some m₀ ∧ m₀.status.isWaiting = true := by
  obtain ⟨⟨filter, request⟩, claimed⟩ := h
  obtain ⟨m₀, worker', filter', request', stored, eligible, rfl, after⟩ := claimed?_some hd claimed
  obtain ⟨rfl, rfl⟩ : worker = worker' ∧ filter = filter' := by simpa using request.symm.trans request'
  exact ⟨rfl, rfl, after, m₀, stored, Store.isWaiting_of_eligible eligible⟩

/-- Only a claim makes a message working. -/
theorem Fate.starts (f : Fate t m (some m')) (idle : m.status ≠ .working) (working : m'.status = .working) :
    ∃ worker, t.hands worker m' := by
  cases f with
  | kept => exact absurd working idle
  | refreshed _ _ h => exact absurd (Store.working_of_holds h).1 idle
  | claimed worker filter request _ claimed => exact ⟨worker, ⟨filter, request⟩, claimed⟩
  | changed change _ allowed _ => exact absurd working (change.isAllowed_iff.mp allowed).1
  | reclaimed | expired | promoted => cases working

/-- A claim ends when its message stops being worked on. -/
theorem ends_iff (hd : t.before.Distinct) :
    t.ends id ↔ ∃ m m', t.before.get? id = some m ∧ m.status = .working ∧ t.after.get? id = some m' ∧
      m'.status ≠ .working := by
  constructor
  · obtain ⟨now, r, s⟩ := t
    intro h
    cases r with
    | updateStatus i change version =>
      obtain ⟨rfl, src, out, made⟩ := h
      obtain ⟨m, stored, allowed, status, _, rfl, after⟩ := Store.updateStatus_ok made
      exact ⟨m, _, stored, status.trans src, (after i).trans (if_pos rfl), (change.isAllowed_iff.mp allowed).1⟩
    | reclaimDead dead lookback =>
      obtain ⟨m, stored, silent⟩ := (Store.mem_reclaimDead hd).mp h
      refine ⟨m, Change.rollback.apply m now, stored, Store.working_of_reclaimable silent, ?_, ?_⟩
      · exact (Store.get?_reclaimDead s now dead lookback id).trans (stored ▸ congrArg some (if_pos silent))
      · nofun
    | _ => cases h
  · rintro ⟨m, m', stored, working, after, ended⟩
    have f := after ▸ fate hd stored
    obtain rfl := Store.get?_id stored
    have waits : ∀ {p : Prop}, m.status.isWaiting = true → p := by
      intro p c
      rw [working] at c
      cases c
    cases f with
    | kept => exact absurd working ended
    | refreshed => exact absurd working ended
    | claimed _ _ _ eligible => exact waits (Store.isWaiting_of_eligible eligible)
    | changed change request allowed src =>
      rw [ends, request]
      exact ⟨rfl, src.trans working, _, Store.updateStatus_made stored allowed src.symm⟩
    | reclaimed dead lookback request silent =>
      rw [ends, request]
      exact (Store.mem_reclaimDead hd).mpr ⟨m, stored, silent⟩
    | expired _ due => exact waits (Store.isWaiting_of_due due)
    | promoted _ ripe => exact waits (by rw [Store.delayed_of_ripe ripe]; rfl)

end Served

/-! ## Between a claim and its end -/

namespace Ledger

variable {ts : List Served} {s : Store} {rs : List (Instant × Request)} {id : MessageId} {m m' : Message}

/-- A message that is there at the end of a run was there all along. -/
theorem stays {r : Instant × Request} (h : Ledger ts s) (hl : Lawful (ts ++ s.history (r :: rs)))
    (start : s.get? id = some m) (finish : (s.run (r :: rs)).get? id = some m') :
    ∃ m₁, (s.serve r.1 r.2).2.get? id = some m₁ ∧ Served.Fate ⟨r.1, r.2, s⟩ m (some m₁) := by
  let t : Served := ⟨r.1, r.2, s⟩
  have f := Served.fate (t := t) h.distinct start
  cases after : t.after.get? id with
  | some m₁ => exact ⟨m₁, after, after ▸ f⟩
  | none =>
    have dropped : t.drops id = true := Served.drops_iff.mpr ⟨⟨m, start⟩, after⟩
    have gone : (t.after.run rs).get? id = none :=
      Store.gone_run h.distinct (List.pairwise_append.mp hl.fresh).2.1 dropped
    cases gone.symm.trans finish

/-- The version of a message that stays never falls, and while it stands nothing but the heartbeat moves. -/
theorem keeps_run (h : Ledger ts s) (hl : Lawful (ts ++ s.history rs)) (start : s.get? m.id = some m)
    (finish : (s.run rs).get? m.id = some m') :
    m.version.toNat ≤ m'.version.toNat ∧
      (m'.version = m.version → (∀ t ∈ s.history rs, t.before.Keeps m) ∧ (s.run rs).Keeps m) := by
  induction rs generalizing ts s m with
  | nil =>
    obtain rfl := Option.some.inj (start.symm.trans finish)
    exact ⟨Nat.le_refl _, fun _ => ⟨fun _ => nofun, m.heartbeatAt, start⟩⟩
  | cons r rs ih =>
    obtain ⟨next, hl'⟩ := h.next hl
    obtain ⟨m₁, after, f⟩ := h.stays hl start finish
    have same : m₁.id = m.id := Store.get?_id after
    obtain ⟨le, keeps⟩ := ih next hl' (same ▸ after) (same ▸ finish)
    -- if the first request kept the message, the others did by induction
    have kept : ∀ beat, m₁ = { m with heartbeatAt := beat } → m.version.toNat ≤ m'.version.toNat ∧
        (m'.version = m.version → (∀ t ∈ s.history (r :: rs), t.before.Keeps m) ∧ (s.run (r :: rs)).Keeps m) := by
      rintro beat rfl
      refine ⟨le, fun e => ⟨fun u hu => ?_, (keeps e).2⟩⟩
      rcases List.mem_cons.mp hu with rfl | hu
      · exact ⟨m.heartbeatAt, start⟩
      · exact (keeps e).1 u hu
    rcases f.step with rfl | ⟨_, rfl⟩ | ⟨_, version⟩
    · exact kept m₁.heartbeatAt rfl
    · exact kept (some r.1) rfl
    · have raised := (h.orderly m.id m start).version_succ
      rw [← version] at raised
      exact ⟨by omega, fun e => by rw [e] at le; omega⟩

/-- A message that is worked on at the end of a run was claimed in it, and kept since. -/
theorem claimed_run (h : Ledger ts s) (hl : Lawful (ts ++ s.history rs))
    (idle : ∀ m, s.get? id = some m → m.status ≠ .working)
    (finish : (s.run rs).get? id = some m') (working : m'.status = .working) :
    ∃ before c between worker m, s.history rs = before ++ c :: between ∧ c.hands worker m ∧ m.id = id ∧
      (∀ u ∈ between, u.before.Keeps m) ∧ (s.run rs).Keeps m := by
  induction rs using List.reverseRecOn generalizing m' with
  | nil => exact absurd working (idle m' finish)
  | append_singleton rs r ih =>
    rw [Store.history_append, ← List.append_assoc] at hl
    rw [Store.run_append] at finish ⊢
    rw [Store.history_append]
    have ledger := h.run rs hl.left
    let t : Served := ⟨r.1, r.2, s.run rs⟩
    change t.after.get? id = some m' at finish
    cases stored : t.before.get? id with
    | none =>
      have arrived := Served.arrival stored finish
      obtain ⟨draft, now, e⟩ := hl.drafted t (List.mem_append_right _ List.mem_cons_self) m' arrived
      rw [e] at working
      simp only [Message.ofDraft] at working
      split at working <;> cases working
    | some m₀ =>
      have f : t.Fate m₀ (some m') := finish ▸ Served.fate ledger.distinct stored
      by_cases busy : m₀.status = .working
      · obtain ⟨before, c, between, worker, m, e, hands, rfl, kept, now⟩ := ih hl.left stored busy
        refine ⟨before, c, between ++ [t], worker, m, ?_, hands, rfl, ?_, ?_⟩
        · rw [e, List.append_assoc]
          rfl
        · intro u hu
          rcases List.mem_append.mp hu with hu | hu
          · exact kept u hu
          · obtain rfl := List.mem_singleton.mp hu
            exact now
        · obtain ⟨beat, now⟩ := now
          obtain rfl := Option.some.inj (stored.symm.trans now)
          rcases f.step with rfl | ⟨_, rfl⟩ | ⟨edge, _⟩
          · exact ⟨_, finish⟩
          · exact ⟨_, finish⟩
          · rw [working, busy] at edge
            cases edge
      · obtain ⟨worker, hands⟩ := f.starts busy working
        obtain rfl := Store.get?_id finish
        refine ⟨s.history rs, t, [], worker, m', rfl, hands, rfl, fun u hu => ?_, m'.heartbeatAt, finish⟩
        cases hu

/-- A message that was worked on and waits again was given back in between. -/
theorem released_run (h : Ledger ts s) (hl : Lawful (ts ++ s.history rs)) (start : s.get? id = some m)
    (working : m.status = .working) (finish : (s.run rs).get? id = some m') (waiting : m'.status.isWaiting = true) :
    ∃ e ∈ s.history rs, e.ends id ∧ ∃ m, e.after.get? id = some m ∧ m.status = .pending := by
  induction rs generalizing ts s m with
  | nil =>
    obtain rfl := Option.some.inj (start.symm.trans finish)
    rw [working] at waiting
    cases waiting
  | cons r rs ih =>
    obtain ⟨next, hl'⟩ := h.next hl
    obtain ⟨m₁, after, f⟩ := h.stays hl start finish
    let t : Served := ⟨r.1, r.2, s⟩
    by_cases busy : m₁.status = .working
    · obtain ⟨e, he, ends⟩ := ih next hl' after busy finish
      exact ⟨e, List.mem_cons_of_mem _ he, ends⟩
    · have ends : t.ends id := (Served.ends_iff h.distinct).mpr ⟨m, m₁, start, working, after, busy⟩
      refine ⟨t, List.mem_cons_self, ends, m₁, after, ?_⟩
      have edge : m.status.canBecome m₁.status = true := by
        rcases f.step with rfl | ⟨_, rfl⟩ | ⟨edge, _⟩
        · exact absurd working busy
        · exact absurd working busy
        · exact edge
      -- what ended otherwise would not wait again
      rcases Status.after_working (working ▸ edge) with back | ended
      · exact back
      · rcases Store.terminal_run next.distinct after ended rs (List.pairwise_append.mp hl'.fresh).2.1 with stays | ⟨gone, _⟩
        · obtain rfl := Option.some.inj (stays.symm.trans finish)
          rw [Status.not_waiting ended] at waiting
          cases waiting
        · cases gone.symm.trans finish

/-- A run from the store that a request left, up to a later one. -/
theorem between {pre mid post : List Served} {c u : Served}
    (h : Store.empty.history rs = pre ++ c :: (mid ++ u :: post)) (hl : Lawful (Store.empty.history rs)) :
    c.before.Distinct ∧ Ledger (pre ++ [c]) c.after ∧ u.before.Distinct ∧
      ∃ qs, mid = c.after.history qs ∧ u.before = c.after.run qs ∧ Lawful (pre ++ [c] ++ c.after.history qs) := by
  obtain ⟨rs₁, rs₂, -, -, -, rest⟩ := Store.history_cut h
  obtain ⟨qs, -, -, rfl, e, -⟩ := Store.history_cut rest
  have ledger := before h hl
  rw [h, List.append_cons, ← List.append_assoc] at hl
  have lawful := hl.left
  have next := ledger.step lawful.left
  exact ⟨ledger.distinct, next, e ▸ Store.distinct_run next.distinct qs, qs, rfl, e, lawful⟩

end Ledger

/-- What can follow a claim. The turns of a history are in the order they were served. -/
structure Exclusive (ts : List Served) : Prop where
  handed : ∀ t ∈ ts, ∀ worker m, t.hands worker m → m.status = .working ∧ m.owner = some worker ∧ t.after.Keeps m
  /-- An outcome with the version of a claim is accepted only while nothing has moved the message. -/
  fenced : ∀ pre c mid u post worker m change, ts = pre ++ c :: (mid ++ u :: post) → c.hands worker m →
    u.request = .updateStatus m.id change m.version →
    (∃ out, (u.before.updateStatus m.id change m.version u.now).1 = .ok out) → ∀ t ∈ mid ++ [u], t.before.Keeps m
  /-- To end a claim is to take its message out of work. -/
  ended : ∀ t ∈ ts, ∀ id, t.ends id ↔ ∃ m m', t.before.get? id = some m ∧ m.status = .working ∧
    t.after.get? id = some m' ∧ m'.status ≠ .working
  /-- What ends is a claim that was kept until then. -/
  owed : ∀ pre t post id, ts = pre ++ t :: post → t.ends id → ∃ before c mid worker m,
    pre = before ++ c :: mid ∧ c.hands worker m ∧ m.id = id ∧ ∀ u ∈ mid ++ [t], u.before.Keeps m
  once : ∀ pre t mid u post id, ts = pre ++ t :: (mid ++ u :: post) → t.ends id → u.ends id → ∃ c ∈ mid, c.claims id
  separated : ∀ pre c mid d post id, ts = pre ++ c :: (mid ++ d :: post) → c.claims id → d.claims id →
    ∃ t ∈ mid, t.ends id ∧ ∃ m, t.after.get? id = some m ∧ m.status = .pending
  rejected : ∀ t ∈ ts, ∀ id change version e, t.request = .updateStatus id change version →
    (t.before.updateStatus id change version t.now).1 = .error e → t.after = t.before

/-- Claims are exclusive over every lawful run: the version of a claim lets its worker alone
end it, each claim is ended at most once, and the next claim of the id comes after that. -/
theorem claims_exclusive (rs : List (Instant × Request)) (h : Lawful (Store.empty.history rs)) :
    Exclusive (Store.empty.history rs) := by
  have distinct : ∀ t ∈ Store.empty.history rs, t.before.Distinct := by
    intro t ht
    obtain ⟨pre, post, e⟩ := List.append_of_mem ht
    exact (Ledger.before e h).distinct
  constructor
  · intro t ht worker m hands
    obtain ⟨working, owner, stored, _⟩ := Served.handed (distinct t ht) hands
    exact ⟨working, owner, m.heartbeatAt, stored⟩
  · rintro pre c mid u post worker m change e hands - ⟨out, made⟩
    obtain ⟨hd, ledger, -, qs, rfl, before, lawful⟩ := Ledger.between e h
    obtain ⟨-, -, stored, -⟩ := Served.handed hd hands
    obtain ⟨m', now, -, -, version, -⟩ := Store.updateStatus_ok made
    rw [before] at now
    have kept := (ledger.keeps_run lawful stored now).2 version
    intro t ht
    rcases List.mem_append.mp ht with ht | ht
    · exact kept.1 t ht
    · rw [List.mem_singleton.mp ht, before]
      exact kept.2
  · exact fun t ht id => Served.ends_iff (distinct t ht)
  · rintro pre t post id e ends
    obtain ⟨rs₁, rs₂, rfl, rfl, before, -⟩ := Store.history_cut e
    obtain ⟨m, m', stored, working, -⟩ := (Served.ends_iff (distinct t (by simp [e]))).mp ends
    rw [e] at h
    rw [before] at stored
    have lawful : Lawful ([] ++ Store.empty.history rs₁) := h.left
    obtain ⟨p, c, q, worker, m, e, hands, same, kept, now⟩ :=
      Ledger.start.claimed_run lawful (fun _ => nofun) stored working
    refine ⟨p, c, q, worker, m, e, hands, same, fun u hu => ?_⟩
    rcases List.mem_append.mp hu with hu | hu
    · exact kept u hu
    · rw [List.mem_singleton.mp hu, before]
      exact now
  · rintro pre t mid u post id e ends ends'
    obtain ⟨hd, ledger, hd', qs, rfl, before, lawful⟩ := Ledger.between e h
    obtain ⟨-, m, -, -, after, idle⟩ := (Served.ends_iff hd).mp ends
    obtain ⟨m', -, stored, working, -⟩ := (Served.ends_iff hd').mp ends'
    have idle' : ∀ m, t.after.get? id = some m → m.status ≠ .working := by
      intro m₁ h₁
      rw [← Option.some.inj (after.symm.trans h₁)]
      exact idle
    obtain ⟨p, c, q, worker, m, e, hands, same, -⟩ :=
      ledger.claimed_run lawful idle' (before ▸ stored) working
    exact ⟨c, by simp [e], Served.claims_iff.mpr ⟨m, hands.2, same⟩⟩
  · rintro pre c mid d post id e claims claims'
    obtain ⟨hd, ledger, hd', qs, rfl, before, lawful⟩ := Ledger.between e h
    obtain ⟨worker, m, hands, rfl⟩ := Served.hands_of_claims hd claims
    obtain ⟨working, -, stored, -⟩ := Served.handed hd hands
    obtain ⟨worker', m', hands', same⟩ := Served.hands_of_claims hd' claims'
    obtain ⟨-, -, -, m₀, waits, waiting⟩ := Served.handed hd' hands'
    rw [same, before] at waits
    exact ledger.released_run lawful stored working waits waiting
  · rintro ⟨now, r, s⟩ - id change version e rfl made
    exact Store.updateStatus_error made

/-- The claims of `handover` are kept apart by a reclaim. -/
theorem claims_exclusive_handover :
    Lawful (Store.empty.history handover) ∧ Exclusive (Store.empty.history handover) ∧
      ∃ t ∈ Store.empty.history handover, t.ends .nil ∧ ∃ m, t.after.get? .nil = some m ∧ m.status = .pending := by
  have exclusive := claims_exclusive handover lawful_handover
  obtain ⟨t, ht, given⟩ := exclusive.separated [_] _ [_] _ _ .nil rfl (by decide) (by decide)
  exact ⟨lawful_handover, exclusive, t, .tail _ (.tail _ (List.mem_singleton.mp ht ▸ .head _)), given⟩

end ClaimQueue
