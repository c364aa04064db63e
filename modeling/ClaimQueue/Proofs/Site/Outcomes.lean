/-
  ClaimQueue.Proofs.Site.Outcomes — the outcomes that a store accepted.

  The journal has every answer of the store, so it has, for each message, the changes that
  were made to it because somebody asked for them (`Site.changes`); what was refused made no
  change and is not among them. A request either adds one change to those of one message, or
  leaves all counts of failures as they were (`Store.outcome`): claims, heartbeats and scans
  let a message grow older (`Ages`), and that is all.
-/

import ClaimQueue.Proofs.Site.Calls
import ClaimQueue.Proofs.Work.Counters

namespace ClaimQueue

/-- The change that the store made to the message `id`. -/
def Deed.accepted? (id : MessageId) : Deed → Option Change
  | .served (.updateStatus i change _) (.ok _) => if i = id then some change else none
  | _ => none

/-- The message that was sent. -/
def Deed.sent? : Deed → Option MessageId
  | .served (.enqueue m) _ => some m.id
  | _ => none

/-- How many of the changes count a failure of `kind`. -/
def Change.failures (cs : List Change) (kind : String) : Nat := cs.countP (·.failure == some kind)

namespace Site

/-- The changes that the store accepted for a message, the latest first. -/
def changes (s : Site) (id : MessageId) : List Change := s.answers.filterMap (·.accepted? id)

/-- What was sent so far. -/
def sent (s : Site) : List MessageId := s.answers.filterMap (·.sent?)

end Site

/-- What a store answered it was asked. -/
theorem Store.asked_of_answers {s : Store} {asked : Option Asked} {r : Request} {reply : Except Error r.Reply}
    (answered : .served r reply ∈ s.answers asked) : ∃ now, asked = some (now, r) := by
  obtain ⟨⟨now, r'⟩, asks, same⟩ := List.mem_map.mp (List.mem_filter.mp answered).1
  cases same
  exact ⟨now, Option.mem_toList.mp asks⟩

/-- The change that a request makes to a message. -/
def Store.changes (s : Store) (asked : Option Asked) (id : MessageId) : List Change :=
  (s.answers asked).filterMap (·.accepted? id)

/-- What becomes of a message without an outcome. -/
structure Message.Ages (m m' : Message) : Prop where
  failures : m'.failures = m.failures
  error : m'.status = .error ↔ m.status = .error
  terminal : m'.status.isTerminal = false → m.status.isTerminal = false
  version : (∃ beat, m' = { m with heartbeatAt := beat }) ∨ m'.version = m.version + 1

theorem Message.Ages.refl (m : Message) : m.Ages m := ⟨rfl, Iff.rfl, fun open_ => open_, Or.inl ⟨m.heartbeatAt, rfl⟩⟩

namespace Store

variable {s : Store} {asked : Option Asked} {id : MessageId} {m m' : Message}

theorem ages {t : Served} (f : t.Fate m (some m')) (other : ∀ change, t.request ≠ .updateStatus m.id change m.version) :
    m.Ages m' := by
  cases f with
  | kept => exact .refl m
  | refreshed worker => exact ⟨rfl, Iff.rfl, fun open_ => open_, Or.inl ⟨_, rfl⟩⟩
  | claimed worker filter _ eligible =>
    refine ⟨rfl, ?_, fun _ => ?_, Or.inr rfl⟩
    · rcases (Status.isWaiting_iff _).mp (isWaiting_of_eligible eligible) with e | e <;> simp [Message.claim, e]
    · rcases (Status.isWaiting_iff _).mp (isWaiting_of_eligible eligible) with e | e <;> rw [e] <;> rfl
  | changed change asked => exact absurd asked (other change)
  | reclaimed dead lookback _ reclaimable =>
    have working := working_of_reclaimable reclaimable
    refine ⟨rfl, ?_, fun _ => ?_, Or.inr rfl⟩
    · simp [Change.apply, Change.rollback, working]
    · rw [working]
      rfl
  | expired _ due =>
    refine ⟨rfl, ?_, nofun, Or.inr rfl⟩
    rcases (Status.isWaiting_iff _).mp (isWaiting_of_due due) with e | e <;> simp [Change.apply, e]
  | promoted _ ripe =>
    have delayed := delayed_of_ripe ripe
    refine ⟨rfl, ?_, fun _ => ?_, Or.inr rfl⟩
    · simp [Message.promote, delayed]
    · rw [delayed]
      rfl

theorem aged {now : Instant} {r : Request} (distinct : s.Distinct)
    (other : ∀ change version, r ≠ .updateStatus id change version) (after : (s.serve now r).2.get? id = some m') :
    (s.get? id = none ∧ r = .enqueue m') ∨ ∃ m, s.get? id = some m ∧ m.Ages m' := by
  let t : Served := ⟨now, r, s⟩
  cases before : s.get? id with
  | none => exact Or.inl ⟨rfl, Served.arrival (t := t) before after⟩
  | some m =>
    have fate : t.Fate m (some m') := after ▸ Served.fate (t := t) distinct before
    have same := get?_id before
    exact Or.inr ⟨m, rfl, ages fate fun change => same ▸ other change m.version⟩

/-- A request makes the change it asks for, or none at all. -/
theorem outcome (distinct : s.Distinct) (asked : Option Asked) (id : MessageId) :
    (∃ m now change, asked = some (now, .updateStatus id change m.version) ∧ s.get? id = some m ∧
        change.src = m.status ∧ s.changes asked id = [change] ∧
        (s.after asked).get? id = some (change.apply m now)) ∨
      (s.changes asked id = [] ∧ ∀ m', (s.after asked).get? id = some m' →
        (s.get? id = none ∧ ∃ now, asked = some (now, .enqueue m')) ∨ ∃ m, s.get? id = some m ∧ m.Ages m') := by
  have rest : ∀ now r, (∀ change version, r ≠ .updateStatus id change version) → ∀ m',
      (s.after (some (now, r))).get? id = some m' →
        (s.get? id = none ∧ ∃ at_, some (now, r) = some (at_, .enqueue m')) ∨ ∃ m, s.get? id = some m ∧ m.Ages m' := by
    intro now r other m' after
    refine (aged distinct other after).imp_left fun arrived => ⟨arrived.1, now, ?_⟩
    rw [arrived.2]
  rcases asked with _ | ⟨now, r⟩
  · exact Or.inr ⟨rfl, fun m' stored => Or.inr ⟨m', stored, .refl m'⟩⟩
  · cases r with
    | updateStatus i change version =>
      have answers : s.answers (some (now, .updateStatus i change version)) =
        [.served (.updateStatus i change version) (s.updateStatus i change version now).1] := rfl
      by_cases same : i = id
      · subst same
        cases reply : (s.updateStatus i change version now).1 with
        | ok out =>
          obtain ⟨m, stored, _, src, rfl, rfl, after⟩ := updateStatus_ok reply
          refine Or.inl ⟨m, now, change, rfl, stored, src.symm, ?_, (after i).trans (if_pos rfl)⟩
          simp [changes, answers, reply, Deed.accepted?]
        | error e =>
          refine Or.inr ⟨?_, fun m' after => Or.inr ⟨m', ?_, .refl m'⟩⟩
          · simp [changes, answers, reply, Deed.accepted?]
          · rw [← after, Store.after, serve, updateStatus_error reply]
      · refine Or.inr ⟨?_, rest now _ fun _ _ named => ?_⟩
        · cases reply : (s.updateStatus i change version now).1 <;> simp [changes, answers, reply, Deed.accepted?, same]
        · cases named
          exact same rfl
    | _ => exact Or.inr ⟨rfl, rest now _ (by rintro _ _ ⟨⟩)⟩

end Store

namespace Site

/-- What a worker that has `m` in hand may rely on: it was sent, and what is stored of it now is `m` with
another heartbeat at most, or of a later version. -/
structure Knows (s : Site) (m : Message) : Prop where
  sent : m.id ∈ s.sent
  stored : ∀ m', s.store.get? m.id = some m' →
    (∃ beat, m' = { m with heartbeatAt := beat }) ∨ m.version.toNat < m'.version.toNat

/-- Nothing is sent again that has left the store. -/
def Fresh (s : Site) (asked : Option Asked) : Prop :=
  ∀ now m, asked = some (now, .enqueue m) → m.id ∈ s.sent → s.store.get? m.id ≠ none

/-- No stored version is the last one. -/
def Roomy (s : Site) : Prop := ∀ id m, s.store.get? id = some m → m.version.toNat + 1 < 2 ^ 64

namespace Follows

variable {s s' : Site} {asked : Option Asked} {id : MessageId} {m : Message}

/-- Of each message either one change more was made, or none. -/
theorem outcome (follows : s.Follows asked s') (distinct : s.store.Distinct) (id : MessageId) :
    (∃ m now change, asked = some (now, .updateStatus id change m.version) ∧ s.store.get? id = some m ∧
        change.src = m.status ∧ s'.changes id = change :: s.changes id ∧
        s'.store.get? id = some (change.apply m now)) ∨
      (s'.changes id = s.changes id ∧ ∀ m', s'.store.get? id = some m' →
        (s.store.get? id = none ∧ ∃ now, asked = some (now, .enqueue m')) ∨
          ∃ m, s.store.get? id = some m ∧ m.Ages m') := by
  have joined : s'.changes id = s.store.changes asked id ++ s.changes id := by
    rw [Site.changes, follows.answers, List.filterMap_append]
    rfl
  rw [joined, follows.store]
  rcases Store.outcome distinct asked id with ⟨m, now, change, made, stored, src, one, after⟩ | ⟨none, grows⟩
  · exact Or.inl ⟨m, now, change, made, stored, src, by rw [one]; rfl, after⟩
  · exact Or.inr ⟨by rw [none]; rfl, grows⟩

theorem mem_sent (follows : s.Follows asked s') (sent : id ∈ s.sent) : id ∈ s'.sent := by
  rw [Site.sent, follows.answers, List.filterMap_append]
  exact List.mem_append_right _ sent

theorem sent_now (follows : s.Follows asked s') {now : Instant} (sends : asked = some (now, .enqueue m)) :
    m.id ∈ s'.sent := by
  rw [Site.sent, follows.answers, List.filterMap_append, sends]
  exact List.mem_append_left _ List.mem_cons_self

/-- What is stored was sent. -/
theorem stored_sent (follows : s.Follows asked s') (distinct : s.store.Distinct)
    (sent : ∀ id m, s.store.get? id = some m → id ∈ s.sent) :
    ∀ id m, s'.store.get? id = some m → id ∈ s'.sent := by
  intro id m' stored
  rcases follows.outcome distinct id with ⟨m, _, _, _, before, _⟩ | ⟨_, grows⟩
  · exact follows.mem_sent (sent id m before)
  · rcases grows m' stored with ⟨_, now, sends⟩ | ⟨m, before, _⟩
    · exact Store.get?_id stored ▸ follows.sent_now sends
    · exact follows.mem_sent (sent id m before)

theorem knows (follows : s.Follows asked s') (distinct : s.store.Distinct) (fresh : s.Fresh asked) (roomy : s.Roomy)
    (knows : s.Knows m) : s'.Knows m := by
  refine ⟨follows.mem_sent knows.sent, fun m'' stored => ?_⟩
  -- a version later than one that is no earlier
  have later : ∀ {m₀ : Message}, s.store.get? m.id = some m₀ → m''.version = m₀.version + 1 →
      m.version.toNat < m''.version.toNat := by
    intro m₀ before next
    rw [next, toNat_add_one (roomy _ _ before)]
    rcases knows.stored m₀ before with ⟨beat, rfl⟩ | older
    · exact Nat.lt_succ_self _
    · omega
  rcases follows.outcome distinct m.id with ⟨m₀, now, change, _, before, _, _, after⟩ | ⟨_, grows⟩
  · rw [after] at stored
    cases stored
    exact Or.inr (later before rfl)
  · rcases grows m'' stored with ⟨absent, now, sends⟩ | ⟨m₀, before, ages⟩
    · have same := Store.get?_id stored
      exact absurd (same ▸ absent) (fresh now m'' sends (same ▸ knows.sent))
    · rcases ages.version with ⟨beat, rfl⟩ | next
      · rcases knows.stored m₀ before with ⟨_, rfl⟩ | older
        · exact Or.inl ⟨beat, rfl⟩
        · exact Or.inr older
      · exact Or.inr (later before next)

end Follows

end Site

end ClaimQueue
