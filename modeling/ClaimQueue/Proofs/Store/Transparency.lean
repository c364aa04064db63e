/-
  ClaimQueue.Proofs.Store.Transparency — workers do not notice the scans for delays and expirations.

  A session is the traffic of all workers with one store: what they send, claim, end,
  refresh and reclaim. An outcome names the claim it ends and shows the version that claim
  handed out, so late and repeated outcomes are among the acts. Between them anyone may
  scan for delays and expirations (`Act.isScan`), at any instant in order.

  What an act gives its worker to see is its `View`. Main statement: `scans_transparent`,
  the views of a session are those of the session without the scans. The two sessions are
  kept `Alike` by every act of a worker (`Alike.step`) and by every scan on one side
  (`Alike.scan`).
-/

import ClaimQueue.Proofs.Store.Shadow
import ClaimQueue.Site.Form

namespace ClaimQueue

inductive Act where
  /-- Send the message that a draft became when it was `built`. -/
  | send (id : MessageId) (draft : Draft) (built : Instant)
  | claim (worker : WorkerId) (filter : ClaimFilter)
  /-- End the claim that came `nth`, with a change from working. -/
  | outcome (nth : Nat) (change : Change)
  | refresh (id : MessageId) (worker : WorkerId)
  | reclaim (dead : Span) (lookback : Option Span)
  | promote
  | expire

def Act.isScan : Act → Bool
  | .promote | .expire => true
  | _ => false

/-- What a worker sees of its act. -/
inductive View where
  | sent
  | claimed (got : Option (MessageId × UInt32))
  | done
  /-- The kind of the error. -/
  | failed (kind : String)
  | reclaimed (ids : List MessageId)
  /-- There was no claim to end. -/
  | idle
  deriving DecidableEq, Repr

def View.of {α : Type} : Except Error α → View
  | .ok _ => .done
  | .error e => .failed e.kind

/-- A store and what its claims handed out. -/
structure Session where
  store : Store := .empty
  claims : List Message := []

namespace Session

def step (w : Session) (now : Instant) : Act → Option View × Session
  | .send id draft built => (some .sent, { w with store := w.store.enqueue (.ofDraft id draft built) })
  | .claim worker filter =>
    let (got, s) := w.store.tryClaim worker filter now
    (some (.claimed (got.map fun m => (m.id, m.attempts))), { store := s, claims := w.claims ++ got.toList })
  | .outcome nth change =>
    match w.claims[nth]? with
    | none => (some .idle, w)
    | some m =>
      let (r, s) := w.store.updateStatus m.id { change with src := .working } m.version now
      (some (.of r), { w with store := s })
  | .refresh id worker =>
    let (r, s) := w.store.resetHeartbeat id worker now
    (some (.of r), { w with store := s })
  | .reclaim dead lookback =>
    let (ids, s) := w.store.reclaimDead now dead lookback
    (some (.reclaimed ids), { w with store := s })
  | .promote => (none, { w with store := (w.store.promoteDelayed now).2 })
  | .expire => (none, { w with store := (w.store.expireDue now).2 })

/-- What the workers see of their acts, in order. -/
def views (w : Session) : List (Instant × Act) → List View
  | [] => []
  | (now, act) :: rest => (w.step now act).1.toList ++ (w.step now act).2.views rest

end Session

/-! ## Two sessions in step -/

/-- The claims of `v` and `w` are the two sides of `tickets`. -/
structure Alike (now : Instant) (tickets : List (Message × Message)) (v w : Session) : Prop where
  twin : Twin now tickets v.store w.store
  distinct : v.store.Distinct
  left : v.claims = tickets.map (·.1)
  right : w.claims = tickets.map (·.2)
  known : ∀ t ∈ tickets, t.1.id = t.2.id ∧ t.1.id ∈ v.store.messages.map (·.id)

namespace Alike

variable {now : Instant} {tickets : List (Message × Message)} {v w : Session}

theorem start (now : Instant) : Alike now [] {} {} where
  twin := ⟨.nil, rfl⟩
  distinct := Store.distinct_empty
  left := rfl
  right := rfl
  known _ := nofun

theorem later (h : Alike now tickets v w) {t : Instant} (le : now ≤ t) : Alike t tickets v w :=
  { h with twin := h.twin.later le }

theorem known_modify (h : Alike now tickets v w) (p : Message → Bool) {f : Message → Message}
    (hf : ∀ m, (f m).id = m.id) :
    ∀ t ∈ tickets, t.1.id = t.2.id ∧ t.1.id ∈ (v.store.modify p f).messages.map (·.id) := by
  rw [Store.ids_modify v.store p hf]
  exact h.known

/-- The same message changes on both sides. -/
theorem modify_id (h : Alike now tickets v w) {id : MessageId} {m m' : Message} (f g : Message → Message)
    (hf : ∀ m, (f m).id = m.id) (hm : v.store.get? id = some m) (hm' : w.store.get? id = some m')
    (changed : Shadow now tickets (f m) (g m')) :
    Alike now tickets { v with store := v.store.modify (·.id == id) f }
      { w with store := w.store.modify (·.id == id) g } where
  twin := h.twin.modify_id f g h.distinct hm hm' changed fun _ _ hab _ => hab
  distinct := h.distinct.modify _ hf
  left := h.left
  right := h.right
  known := h.known_modify _ hf

theorem send (h : Alike now tickets v w) (m : Message) :
    Alike now tickets { v with store := v.store.enqueue m } { w with store := w.store.enqueue m } where
  twin := h.twin.enqueue m fun t ht => (h.known t ht).2
  distinct := h.distinct.enqueue m
  left := h.left
  right := h.right
  known t ht := by
    obtain ⟨same, mem⟩ := h.known t ht
    refine ⟨same, ?_⟩
    show t.1.id ∈ (v.store.enqueue m).messages.map (·.id)
    rw [Store.messages_enqueue]
    split
    · exact mem
    · rw [List.map_append]
      exact List.mem_append_left _ mem

/-- Both sides take the same message, and what they hand out is a new ticket. -/
theorem claim (h : Alike now tickets v w) (worker : WorkerId) (filter : ClaimFilter) :
    (v.step now (.claim worker filter)).1 = (w.step now (.claim worker filter)).1 ∧
      ∃ tickets', Alike now tickets' (v.step now (.claim worker filter)).2 (w.step now (.claim worker filter)).2 := by
  simp only [Session.step, Store.tryClaim]
  rcases h.twin.next? filter with ⟨none, none'⟩ | ⟨m, m', taken, taken', hm⟩
  · simp only [none, none', Option.toList_none, List.append_nil]
    exact ⟨trivial, tickets, h⟩
  · obtain ⟨mem, -⟩ := Store.next?_mem taken
    obtain ⟨mem', eligible⟩ := Store.next?_mem taken'
    have stored := h.distinct.get?_of_mem mem
    have stored' := (h.twin.distinct h.distinct).get?_of_mem mem'
    have claimed := hm.claim (Store.isWaiting_of_eligible eligible) worker now
    have attempts : (m.claim worker now).attempts = (m'.claim worker now).attempts :=
      congrArg (·.attempts) claimed.core
    rw [← hm.id] at stored'
    have twin := h.twin.modify_id (·.claim worker now) (·.claim worker now) h.distinct stored stored'
      (claimed.ticket rfl) fun a b hab ne => hab.other ne.symm
    simp only [taken, taken', Option.map_some, Option.toList_some, ← hm.id]
    refine ⟨?_, _, twin, h.distinct.modify _ fun _ => rfl, ?_, ?_, ?_⟩
    · rw [claimed.id, attempts]
    · rw [List.map_append, h.left]
      rfl
    · rw [List.map_append, h.right]
      rfl
    · intro t ht
      rcases List.mem_append.mp ht with ht | ht
      · exact h.known_modify _ (f := (·.claim worker now)) (fun _ => rfl) t ht
      · rw [List.mem_singleton.mp ht, Store.ids_modify v.store _ (f := (·.claim worker now)) fun _ => rfl]
        exact ⟨hm.id, List.mem_map.mpr ⟨m, mem, rfl⟩⟩

/-- An outcome meets its claim on both sides, or on neither. -/
theorem outcome (h : Alike now tickets v w) (nth : Nat) (change : Change) :
    (v.step now (.outcome nth change)).1 = (w.step now (.outcome nth change)).1 ∧
      Alike now tickets (v.step now (.outcome nth change)).2 (w.step now (.outcome nth change)).2 := by
  have left : v.claims[nth]? = tickets[nth]?.map (·.1) := by rw [h.left, List.getElem?_map]
  have right : w.claims[nth]? = tickets[nth]?.map (·.2) := by rw [h.right, List.getElem?_map]
  simp only [Session.step, left, right]
  cases nth? : tickets[nth]? with
  | none => exact ⟨rfl, h⟩
  | some t =>
    have ht := List.mem_of_getElem? nth?
    obtain ⟨same, -⟩ := h.known t ht
    simp only [Option.map_some, Store.updateStatus, Change.check, ← same]
    split
    · exact ⟨rfl, h⟩
    · rename_i allowed
      rcases h.twin.get? t.1.id with ⟨none, none'⟩ | ⟨a, b, stored, stored', hab⟩
      · simp only [none, none']
        exact ⟨trivial, h⟩
      · have fits := hab.fits_iff ht (Store.get?_id stored).symm
        simp only [stored, stored', fits]
        split
        · rename_i met
          let outcome : Change := { change with src := .working }
          have dst : outcome.dst ≠ .delayed := by
            intro delayed
            rw [Change.isAllowed, delayed] at allowed
            cases allowed
          exact ⟨rfl, h.modify_id (outcome.apply · now) (outcome.apply · now) (fun _ => rfl) stored stored'
            (hab.apply met.1 dst now)⟩
        · exact ⟨rfl, h⟩

theorem refresh (h : Alike now tickets v w) (id : MessageId) (worker : WorkerId) :
    (v.step now (.refresh id worker)).1 = (w.step now (.refresh id worker)).1 ∧
      Alike now tickets (v.step now (.refresh id worker)).2 (w.step now (.refresh id worker)).2 := by
  simp only [Session.step, Store.resetHeartbeat]
  rcases h.twin.get? id with ⟨none, none'⟩ | ⟨a, b, stored, stored', hab⟩
  · simp only [none, none', Option.any_none, Bool.false_eq_true, if_false]
    exact ⟨trivial, h⟩
  · simp only [stored, stored', Option.any_some, hab.holds]
    split
    · let beat (m : Message) : Message := { m with heartbeatAt := some now }
      exact ⟨rfl, h.modify_id beat beat (fun _ => rfl) stored stored' (hab.refresh now)⟩
    · exact ⟨rfl, h⟩

theorem reclaim (h : Alike now tickets v w) (dead : Span) (lookback : Option Span) :
    (v.step now (.reclaim dead lookback)).1 = (w.step now (.reclaim dead lookback)).1 ∧
      Alike now tickets (v.step now (.reclaim dead lookback)).2 (w.step now (.reclaim dead lookback)).2 := by
  refine ⟨congrArg (some <| View.reclaimed ·) (h.twin.reclaimed now dead lookback), ?_, ?_, h.left, h.right, ?_⟩
  · show Twin now tickets (v.store.modify _ (Change.rollback.apply · now)) (w.store.modify _ (Change.rollback.apply · now))
    refine h.twin.modify fun a _ b _ hab => ?_
    rw [hab.isReclaimable]
    split
    · exact hab.apply (Store.working_of_reclaimable ‹_›) (by decide) now
    · exact hab
  · exact h.distinct.modify _ fun _ => rfl
  · exact h.known_modify _ (f := (Change.rollback.apply · now)) fun _ => rfl

/-- What a worker does shows the same on both sides and keeps them in step. -/
theorem step (h : Alike now tickets v w) {act : Act} (acts : act.isScan = false) :
    (v.step now act).1 = (w.step now act).1 ∧ ∃ tickets', Alike now tickets' (v.step now act).2 (w.step now act).2 := by
  cases act with
  | send id draft built => exact ⟨rfl, tickets, h.send _⟩
  | claim worker filter => exact h.claim worker filter
  | outcome nth change => exact (h.outcome nth change).imp_right fun h => ⟨tickets, h⟩
  | refresh id worker => exact (h.refresh id worker).imp_right fun h => ⟨tickets, h⟩
  | reclaim dead lookback => exact (h.reclaim dead lookback).imp_right fun h => ⟨tickets, h⟩
  | promote | expire => cases acts

/-- A scan on one side shows nothing and keeps both in step. -/
theorem scan (h : Alike now tickets v w) {act : Act} (scans : act.isScan = true) :
    (w.step now act).1 = none ∧ Alike now tickets v (w.step now act).2 := by
  cases act with
  | promote => exact ⟨rfl, { h with twin := h.twin.scan fun a b hab ripe => hab.promote ripe }⟩
  | expire => exact ⟨rfl, { h with twin := h.twin.scan fun a b hab due => hab.expire due }⟩
  | _ => cases scans

theorem views (h : Alike now tickets v w) {es : List (Instant × Act)} (after : ∀ e ∈ es, now ≤ e.1)
    (ordered : es.Pairwise fun x y => x.1 ≤ y.1) : v.views (es.filter fun e => !e.2.isScan) = w.views es := by
  induction es generalizing now tickets v w with
  | nil => rfl
  | cons e es ih =>
    obtain ⟨t, act⟩ := e
    obtain ⟨first, ordered⟩ := List.pairwise_cons.mp ordered
    have h := h.later (after _ List.mem_cons_self)
    cases scans : act.isScan with
    | true =>
      obtain ⟨silent, h⟩ := h.scan scans
      rw [List.filter_cons_of_neg (by simp [scans]), Session.views, silent]
      exact ih h first ordered
    | false =>
      obtain ⟨same, tickets', h⟩ := h.step scans
      rw [List.filter_cons_of_pos (by simp [scans]), Session.views, Session.views, same]
      exact congrArg (_ ++ ·) (ih h first ordered)

end Alike

/-- Scans for delays and expirations show the workers nothing: every claim gets the same
message or none, every outcome and heartbeat has the same success or kind of error, and
every reclaim gives back the same messages, as in the session without the scans. -/
theorem scans_transparent (es : List (Instant × Act)) (ordered : es.Pairwise fun x y => x.1 ≤ y.1) :
    ({} : Session).views (es.filter fun e => !e.2.isScan) = ({} : Session).views es := by
  cases es with
  | nil => rfl
  | cons e es =>
    refine (Alike.start e.1).views (fun x hx => ?_) ordered
    rcases List.mem_cons.mp hx with rfl | hx
    · exact Int.le_refl _
    · exact (List.pairwise_cons.mp ordered).1 x hx

/-- A delayed message is promoted, claimed and completed, and completed again. -/
def promoted : List (Instant × Act) :=
  let later : Instant := (Instant.ofMillis? 2000).getD .epoch
  [(.epoch, .send .nil { type := "job", body := [], delay := some (.ofMillis 1000) } .epoch), (later, .promote),
    (later, .claim ⟨"first"⟩ {}), (later, .expire), (later, .outcome 0 .complete), (later, .outcome 0 .complete)]

theorem scans_transparent_promoted :
    (promoted.Pairwise fun x y => x.1 ≤ y.1) ∧
      ({} : Session).views (promoted.filter fun e => !e.2.isScan) =
        [.sent, .claimed (some (.nil, 1)), .done, .failed "StaleState"] := by
  have ordered : promoted.Pairwise fun x y => x.1 ≤ y.1 := by decide
  exact ⟨ordered, (scans_transparent promoted ordered).trans (by decide)⟩

end ClaimQueue
