/-
  ClaimQueue.Proofs.Store.Lanes — lanes of one queue do not get in each other's way.

  What a filter admits is a lane of the queue; routes and types never change, so a message stays
  in its lane. All lanes share the store and its numbering, but the order of claims looks at
  numbers only to tell which of two messages came in first, and that does not change when others
  are taken out from between them (`first?_map_message`).

  `Served.foreign` are the requests that go when a lane is left to itself: what sends, claims or
  addresses messages of other lanes. Passes over the whole store stay. Main statement:
  `lanes_independent`, each of the requests that are left finds the lane as it was (`Agrees`).

  That takes ids that tell messages apart: a message sent under the id of a stored message of
  another lane is ignored, and would not be if that one were not there (`shared_id_crosses_lanes`).
-/

import Mathlib.Data.List.Forall2
import ClaimQueue.Proofs.Store.Draining

namespace ClaimQueue

namespace ClaimFilter

/-- The same routes and types, in either order of priorities. -/
def alike (f g : ClaimFilter) : Bool := g.routes == f.routes && g.types == f.types

/-- What `f` admits `g` does not. -/
def Apart (f g : ClaimFilter) : Prop := ∀ m, f.admits m = true → g.admits m = false

theorem admits_of_alike {f g : ClaimFilter} (h : f.alike g = true) (m : Message) : g.admits m = f.admits m := by
  simp only [alike, Bool.and_eq_true, beq_iff_eq] at h
  rw [admits, admits, h.1, h.2]

end ClaimFilter

namespace Store

variable {f : ClaimFilter} {s u : Store} {id : MessageId} {m : Message} {now : Instant}

/-! ## The order of claims looks at messages alone -/

/-- An entry that came in later goes before only by priority or age. -/
theorem before_later (order : PriorityOrder) {a b a' b' : Entry} (later : b.seq < a.seq) (later' : b'.seq < a'.seq)
    (ha : a'.message = a.message) (hb : b'.message = b.message) : before order a' b' = before order a b := by
  unfold before
  rw [ha, hb, decide_eq_false (Nat.not_lt.mpr (Nat.le_of_lt later)),
    decide_eq_false (Nat.not_lt.mpr (Nat.le_of_lt later'))]

theorem first?_map_message (order : PriorityOrder) {xs ys : List Entry} (hx : xs.Pairwise (·.seq < ·.seq))
    (hy : ys.Pairwise (·.seq < ·.seq)) (same : ys.map (·.message) = xs.map (·.message)) :
    (first? order ys).map (·.message) = (first? order xs).map (·.message) := by
  induction xs generalizing ys with
  | nil =>
    rw [List.map_nil, List.map_eq_nil_iff] at same
    rw [same]
  | cons x xs ih =>
    cases ys with
    | nil => cases same
    | cons y ys =>
      obtain ⟨head, tail⟩ := List.cons.inj same
      obtain ⟨below, hx⟩ := List.pairwise_cons.mp hx
      obtain ⟨below', hy⟩ := List.pairwise_cons.mp hy
      have rest := ih hx hy tail
      simp only [first?]
      cases found : first? order xs with
      | none =>
        rw [found, Option.map_none, Option.map_eq_none_iff] at rest
        rw [rest]
        exact congrArg some head
      | some b =>
        rw [found, Option.map_some, Option.map_eq_some_iff] at rest
        obtain ⟨b', found', best⟩ := rest
        simp only [found', before_later order (below b (first?_mem found)) (below' b' (first?_mem found')) best head]
        split
        · exact congrArg some best
        · exact congrArg some head

/-- The next message depends on the eligible messages alone, however they are numbered. -/
theorem next?_congr (hs : s.Numbered) (hu : u.Numbered) {g : ClaimFilter}
    (same : u.messages.filter (isEligible g now) = s.messages.filter (isEligible g now)) :
    u.next? g now = s.next? g now := by
  have eligible : ∀ s : Store, (s.entries.filter fun e => isEligible g now e.message).map (·.message) =
      s.messages.filter (isEligible g now) := by
    intro s
    rw [messages, List.filter_map]
    rfl
  refine first?_map_message g.order (hs.ascending.sublist List.filter_sublist)
    (hu.ascending.sublist List.filter_sublist) ?_
  rw [eligible, eligible, same]

/-! ## A lane of a store -/

/-- The messages that a filter admits. -/
def lane (s : Store) (f : ClaimFilter) : List Message := s.messages.filter f.admits

/-- Is there a message of the lane under the id? -/
def inLane (s : Store) (f : ClaimFilter) (id : MessageId) : Bool := (s.get? id).any f.admits

/-- `u` has of `s` what `f` admits, numbered in its own way. -/
structure Lane (f : ClaimFilter) (s u : Store) : Prop where
  messages : u.messages = s.lane f
  distinct : s.Distinct
  numbered : s.Numbered
  numbered' : u.Numbered

/-- A change of messages that takes none of them to another lane. -/
theorem lane_modify (s : Store) (p : Message → Bool) {g : Message → Message} (hg : ∀ m, f.admits (g m) = f.admits m) :
    (s.modify p g).lane f = (s.lane f).map fun m => if p m then g m else m := by
  rw [lane, lane, messages_modify, List.filter_map]
  congr 2
  funext m
  simp only [Function.comp_apply]
  split
  · exact hg m
  · rfl

/-- A change of messages that are not in the lane. -/
theorem lane_modify_foreign {p : Message → Bool} {g : Message → Message} (hg : ∀ m, f.admits (g m) = f.admits m)
    (foreign : ∀ m ∈ s.messages, f.admits m = true → p m = false) : (s.modify p g).lane f = s.lane f := by
  rw [lane_modify s p hg]
  refine (List.map_congr_left fun m hm => ?_).trans (List.map_id _)
  obtain ⟨mem, admitted⟩ := List.mem_filter.mp hm
  simp [foreign m mem admitted]

theorem lane_enqueue (s : Store) (m : Message) :
    (s.enqueue m).lane f = if s.contains m.id || !f.admits m then s.lane f else s.lane f ++ [m] := by
  unfold lane
  rw [messages_enqueue]
  cases s.contains m.id with
  | true => rfl
  | false => cases h : f.admits m <;> simp [h]

theorem lane_delete (s : Store) (i : MessageId) : (s.delete i).2.lane f = (s.lane f).filter (·.id != i) := by
  have filtered : (s.delete i).2.messages = s.messages.filter (·.id != i) := by
    simp only [delete, messages, List.filter_map]
    rfl
  rw [lane, lane, filtered, List.filter_comm]

theorem inLane_of_mem (hd : s.Distinct) (mem : m ∈ s.messages) : s.inLane f m.id = f.admits m := by
  rw [inLane, hd.get?_of_mem mem, Option.any_some]

/-- No message of the lane is under an id that is free or taken by another lane. -/
theorem id_ne_of_not_inLane (hd : s.Distinct) (out : s.inLane f id = false) (mem : m ∈ s.messages)
    (admitted : f.admits m = true) : m.id ≠ id := by
  rintro rfl
  rw [inLane_of_mem hd mem, admitted] at out
  cases out

/-- What a scan found in the lane. -/
theorem map_id_lane (hd : s.Distinct) (p : Message → Bool) :
    ((s.lane f).filter p).map (·.id) = ((s.messages.filter p).map (·.id)).filter (s.inLane f) := by
  rw [lane, List.filter_map, List.filter_comm]
  congr 1
  refine List.filter_congr fun m hm => ?_
  exact (inLane_of_mem hd (List.mem_filter.mp hm).1).symm

namespace Lane

theorem distinct' (h : Lane f s u) : u.Distinct := by
  unfold Distinct
  rw [h.messages]
  exact List.Nodup.sublist (List.filter_sublist.map _) h.distinct

theorem get? (h : Lane f s u) (id : MessageId) : u.get? id = (s.get? id).filter f.admits := by
  cases found : s.get? id with
  | none =>
    cases found' : u.get? id with
    | none => rfl
    | some m =>
      have mem := mem_of_get? found'
      rw [h.messages] at mem
      have := h.distinct.get?_of_mem (List.mem_filter.mp mem).1
      rw [get?_id found', found] at this
      cases this
  | some m =>
    obtain rfl := get?_id found
    cases admitted : f.admits m with
    | true =>
      have mem : m ∈ u.messages := by
        rw [h.messages]
        exact List.mem_filter.mpr ⟨mem_of_get? found, admitted⟩
      rw [h.distinct'.get?_of_mem mem, Option.filter_some, if_pos admitted]
    | false =>
      rw [Option.filter_some, admitted, if_neg (by decide)]
      cases found' : u.get? m.id with
      | none => rfl
      | some m' =>
        have mem := mem_of_get? found'
        rw [h.messages] at mem
        obtain ⟨mem, admitted'⟩ := List.mem_filter.mp mem
        rw [h.distinct.eq_of_id mem found (get?_id found'), admitted] at admitted'
        cases admitted'

/-- What is addressed in the lane is what is stored. -/
theorem get?_same (h : Lane f s u) (own : (s.get? id).all f.admits = true) : u.get? id = s.get? id := by
  rw [h.get?]
  cases found : s.get? id with
  | none => rfl
  | some m =>
    rw [found, Option.all_some] at own
    rw [Option.filter_some, if_pos own]

theorem contains_same (h : Lane f s u) (own : (s.get? id).all f.admits = true) : u.contains id = s.contains id := by
  rw [contains_eq, contains_eq, h.get?_same own]

theorem next? (h : Lane f s u) {g : ClaimFilter} (same : ∀ m, g.admits m = f.admits m) :
    u.next? g now = s.next? g now := by
  refine next?_congr h.numbered h.numbered' ?_
  rw [h.messages, lane, List.filter_filter]
  refine List.filter_congr fun m _ => ?_
  rw [isEligible, same, Bool.and_assoc, Bool.and_self]

end Lane

/-- A change on both sides. -/
theorem lane_modify_both (same : u.messages = s.lane f) (p : Message → Bool) {g : Message → Message}
    (hg : ∀ m, f.admits (g m) = f.admits m) : (u.modify p g).messages = (s.modify p g).lane f := by
  rw [messages_modify, same, lane_modify s p hg]

end Store

namespace Served

/-! ## The requests of a lane -/

/-- The message that a request is addressed to. -/
def addressee? (t : Served) : Option MessageId :=
  match t.request with
  | .updateStatus id _ _ => some id
  | .delete id => some id
  | .get id => some id
  | .resetHeartbeat id _ => some id
  | _ => none

/-- Does the request send, claim or address what is in another lane? -/
def foreign (f : ClaimFilter) (t : Served) : Bool :=
  match t.request with
  | .enqueue m => !f.admits m
  | .tryClaim _ g => !f.alike g
  | _ => t.addressee?.any fun id => !(t.before.get? id).all f.admits

/-- Is the request addressed to a message that is not there? -/
def adrift (t : Served) : Bool := t.addressee?.any fun id => (t.before.get? id).isNone

/-- Is a message of the lane sent under the id of a stored message of another one? -/
def crosses (f : ClaimFilter) (t : Served) : Bool :=
  match t.request with
  | .enqueue m => f.admits m && !(t.before.get? m.id).all f.admits
  | _ => false

theorem not_foreign_of_adrift {f : ClaimFilter} {t : Served} (h : t.adrift = true) : t.foreign f = false := by
  obtain ⟨now, r, s⟩ := t
  -- nothing is stored under the id, so nothing of another lane
  have absent : ∀ id, (s.get? id).isNone = true → (!(s.get? id).all f.admits) = false := by
    intro id none
    rw [Option.isNone_iff_eq_none.mp none]
    rfl
  cases r with
  | updateStatus id => exact absent id h
  | delete id => exact absent id h
  | get id => exact absent id h
  | resetHeartbeat id => exact absent id h
  | _ => cases h

/-- What `u` answers is what `t` answers; of what a scan or a count finds, as much as is in the lane. -/
def AnswersAs (f : ClaimFilter) (t u : Served) : Prop :=
  match t.request with
  | .reclaimDead dead lookback =>
    (u.before.reclaimDead t.now dead lookback).1 =
      (t.before.reclaimDead t.now dead lookback).1.filter (t.before.inLane f)
  | .expireDue => (u.before.expireDue t.now).1 = (t.before.expireDue t.now).1.filter (t.before.inLane f)
  | .promoteDelayed =>
    (u.before.promoteDelayed t.now).1 = t.before.messages.countP fun m => Store.isRipe t.now m && f.admits m
  | .count g => u.before.count g = t.before.messages.countP fun m => g.admits m && f.admits m
  | r => (u.before.serve t.now r).1 = (t.before.serve t.now r).1

/-- `u` is the request of `t` to a store with one lane: before and after it the lane is the same, and so is
what is answered of it. -/
structure Agrees (f : ClaimFilter) (t u : Served) : Prop where
  now : u.now = t.now
  request : u.request = t.request
  before : u.before.messages = t.before.lane f
  after : u.after.messages = t.after.lane f
  answers : t.AnswersAs f u

variable {f : ClaimFilter} {now : Instant} {r : Request} {s u : Store}

/-- A request of the lane does the same to a store that has the lane alone. -/
theorem agrees_of_ours (h : s.Lane f u) (ours : foreign f ⟨now, r, s⟩ = false)
    (unshared : crosses f ⟨now, r, s⟩ = false) :
    Agrees f ⟨now, r, s⟩ ⟨now, r, u⟩ := by
  suffices (u.serve now r).2.messages = (s.serve now r).2.lane f ∧ AnswersAs f ⟨now, r, s⟩ ⟨now, r, u⟩ from
    ⟨rfl, rfl, h.messages, this.1, this.2⟩
  -- what is addressed in the lane is stored on both sides, or on neither
  have addressed : ∀ {id}, (!(s.get? id).all f.admits) = false → (s.get? id).all f.admits = true := by
    intro id own
    simpa using own
  cases r with
  | create => exact ⟨h.messages, rfl⟩
  | remove => exact ⟨rfl, rfl⟩
  | enqueue m =>
    have admitted : f.admits m = true := by simpa [foreign] using ours
    have own : (s.get? m.id).all f.admits = true := addressed (by simpa [crosses, admitted] using unshared)
    refine ⟨?_, rfl⟩
    show (u.enqueue m).messages = (s.enqueue m).lane f
    rw [Store.messages_enqueue, Store.lane_enqueue, h.contains_same own, h.messages, admitted, Bool.not_true,
      Bool.or_false]
  | tryClaim worker g =>
    have alike : f.alike g = true := by simpa [foreign] using ours
    have next : u.next? g now = s.next? g now := h.next? (ClaimFilter.admits_of_alike alike)
    simp only [AnswersAs, Store.serve, Store.tryClaim, next]
    cases s.next? g now with
    | none => exact ⟨h.messages, rfl⟩
    | some m => exact ⟨Store.lane_modify_both h.messages _ fun _ => rfl, rfl⟩
  | updateStatus id change version =>
    have stored := h.get?_same (addressed ours)
    simp only [AnswersAs, Store.serve, Store.updateStatus, stored]
    cases change.check with
    | error e => exact ⟨h.messages, rfl⟩
    | ok _ =>
      cases s.get? id with
      | none => exact ⟨h.messages, rfl⟩
      | some m =>
        dsimp only
        split
        · exact ⟨Store.lane_modify_both h.messages _ fun _ => rfl, rfl⟩
        · exact ⟨h.messages, rfl⟩
  | delete id =>
    have stored := h.contains_same (addressed ours)
    refine ⟨?_, congrArg Except.ok stored⟩
    show (u.delete id).2.messages = (s.delete id).2.lane f
    rw [Store.lane_delete, ← h.messages]
    simp only [Store.delete, Store.messages, List.filter_map]
    rfl
  | get id =>
    have stored := h.get?_same (addressed ours)
    exact ⟨h.messages, congrArg Except.ok stored⟩
  | count g =>
    refine ⟨h.messages, ?_⟩
    show u.messages.countP g.admits = _
    rw [h.messages, Store.lane, List.countP_filter]
  | resetHeartbeat id worker =>
    have stored := h.get?_same (addressed ours)
    simp only [AnswersAs, Store.serve, Store.resetHeartbeat, stored]
    split
    · exact ⟨Store.lane_modify_both h.messages _ fun _ => rfl, rfl⟩
    · exact ⟨h.messages, rfl⟩
  | reclaimDead dead lookback =>
    refine ⟨Store.lane_modify_both h.messages _ fun _ => rfl, ?_⟩
    show (u.messages.filter _).map (·.id) = _
    rw [h.messages, Store.map_id_lane h.distinct]
    rfl
  | expireDue =>
    refine ⟨Store.lane_modify_both h.messages _ fun _ => rfl, ?_⟩
    show (u.messages.filter _).map (·.id) = _
    rw [h.messages, Store.map_id_lane h.distinct]
    rfl
  | promoteDelayed =>
    refine ⟨Store.lane_modify_both h.messages _ fun _ => rfl, ?_⟩
    show u.messages.countP _ = _
    rw [h.messages, Store.lane, List.countP_filter]

/-- A request of another lane, or to nobody, leaves the lane alone. -/
theorem lane_of_theirs (h : s.Lane f u) (claims : ∀ worker g, r = .tryClaim worker g → f.alike g = true ∨ f.Apart g)
    (theirs : foreign f ⟨now, r, s⟩ = true ∨ adrift ⟨now, r, s⟩ = true) : (s.serve now r).2.lane f = s.lane f := by
  -- what is addressed elsewhere is no id of the lane
  have elsewhere : ∀ {id}, ((!(s.get? id).all f.admits) = true ∨ (s.get? id).isNone = true) →
      ∀ m ∈ s.messages, f.admits m = true → m.id ≠ id := by
    intro id out m mem admitted
    refine Store.id_ne_of_not_inLane h.distinct ?_ mem admitted
    rw [Store.inLane]
    cases found : s.get? id with
    | none => rfl
    | some m' => simpa [found] using out
  cases r with
  | enqueue m =>
    have other : f.admits m = false := by simpa [foreign, adrift, addressee?] using theirs
    show (s.enqueue m).lane f = s.lane f
    rw [Store.lane_enqueue, other, Bool.not_false, Bool.or_true, if_pos rfl]
  | tryClaim worker g =>
    have unlike : f.alike g = false := by simpa [foreign, adrift, addressee?] using theirs
    have apart : f.Apart g := (claims worker g rfl).resolve_left (by simp [unlike])
    show (s.tryClaim worker g now).2.lane f = s.lane f
    unfold Store.tryClaim
    cases found : s.next? g now with
    | none => rfl
    | some m =>
      obtain ⟨mem, eligible⟩ := Store.next?_mem found
      have theirs : f.admits m = false := by
        cases admitted : f.admits m with
        | false => rfl
        | true =>
          rw [Store.isEligible, apart m admitted, Bool.and_false] at eligible
          cases eligible
      refine Store.lane_modify_foreign (fun _ => rfl) fun m' mem' admitted => ?_
      have : m'.id ≠ m.id := by
        intro same
        rw [h.distinct.eq_of_id mem' (h.distinct.get?_of_mem mem) same, theirs] at admitted
        cases admitted
      simpa using this
  | updateStatus id change version =>
    have out := elsewhere theirs
    show (s.updateStatus id change version now).2.lane f = s.lane f
    unfold Store.updateStatus
    repeat' split
    all_goals first
      | rfl
      | exact Store.lane_modify_foreign (fun _ => rfl) fun m mem admitted => by simpa using out m mem admitted
  | delete id =>
    have out := elsewhere theirs
    show (s.delete id).2.lane f = s.lane f
    rw [Store.lane_delete, List.filter_eq_self]
    intro m hm
    obtain ⟨mem, admitted⟩ := List.mem_filter.mp hm
    simpa using out m mem admitted
  | resetHeartbeat id worker =>
    have out := elsewhere theirs
    show (s.resetHeartbeat id worker now).2.lane f = s.lane f
    unfold Store.resetHeartbeat
    split
    · exact Store.lane_modify_foreign (fun _ => rfl) fun m mem admitted => by simpa using out m mem admitted
    · rfl
  | get id => rfl
  | _ => simp [foreign, adrift, addressee?] at theirs

end Served

namespace Store

variable {f : ClaimFilter} {s u : Store}

theorem Lane.serve (h : s.Lane f u) (now : Instant) (r : Request) {u' : Store} (numbered : u'.Numbered)
    (messages : u'.messages = (s.serve now r).2.lane f) : (s.serve now r).2.Lane f u' :=
  ⟨messages, distinct_serve h.distinct now r, h.numbered.serve now r, numbered⟩

/-- The requests that are left of a run, one after the other. -/
theorem Lane.history (h : s.Lane f u) (rs : List (Instant × Request))
    (claims : ∀ now worker g, (now, .tryClaim worker g) ∈ rs → f.alike g = true ∨ f.Apart g)
    (unshared : ∀ t ∈ s.history rs, t.crosses f = false)
    (keep : Served → Bool) (kept : ∀ t ∈ s.history rs, t.adrift = false → keep t = !t.foreign f) :
    List.Forall₂ (Served.Agrees f) ((s.history rs).filter keep)
      (u.history (((s.history rs).filter keep).map fun t => (t.now, t.request))) := by
  induction rs generalizing s u with
  | nil => exact .nil
  | cons r rs ih =>
    obtain ⟨now, r⟩ := r
    let t : Served := ⟨now, r, s⟩
    have claims' := fun now worker g mem => claims now worker g (List.mem_cons_of_mem _ mem)
    have unshared' := fun u hu => unshared u (List.mem_cons_of_mem _ hu)
    have kept' := fun u hu => kept u (List.mem_cons_of_mem _ hu)
    show List.Forall₂ (Served.Agrees f) ((t :: t.after.history rs).filter keep)
      (u.history (((t :: t.after.history rs).filter keep).map fun t => (t.now, t.request)))
    cases keeps : keep t with
    | false =>
      rw [List.filter_cons_of_neg (by simp [keeps])]
      have theirs : t.foreign f = true ∨ t.adrift = true := by
        cases adrift : t.adrift with
        | true => exact Or.inr rfl
        | false => exact Or.inl (by simpa [keeps] using kept t List.mem_cons_self adrift)
      have same := Served.lane_of_theirs h (fun worker g asks => claims now worker g (asks ▸ List.mem_cons_self)) theirs
      exact ih (h.serve now r h.numbered' (h.messages.trans same.symm)) claims' unshared' kept'
    | true =>
      rw [List.filter_cons_of_pos keeps]
      have ours : t.foreign f = false := by
        cases adrift : t.adrift with
        | false => simpa [keeps] using kept t List.mem_cons_self adrift
        | true => exact Served.not_foreign_of_adrift adrift
      have agrees := Served.agrees_of_ours h ours (unshared t List.mem_cons_self)
      exact .cons agrees (ih (h.serve now r (h.numbered'.serve now r) agrees.after) claims' unshared' kept')

end Store

/-- Where all claims are for the lane of `f` or for messages outside it, and no message of the lane is sent under the
id of a stored message outside it, the requests of the lane and the passes over the whole store do to the lane and
answer of it what they do and answer without the requests of other lanes. Requests to nobody may stay or go. -/
theorem lanes_independent (f : ClaimFilter) (rs : List (Instant × Request))
    (claims : ∀ now worker g, (now, .tryClaim worker g) ∈ rs → f.alike g = true ∨ f.Apart g)
    (unshared : ∀ t ∈ Store.empty.history rs, t.crosses f = false)
    (keep : Served → Bool) (kept : ∀ t ∈ Store.empty.history rs, t.adrift = false → keep t = !t.foreign f) :
    let left := (Store.empty.history rs).filter keep
    List.Forall₂ (Served.Agrees f) left (Store.empty.history (left.map fun t => (t.now, t.request))) := by
  have start : Store.empty.Lane f .empty := ⟨rfl, Store.distinct_empty, .empty, .empty⟩
  exact start.history rs claims unshared keep kept

namespace Lanes

def plain (id : MessageId) (priority : UInt16) : Message := .ofDraft id { type := "job", body := [], priority } .epoch

def blue (id : MessageId) : Message := .ofDraft id { type := "job", body := [], route := some "blue" } .epoch

def later : Instant := (Instant.ofMillis? 2000).getD .epoch

/-- Messages of two lanes, in turns; one of each falls silent, and the lanes claim by opposite orders. -/
def turns : List (Instant × Request) :=
  [(.epoch, .enqueue (blue ⟨1⟩)), (.epoch, .enqueue (plain ⟨2⟩ 7)), (.epoch, .enqueue (plain ⟨3⟩ 5)),
    (.epoch, .tryClaim ⟨"sailor"⟩ { routes := ["blue"] }), (.epoch, .tryClaim ⟨"clerk"⟩ {}),
    (later, .reclaimDead (.ofMillis 1000) none), (later, .delete ⟨1⟩), (later, .updateStatus ⟨1⟩ .complete 1),
    (later, .tryClaim ⟨"clerk"⟩ { order := .highestFirst })]

/-- The requests of the plain lane, and those to nobody. -/
def left : List Served := (Store.empty.history turns).filter (!·.foreign {})

theorem apart : ClaimFilter.Apart {} { routes := ["blue"] } := by
  intro m plain
  cases route : m.route with
  | none => simp [ClaimFilter.admits, route]
  | some r => simp [ClaimFilter.admits, route] at plain

theorem claims : ∀ now worker g, (now, .tryClaim worker g) ∈ turns →
    ClaimFilter.alike {} g = true ∨ ClaimFilter.Apart {} g := by
  intro now worker g mem
  simp only [turns, List.mem_cons, Prod.mk.injEq, Request.tryClaim.injEq, reduceCtorEq, and_false, false_or,
    List.not_mem_nil, or_false] at mem
  obtain ⟨-, -, rfl⟩ | ⟨-, -, rfl⟩ | ⟨-, -, rfl⟩ := mem
  · exact Or.inr apart
  · exact Or.inl rfl
  · exact Or.inl rfl

end Lanes

/-- Left to itself the plain lane hands out the same messages, and the reclaim gives back its own. -/
theorem lanes_independent_turns :
    let alone := Store.empty.history (Lanes.left.map fun t => (t.now, t.request))
    List.Forall₂ (Served.Agrees {}) Lanes.left alone ∧
      alone.map (fun t => t.claimed?.map (·.id)) = [none, none, some ⟨3⟩, none, none, some ⟨2⟩] := by
  refine ⟨?_, by decide +kernel⟩
  exact lanes_independent {} Lanes.turns Lanes.claims (by decide +kernel) (!·.foreign {}) fun _ _ _ => rfl

/-- A plain message under the id of a blue one that is still there. -/
def crossing : List (Instant × Request) :=
  [(.epoch, .enqueue (Lanes.blue ⟨1⟩)), (.epoch, .enqueue (Lanes.plain ⟨1⟩ 0)), (.epoch, .tryClaim ⟨"clerk"⟩ {}),
    (.epoch, .remove)]

/-- The plain message is ignored, and would be claimed if the blue one had not been sent. -/
theorem shared_id_crosses_lanes :
    (∀ now worker g, (now, .tryClaim worker g) ∈ crossing → ClaimFilter.alike {} g = true ∨ ClaimFilter.Apart {} g) ∧
      let left := (Store.empty.history crossing).filter (!·.foreign {})
      let alone := Store.empty.history (left.map fun t => (t.now, t.request))
      left.map (fun t => t.claimed?.isSome) = [false, false, false] ∧
        alone.map (fun t => t.claimed?.isSome) = [false, true, false] ∧ ¬List.Forall₂ (Served.Agrees {}) left alone := by
  refine ⟨?_, by decide +kernel, by decide +kernel, ?_⟩
  · intro now worker g mem
    simp only [crossing, List.mem_cons, Prod.mk.injEq, Request.tryClaim.injEq, reduceCtorEq, and_false, false_or,
      List.not_mem_nil, or_false] at mem
    obtain ⟨-, -, rfl⟩ := mem
    exact Or.inl rfl
  · intro agree
    -- the lane is empty when the plain message was sent, and is not if it was sent alone
    obtain ⟨-, rest⟩ := List.forall₂_cons.mp agree
    obtain ⟨agrees, -⟩ := List.forall₂_cons.mp rest
    have same := congrArg List.length agrees.before
    exact absurd same (by decide +kernel)

end ClaimQueue
