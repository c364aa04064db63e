/-
  ClaimQueue.Proofs.Send.Batches — what a batch of drafts leaves in the store.

  A draft is rejected for its own sake: the check finds a fault in it exactly if it breaks a
  rule (`Draft.breaks_of_fault`, `Draft.not_breaks_of_none`), whatever came before. A draft that
  keeps the rules becomes a message that asks for nothing the backend lacks, and that can be
  claimed at some instant, for what its delay and its expiration come to keeps their order.

  On a site that serves every request in the first attempt (`Site.Serves`) no step of a batch
  waits, so a batch of `n` drafts is through after `4 * n` steps, however the clock is set before
  each (`Batch.after`). What it has done by then is told draft by draft (`Handled`): the store is
  the one before with the accepted messages enqueued in their order. If the ids are fresh, each
  of these is a new entry, numbered on from where the store was.

  Main statement: `batch_exact`.
-/

import ClaimQueue.Proofs.Send.FrontEnds
import ClaimQueue.Proofs.Work.Deferral
import Mathlib.Data.List.Forall2
import Mathlib.Tactic.SplitIfs

namespace ClaimQueue

/-! ## The rules for drafts -/

/-- The backend offers what is asked for. -/
structure Capabilities.Offers (c : Capabilities) (delayed expires : Bool) (priority : UInt16) (routed : Bool) : Prop where
  delayed : delayed = true → c.delayed = true
  expiration : expires = true → c.expiration = true
  priority : priority ≠ 0 → c.priority = true
  route : routed = true → c.route = true

namespace Draft

/-- The draft breaks a rule, whichever. -/
inductive Breaks (c : Capabilities) (d : Draft) : Prop
  | blankType : (∀ ch ∈ d.type.toList, isBlank ch = true) → Breaks c d
  | notOffered : ¬c.Offers d.delay.isSome d.expiration.isSome d.priority d.route.isSome → Breaks c d
  | zeroExpiration (x : Span) : d.expiration = some x → x.nanos = 0 → Breaks c d
  | neverVisible (delay x : Span) : d.delay = some delay → d.expiration = some x → x ≤ delay → Breaks c d
  | blankRoute (route : String) : d.route = some route → (∀ ch ∈ route.toList, isBlank ch = true) → Breaks c d

variable {c : Capabilities} {d : Draft}

theorem isBlankText_iff (text : String) : isBlankText text = true ↔ ∀ ch ∈ text.toList, isBlank ch = true :=
  List.all_eq_true

theorem breaks_of_fault {f : DraftFault} (found : d.fault? c = some f) : d.Breaks c := by
  have missing : ∀ {asked : Prop} {offered : Bool}, (asked → offered = true) → ¬(asked ∧ offered = false) := by
    rintro asked offered offers ⟨asks, lacks⟩
    rw [offers asks] at lacks
    cases lacks
  simp only [fault?, Bool.and_eq_true, Bool.not_eq_true', bne_iff_ne] at found
  split_ifs at found with type delay expiration zero outlasts priority route blank
  · exact .blankType ((isBlankText_iff _).mp type)
  · exact .notOffered fun offers => missing offers.delayed delay
  · exact .notOffered fun offers => missing offers.expiration expiration
  · obtain ⟨x, given, none⟩ := (Option.any_eq_true _ _).mp zero
    exact .zeroExpiration x given (beq_iff_eq.mp none)
  · obtain ⟨x, given, any⟩ := (Option.any_eq_true _ _).mp outlasts
    obtain ⟨delay, given', long⟩ := (Option.any_eq_true _ _).mp any
    exact .neverVisible delay x given' given (of_decide_eq_true long)
  · exact .notOffered fun offers => missing offers.priority priority
  · exact .notOffered fun offers => missing offers.route route
  · obtain ⟨route, given, blank⟩ := (Option.any_eq_true _ _).mp blank
    exact .blankRoute route given ((isBlankText_iff _).mp blank)

theorem not_breaks_of_none (passed : d.fault? c = none) : ¬d.Breaks c := by
  intro broken
  simp only [fault?] at passed
  split_ifs at passed with type delay expiration zero outlasts priority route blank
  cases broken with
  | blankType all => exact type ((isBlankText_iff _).mpr all)
  | notOffered missing =>
    refine missing ⟨?_, ?_, ?_, ?_⟩
    · simpa using delay
    · simpa using expiration
    · simpa using priority
    · simpa using route
  | zeroExpiration x given none => simp [given, Span.isZero, none] at zero
  | neverVisible a x given given' long => simp [given, given', Draft.outlasts, long] at outlasts
  | blankRoute r given all => simp [given, (isBlankText_iff r).mpr all] at blank

end Draft

/-! ## The messages of accepted drafts -/

namespace Message

variable {c : Capabilities} {d : Draft} {id : MessageId} {now v x : Instant}

/-- Nothing is in a message that its draft did not ask for. -/
theorem ofDraft_offers (kept : ¬d.Breaks c) :
    c.Offers (ofDraft id d now).visibleAt.isSome (ofDraft id d now).expiresAt.isSome (ofDraft id d now).priority
      (ofDraft id d now).route.isSome := by
  have asked : ∀ o : Option Span, (o.bind now.add?).isSome = true → o.isSome = true := by
    rintro (_ | d) h
    · exact h
    · rfl
  obtain ⟨delayed, expiration, priority, route⟩ : c.Offers d.delay.isSome d.expiration.isSome d.priority d.route.isSome :=
    Classical.byContradiction fun missing => kept (.notOffered missing)
  exact ⟨fun h => delayed (asked _ h), fun h => expiration (asked _ h), priority, route⟩

/-- A message becomes visible before it expires. -/
theorem ofDraft_window (kept : ¬d.Breaks c) (visible : (ofDraft id d now).visibleAt = some v)
    (expires : (ofDraft id d now).expiresAt = some x) : v < x := by
  obtain ⟨delay, given, sum⟩ := Option.bind_eq_some_iff.mp visible
  obtain ⟨expiration, given', sum'⟩ := Option.bind_eq_some_iff.mp expires
  have short : ¬expiration ≤ delay := fun long => kept (.neverVisible delay expiration given given' long)
  have exact_sum : ∀ {span : Span} {u : Instant}, now.add? span = some u → u.nanos = now.nanos + span.nanos := by
    intro span u sum
    rcases now.add?_cases span with ⟨w, sum', exact⟩ | ⟨none, _⟩
    · cases sum.symm.trans sum'
      exact exact
    · cases sum.symm.trans none
  have at_v := exact_sum sum
  have at_x := exact_sum sum'
  have short : ¬expiration.nanos ≤ delay.nanos := short
  show v.nanos < x.nanos
  omega

/-- The message of an accepted draft can be claimed: when it becomes visible, or at once. -/
theorem ofDraft_claimable (kept : ¬d.Breaks c) : ∃ t, (ofDraft id d now).isClaimable t = true := by
  have lasts : ∀ x, d.expiration = some x → (d.delay.getD .zero).nanos < x.nanos := by
    intro x given
    cases delayed : d.delay with
    | none =>
      have positive : x.nanos ≠ 0 := fun zero => kept (.zeroExpiration x given zero)
      exact Nat.pos_of_ne_zero positive
    | some delay =>
      exact Nat.lt_of_not_le fun long => kept (.neverVisible delay x delayed given long)
  rcases now.add?_cases (d.delay.getD .zero) with ⟨v, _, exact⟩ | ⟨_, out⟩
  · refine ⟨v, (isClaimable_ofDraft id d ?_).mpr ⟨Or.inl (Int.le_of_eq exact.symm), fun x given => ?_⟩⟩
    · show now.nanos ≤ v.nanos
      omega
    · have := lasts x given
      omega
  · -- the delay leads past the last instant and is dropped
    refine ⟨now, (isClaimable_ofDraft id d (Int.le_refl _)).mpr ⟨Or.inr out, fun x given => ?_⟩⟩
    have := lasts x given
    omega

/-- A message that a backend which offers `c` may be sent. -/
structure Sendable (c : Capabilities) (m : Message) : Prop where
  /-- It asks for nothing that is not offered. -/
  offers : c.Offers m.visibleAt.isSome m.expiresAt.isSome m.priority m.route.isSome
  /-- It becomes visible before it expires. -/
  window : ∀ v x, m.visibleAt = some v → m.expiresAt = some x → v < x
  claimable : ∃ t, m.isClaimable t = true

theorem sendable_ofDraft (id : MessageId) (now : Instant) (kept : ¬d.Breaks c) : (ofDraft id d now).Sendable c :=
  ⟨ofDraft_offers kept, fun _ _ => ofDraft_window kept, ofDraft_claimable kept⟩

end Message

/-! ## What becomes of drafts -/

/-- What came of one draft: its result, and the messages sent for it. -/
inductive Landed (c : Capabilities) (readings : Nat → Instant) (d : Draft) :
    Except Error MessageId → List Message → Prop
  | rejected (f : DraftFault) : d.fault? c = some f → Landed c readings d (.error f.toError) []
  | accepted (id : MessageId) (k : Nat) : d.fault? c = none →
      Landed c readings d (.ok id) [.ofDraft id d (readings k)]

/-- What came of drafts, in their order. -/
inductive Handled (c : Capabilities) (readings : Nat → Instant) :
    List Draft → List (Except Error MessageId) → List Message → Prop
  | start : Handled c readings [] [] []
  | next {drafts : List Draft} {results : List (Except Error MessageId)} {sent sent' : List Message} {d : Draft}
      {result : Except Error MessageId} : Handled c readings drafts results sent →
      Landed c readings d result sent' → Handled c readings (drafts ++ [d]) (results ++ [result]) (sent ++ sent')

/-- The ids among results. -/
def sentIds (results : List (Except Error MessageId)) : List MessageId := results.filterMap (·.toOption)

namespace Handled

variable {c : Capabilities} {readings : Nat → Instant} {drafts : List Draft}
  {results : List (Except Error MessageId)} {sent : List Message}

theorem ids (handled : Handled c readings drafts results sent) : sent.map (·.id) = sentIds results := by
  unfold sentIds
  induction handled with
  | start => rfl
  | next _ landed ih =>
    rw [List.map_append, List.filterMap_append, ih]
    cases landed with
    | rejected f found => rfl
    | accepted id k passed => rfl

/-- Every draft has its result: it broke a rule, or its message was sent. -/
theorem answers (handled : Handled c readings drafts results sent) :
    List.Forall₂ (fun d result => ∃ sent', Landed c readings d result sent' ∧ sent' ⊆ sent) drafts results := by
  induction handled with
  | start => exact .nil
  | @next drafts results sent sent' d result _ landed ih =>
    refine List.rel_append (ih.imp fun d result => ?_) (.cons ⟨sent', landed, List.subset_append_right sent sent'⟩ .nil)
    rintro ⟨sent₁, landed₁, listed⟩
    exact ⟨sent₁, landed₁, List.subset_append_of_subset_left _ listed⟩

theorem sendable (handled : Handled c readings drafts results sent) : ∀ m ∈ sent, m.Sendable c := by
  induction handled with
  | start => exact fun m listed => nomatch listed
  | next _ landed ih =>
    refine List.forall_mem_append.mpr ⟨ih, fun m listed => ?_⟩
    cases landed with
    | rejected f found => cases listed
    | accepted id k passed =>
      cases List.mem_singleton.mp listed
      exact Message.sendable_ofDraft id (readings k) (Draft.not_breaks_of_none passed)

end Handled

/-! ## Messages with fresh ids -/

namespace Store

/-- The store after messages were sent to it, one after the other. -/
def enqueueAll (s : Store) (sent : List Message) : Store := sent.foldl enqueue s

/-- The entries that messages become, numbered from `n` on. -/
def numbered (n : Nat) (sent : List Message) : List Entry := (sent.zipIdx n).map fun x => ⟨x.1, x.2⟩

/-- Messages with ids that are not stored and differ from each other are stored, every one. -/
theorem enqueueAll_fresh {sent : List Message} (s : Store) (apart : (sent.map (·.id)).Nodup)
    (absent : ∀ id ∈ sent.map (·.id), s.contains id = false) :
    s.enqueueAll sent = { entries := s.entries ++ numbered s.nextSeq sent, nextSeq := s.nextSeq + sent.length } := by
  induction sent generalizing s with
  | nil => simp [enqueueAll, numbered]
  | cons m rest ih =>
    obtain ⟨alone, apart⟩ := List.nodup_cons.mp apart
    have stored : s.enqueue m = { entries := s.entries ++ [⟨m, s.nextSeq⟩], nextSeq := s.nextSeq + 1 } := by
      rw [enqueue, absent m.id List.mem_cons_self, if_neg Bool.false_ne_true]
    have absent' : ∀ id ∈ rest.map (·.id), (s.enqueue m).contains id = false := by
      intro id listed
      have ne : id ≠ m.id := by
        rintro rfl
        exact alone listed
      have before := absent id (List.mem_cons_of_mem _ listed)
      rw [contains_eq, get?_enqueue, if_neg ne, ← contains_eq, before]
    have rest_sent := ih (s.enqueue m) apart absent'
    rw [stored] at rest_sent
    rw [enqueueAll, List.foldl_cons, stored]
    refine rest_sent.trans ?_
    simp [numbered, List.zipIdx_cons, Nat.add_comm, Nat.add_left_comm]

theorem messages_numbered (n : Nat) (sent : List Message) : (numbered n sent).map (·.message) = sent := by
  rw [numbered, List.map_map]
  exact List.zipIdx_map_fst n sent

theorem seqs_numbered (n : Nat) (sent : List Message) : (numbered n sent).map (·.seq) = List.range' n sent.length := by
  rw [numbered, List.map_map]
  exact List.zipIdx_map_snd n sent

/-- A message sent with a fresh id is the one stored under it. -/
theorem get?_enqueueAll {sent : List Message} {m : Message} (s : Store) (apart : (sent.map (·.id)).Nodup)
    (absent : ∀ id ∈ sent.map (·.id), s.contains id = false) (listed : m ∈ sent) :
    (s.enqueueAll sent).get? m.id = some m := by
  have here : ({ entries := numbered s.nextSeq sent } : Store).messages = sent := messages_numbered s.nextSeq sent
  have found : ({ entries := numbered s.nextSeq sent } : Store).get? m.id = some m := by
    refine Distinct.get?_of_mem ?_ ?_
    · rw [Distinct, here]
      exact apart
    · rw [here]
      exact listed
  have before : s.get? m.id = none := by
    have alone := absent m.id (List.mem_map_of_mem listed)
    rwa [contains_eq, Option.isSome_eq_false_iff, Option.isNone_iff_eq_none] at alone
  rw [get?, here] at found
  rw [get?] at before ⊢
  rw [enqueueAll_fresh s apart absent, messages, List.map_append, List.find?_append, ← messages, before, Option.none_or,
    messages_numbered, found]

end Store

/-! ## The steps of a batch -/

/-- A site that serves every command in the first attempt, with a backend that offers `c`. -/
structure Site.Serves (c : Capabilities) (s : Site) : Prop extends s.Calm where
  policy : ∃ p, s.policies.get Policies.command = .ok p ∧ p.Calm
  offers : s.backend.capabilities = c

namespace Site.Serves

variable {c : Capabilities} {s : Site}

/-- What sets neither the backend nor the policies changes nothing here. -/
theorem set (serves : s.Serves c) (s' : Site) (backend : s'.backend = s.backend) (policies : s'.policies = s.policies) :
    s'.Serves c := by
  obtain ⟨⟨reached, faultless⟩, policy, offers⟩ := serves
  refine ⟨⟨?_, ?_⟩, ?_, ?_⟩
  · rw [backend]
    exact reached
  · rw [backend]
    exact faultless
  · rw [policies]
    exact policy
  · rw [backend]
    exact offers

/-- The first attempt to store a message is the last. -/
theorem stores (serves : s.Serves c) (m : Message) :
    ∃ s', Call.step (.enqueue m) false [] s .start = (.done (.ok m.id), s') ∧ s'.Serves c ∧
      s'.store = s.store.enqueue m := by
  obtain ⟨p, found, calm⟩ := serves.policy
  obtain ⟨throw, dice, thrown⟩ := s.throw_eq
  obtain ⟨reply, store, calm'⟩ := (serves.set { s with dice } rfl rfl).toCalm.serveAt s.now (.enqueue m)
  have named : Policies.nameFor (Request.enqueue m).operation = Policies.command := rfl
  have attempted : s.attempt p 0 s.now (.enqueue m) = ({ s with dice } : Site).serveAt s.now (.enqueue m) := by
    simp only [Site.attempt, thrown, Policy.attempt, calm 0 throw, Bool.false_eq_true, if_false]
  refine ⟨(({ s with dice } : Site).serveAt s.now (.enqueue m)).2, ?_, ⟨calm', ⟨p, found, calm⟩, ?_⟩, store⟩
  · simp only [Call.step, Call.start, named, found, attempted, reply]
    rfl
  · rw [← serves.offers]
    exact s.backend.serve_capabilities s.now (.enqueue m)

end Site.Serves

namespace Sending

/-- How far a draft is, sent to the store `S`. -/
def Stands (S : Store) (c : Capabilities) (readings : Nat → Instant) (d : Draft) : Sending → Site → Prop
  | .starting d', s => d' = d ∧ s.store = S
  | .storing m call, s => ∃ id k, d.fault? c = none ∧ m = .ofDraft id d (readings k) ∧
      (call = .start ∧ s.store = S ∨ call = .done (.ok id) ∧ s.store = S.enqueue m)
  | .done result, s => ∃ sent, Landed c readings d result sent ∧ s.store = S.enqueueAll sent

/-- The steps before the result is there. -/
def left : Sending → Nat
  | .starting _ => 3
  | .storing _ (.done _) => 1
  | .storing _ _ => 2
  | .done _ => 0

variable {S : Store} {c : Capabilities} {readings : Nat → Instant} {d : Draft} {sending : Sending} {s : Site}

/-- Only the store of the site matters. -/
theorem Stands.set (stands : Stands S c readings d sending s) (s' : Site) (store : s'.store = s.store) :
    Stands S c readings d sending s' := by
  cases sending <;> simpa only [Stands, store] using stands

theorem Stands.step {k : Nat} (stands : Stands S c readings d sending s) (serves : s.Serves c) (reads : s.now = readings k)
    (undone : sending.left ≠ 0) :
    Stands S c readings d (sending.step s).1 (sending.step s).2 ∧ (sending.step s).2.Serves c ∧
      (sending.step s).1.left < sending.left := by
  cases sending with
  | done result => exact absurd rfl undone
  | starting d' =>
    obtain ⟨rfl, store⟩ := stands
    cases fault : d'.fault? c with
    | some f =>
      have stepped : Sending.step s (.starting d') = (.done (.error f.toError), s.note (.rejected s.queue f.toError)) := by
        simp only [Sending.step, serves.offers, fault]
      rw [stepped]
      exact ⟨⟨[], .rejected f fault, store⟩, serves.set _ rfl rfl, Nat.succ_pos 2⟩
    | none =>
      obtain ⟨id, dice, drawn⟩ := s.freshId_eq
      have stepped : Sending.step s (.starting d') = (.storing (.ofDraft id d' (readings k)) .start, { s with dice }) := by
        rw [← reads]
        simp only [Sending.step, serves.offers, fault, drawn]
        rfl
      rw [stepped]
      exact ⟨⟨id, k, fault, rfl, Or.inl ⟨rfl, store⟩⟩, serves.set _ rfl rfl, Nat.lt_succ_self 2⟩
  | storing m call =>
    obtain ⟨id, k', passed, rfl, ⟨rfl, store⟩ | ⟨rfl, store⟩⟩ := stands
    · obtain ⟨s', called, serves', stored⟩ := serves.stores (.ofDraft id d (readings k'))
      have stepped : Sending.step s (.storing (.ofDraft id d (readings k')) .start) =
          (.storing (.ofDraft id d (readings k')) (.done (.ok id)), s') := by
        rw [Call.start] at called ⊢
        simp only [Sending.step, called]
        rfl
      rw [stepped]
      refine ⟨⟨id, k', passed, rfl, Or.inr ⟨rfl, ?_⟩⟩, serves', Nat.lt_succ_self 1⟩
      rw [stored, store]
    · exact ⟨⟨_, .accepted id k' passed, store⟩, serves.set _ rfl rfl, Nat.succ_pos 0⟩

end Sending

namespace Batch

/-- How far a batch is, sent to the store `S`. -/
def Stands (S : Store) (c : Capabilities) (readings : Nat → Instant) (drafts : List Draft) (b : Batch) (s : Site) : Prop :=
  ∃ past sent, Handled c readings past b.results.reverse sent ∧ match b.current with
    | none => drafts = past ∧ s.store = S.enqueueAll sent
    | some sending => ∃ d, drafts = past ++ d :: b.rest ∧ Sending.Stands (S.enqueueAll sent) c readings d sending s

/-- The steps before all results are there. -/
def left (b : Batch) : Nat :=
  match b.current with
  | none => 0
  | some sending => sending.left + 1 + 4 * b.rest.length

/-- The batch and its site after `n` steps; before step `i` the clock is set to `readings i`. -/
def after (readings : Nat → Instant) (b : Batch) (s : Site) : Nat → Batch × Site
  | 0 => (b, s)
  | n + 1 =>
    let (b, s) := after readings b s n
    b.step { s with clock := .manual (readings n) }

variable {S : Store} {c : Capabilities} {readings : Nat → Instant} {drafts past rest : List Draft}
  {results : List (Except Error MessageId)} {sent : List Message} {b : Batch} {s : Site}

/-- Only the store of the site matters. -/
theorem Stands.set (stands : Stands S c readings drafts b s) (s' : Site) (store : s'.store = s.store) :
    Stands S c readings drafts b s' := by
  obtain ⟨current, rest, results⟩ := b
  obtain ⟨past, sent, handled, stands⟩ := stands
  cases current with
  | none => exact ⟨past, sent, handled, stands.1, store.trans stands.2⟩
  | some sending =>
    obtain ⟨d, split, stands⟩ := stands
    exact ⟨past, sent, handled, d, split, stands.set s' store⟩

theorem stands_next (handled : Handled c readings past results.reverse sent) (split : drafts = past ++ rest)
    (store : s.store = S.enqueueAll sent) : Stands S c readings drafts (next rest results) s := by
  cases rest with
  | nil => exact ⟨past, sent, handled, split.trans (List.append_nil past), store⟩
  | cons d rest => exact ⟨past, sent, handled, d, split, rfl, store⟩

theorem left_next (drafts : List Draft) (results : List (Except Error MessageId)) :
    (next drafts results).left = 4 * drafts.length := by
  cases drafts with
  | nil => rfl
  | cons d rest =>
    show 3 + 1 + 4 * rest.length = 4 * (rest.length + 1)
    omega

theorem Stands.step {k : Nat} (stands : Stands S c readings drafts b s) (serves : s.Serves c) (reads : s.now = readings k) :
    Stands S c readings drafts (b.step s).1 (b.step s).2 ∧ (b.step s).2.Serves c ∧ (b.step s).1.left ≤ b.left - 1 := by
  obtain ⟨current, rest, results⟩ := b
  obtain ⟨past, sent, handled, stands⟩ := stands
  cases current with
  | none => exact ⟨⟨past, sent, handled, stands⟩, serves, Nat.zero_le _⟩
  | some sending =>
    obtain ⟨d, split, stands⟩ := stands
    by_cases undone : sending.left = 0
    · cases sending with
      | starting d' => cases undone
      | storing m call => cases call <;> cases undone
      | done result =>
        obtain ⟨sent', landed, store⟩ := stands
        have handled' := handled.next landed
        rw [← List.reverse_cons] at handled'
        have store' : s.store = S.enqueueAll (sent ++ sent') := by
          rw [store]
          exact List.foldl_append.symm
        refine ⟨stands_next handled' (by simpa using split) store', serves, ?_⟩
        show (next rest (result :: results)).left ≤ 0 + 1 + 4 * rest.length - 1
        rw [left_next]
        omega
    · obtain ⟨stands', serves', nearer⟩ := stands.step serves reads undone
      have stepped : step s ⟨some sending, rest, results⟩ =
          (⟨some (sending.step s).1, rest, results⟩, (sending.step s).2) := by
        cases sending with
        | done result => exact absurd rfl undone
        | _ => rfl
      rw [stepped]
      refine ⟨⟨past, sent, handled, d, split, stands'⟩, serves', ?_⟩
      simp only [left]
      omega

theorem after_stands (drafts : List Draft) (readings : Nat → Instant) (serves : s.Serves c) (n : Nat) :
    let x := after readings (start drafts) s n
    Stands s.store c readings drafts x.1 x.2 ∧ x.1.left ≤ 4 * drafts.length - n := by
  suffices kept : let x := after readings (start drafts) s n
      Stands s.store c readings drafts x.1 x.2 ∧ x.2.Serves c ∧ x.1.left ≤ 4 * drafts.length - n from ⟨kept.1, kept.2.2⟩
  induction n with
  | zero => exact ⟨stands_next .start rfl rfl, serves, Nat.le_of_eq (left_next drafts [])⟩
  | succ n ih =>
    obtain ⟨stands, serves, nearer⟩ := ih
    -- setting the clock changes neither the store nor what the site serves
    let set : Site := { (after readings (start drafts) s n).2 with clock := .manual (readings n) }
    have serves : set.Serves c := serves.set _ rfl rfl
    obtain ⟨stands', serves', step⟩ := (stands.set set rfl).step (k := n) serves rfl
    refine ⟨stands', serves', Nat.le_trans step ?_⟩
    omega

/-- After four steps for each draft all are handled. -/
theorem after_handled (drafts : List Draft) (readings : Nat → Instant) (serves : s.Serves c) {n : Nat}
    (enough : 4 * drafts.length ≤ n) :
    let x := after readings (start drafts) s n
    ∃ results sent, x.1.results? = some results ∧ Handled c readings drafts results sent ∧
      x.2.store = s.store.enqueueAll sent := by
  intro x
  obtain ⟨⟨past, sent, handled, stands⟩, few⟩ := after_stands drafts readings serves n
  cases current : x.1.current with
  | some sending =>
    have more : 0 < x.1.left := by
      simp only [left, current]
      omega
    have few : x.1.left ≤ 4 * drafts.length - n := few
    omega
  | none =>
    have split : drafts = past ∧ x.2.store = s.store.enqueueAll sent := by
      rw [show (after readings (start drafts) s n).1.current = none from current] at stands
      exact stands
    obtain ⟨rfl, store⟩ := split
    exact ⟨x.1.results.reverse, sent, by simp [results?, current], handled, store⟩

end Batch

/-! ## What a batch leaves -/

/-- The ids among the results are new to the store and differ from each other. -/
def Store.Fresh (s : Store) (results : List (Except Error MessageId)) : Prop :=
  (sentIds results).Nodup ∧ ∀ id ∈ sentIds results, s.contains id = false

/-- What a batch of drafts makes of the store `S`, with the entries `gained`. -/
structure Batch.Leaves (c : Capabilities) (readings : Nat → Instant) (drafts : List Draft) (S S' : Store)
    (results : List (Except Error MessageId)) (gained : List Entry) : Prop where
  /-- A draft that breaks a rule has an error for its result, any other the id under which its message is stored. -/
  answers : List.Forall₂ (fun d result =>
    d.Breaks c ∧ (∃ f : DraftFault, result = .error (.validation f.message)) ∨
      ¬d.Breaks c ∧ ∃ id k, result = .ok id ∧ S'.get? id = some (.ofDraft id d (readings k))) drafts results
  entries : S'.entries = S.entries ++ gained
  ids : gained.map (·.message.id) = sentIds results
  seqs : gained.map (·.seq) = List.range' S.nextSeq gained.length
  nextSeq : S'.nextSeq = S.nextSeq + gained.length
  sendable : ∀ e ∈ gained, e.message.Sendable c

theorem Handled.leaves {c : Capabilities} {readings : Nat → Instant} {drafts : List Draft}
    {results : List (Except Error MessageId)} {sent : List Message} {S : Store}
    (handled : Handled c readings drafts results sent) (fresh : S.Fresh results) :
    Batch.Leaves c readings drafts S (S.enqueueAll sent) results (Store.numbered S.nextSeq sent) := by
  obtain ⟨apart, absent⟩ := fresh
  rw [← handled.ids] at apart absent
  have stored := S.enqueueAll_fresh apart absent
  have size : (Store.numbered S.nextSeq sent).length = sent.length := by
    rw [Store.numbered, List.length_map, List.length_zipIdx]
  refine ⟨handled.answers.imp ?_, ?_, ?_, ?_, ?_, fun e listed => ?_⟩
  · rintro d result ⟨sent', landed, listed⟩
    cases landed with
    | rejected f found => exact Or.inl ⟨Draft.breaks_of_fault found, f, rfl⟩
    | accepted id k passed =>
      exact Or.inr ⟨Draft.not_breaks_of_none passed, id, k, rfl,
        S.get?_enqueueAll apart absent (listed List.mem_cons_self)⟩
  · rw [stored]
  · rw [← handled.ids, ← Store.messages_numbered S.nextSeq sent, List.map_map, Store.messages_numbered]
    rfl
  · rw [size]
    exact Store.seqs_numbered S.nextSeq sent
  · rw [stored, size]
  · refine handled.sendable e.message ?_
    rw [← Store.messages_numbered S.nextSeq sent]
    exact List.mem_map_of_mem listed

/-- On a site that serves every command in the first attempt, a batch is through after four steps for each draft, however
the clock is set before each step, and it has one result for each draft. If the ids that were drawn are fresh, a draft that
breaks a rule has an error for its result and leaves nothing, and any other has the id of its message, which is stored: the
store gains the messages of those drafts in their order and nothing else, numbered on from where it was. None asks for what
the backend does not offer, each becomes visible before it expires, and can be claimed at some instant. -/
theorem batch_exact (s : Site) (serves : s.Serves s.backend.capabilities) (drafts : List Draft) (readings : Nat → Instant)
    (n : Nat) (enough : 4 * drafts.length ≤ n) :
    let x := Batch.after readings (.start drafts) s n
    ∃ results, x.1.results? = some results ∧ results.length = drafts.length ∧
      (s.store.Fresh results →
        ∃ gained, Batch.Leaves s.backend.capabilities readings drafts s.store x.2.store results gained) := by
  intro x
  obtain ⟨results, sent, ended, handled, store⟩ := Batch.after_handled drafts readings serves enough
  refine ⟨results, ended, handled.answers.length_eq.symm, fun fresh =>
    ⟨Store.numbered s.store.nextSeq sent, ?_⟩⟩
  rw [show x.2.store = _ from store]
  exact handled.leaves fresh

/-! A backend without priorities, with one message already stored. -/

namespace Mixed

def stored : Message := .ofDraft .nil { type := "old", body := [] } .epoch

def site : Site where
  backend := { name := "jobs", capabilities := { priority := false }, store := Store.empty.enqueue stored }
  policies := Policies.empty.register Policies.command { name := Policies.command, retry := .ofWaits 0 .zero .zero }
  clock := .manual .epoch

/-- Drafts that break a rule between two that can be sent. -/
def drafts : List Draft :=
  [{ type := " ", body := [] },
   { type := "job", body := [] },
   { type := "job", body := [], expiration := some .zero },
   { type := "job", body := [], delay := some (.ofMillis 2000), expiration := some (.ofMillis 3000) },
   { type := "job", body := [], delay := some (.ofMillis 3000), expiration := some (.ofMillis 3000) },
   { type := "job", body := [], priority := 5 }]

/-- The clock goes on by a second with each step. -/
def readings (n : Nat) : Instant := (Instant.ofMillis? (1000 * n)).getD .epoch

theorem serves : site.Serves site.backend.capabilities where
  reached := rfl
  faultless _ _ mem := nomatch mem
  policy := ⟨_, rfl, Policy.calm_of_none rfl⟩
  offers := rfl

end Mixed

theorem batch_exact_mixed :
    ∃ results gained, (Batch.after Mixed.readings (.start Mixed.drafts) Mixed.site 24).1.results? = some results ∧
      Batch.Leaves Mixed.site.backend.capabilities Mixed.readings Mixed.drafts Mixed.site.store
        (Batch.after Mixed.readings (.start Mixed.drafts) Mixed.site 24).2.store results gained ∧
      results.map (·.isOk) = [false, true, false, true, false, false] ∧ gained.map (·.seq) = [1, 2] := by
  obtain ⟨results, ended, _, leaves⟩ :=
    batch_exact Mixed.site Mixed.serves Mixed.drafts Mixed.readings 24 (by decide)
  have seen : (Batch.after Mixed.readings (.start Mixed.drafts) Mixed.site 24).1.results?.all (fun results =>
      (sentIds results).Nodup && (sentIds results).all (!Mixed.site.store.contains ·) && (sentIds results).length == 2 &&
        results.map (·.isOk) == [false, true, false, true, false, false]) = true := by decide +kernel
  rw [ended, Option.all_some] at seen
  simp only [Bool.and_eq_true, decide_eq_true_eq, beq_iff_eq, List.all_eq_true, Bool.not_eq_true'] at seen
  obtain ⟨⟨⟨apart, absent⟩, count⟩, oks⟩ := seen
  obtain ⟨gained, left⟩ := leaves ⟨apart, absent⟩
  have two : gained.length = 2 := by
    rw [← count, ← left.ids, List.length_map]
  refine ⟨results, gained, ended, left, oks, ?_⟩
  rw [left.seqs, two]
  rfl

end ClaimQueue
