/-
  ClaimQueue.Proofs.Send.FrontEnds — sending in steps and sending in one go come to the same.

  A queue has two front ends. One makes its requests in steps that others may come between
  (`Sending`, `Batch`, `Call`), the other in one go, asleep in the waits (`Site.send`,
  `Site.sendAll`, `Site.ask`). Each draws ids of its own for what it sends. Compared are the
  steps of the one, left alone until they are through, with the other at a site that differs
  in the dice and in policies that are not asked for.

  With faults that hit before a request takes effect (`Backend.Gentle`), a draft is stored
  once if its result is an id, and not at all if it is an error. So what a batch leaves is told
  by its results (`Store.sent`): two batches with the same results but for the ids leave the
  same store but for the ids. Main statement: `front_ends_agree`.
-/

import ClaimQueue.Proofs.Site.Asking
import ClaimQueue.Send.Sending

namespace ClaimQueue

/-- No scripted fault lets a request take effect. -/
def Backend.Gentle (b : Backend) : Prop := ∀ operation fault, some fault ∈ b.faults operation → fault.landed = false

namespace Store

/-- The store after a draft was sent at `now`. -/
def stored (s : Store) (now : Instant) (draft : Draft) : Except Error MessageId → Store
  | .ok id => s.enqueue (.ofDraft id draft now)
  | .error _ => s

/-- The store after drafts were sent at `now`, each with its result. -/
def sent (s : Store) (now : Instant) (drafts : List Draft) (results : List (Except Error MessageId)) : Store :=
  (drafts.zip results).foldl (fun s sending => s.stored now sending.1 sending.2) s

end Store

/-- Results that differ in the ids at most. -/
def SameButIds (results results' : List (Except Error MessageId)) : Prop :=
  results'.map (·.map fun _ => ()) = results.map (·.map fun _ => ())

/-- Backends that were called as often, and are alike but for the stores `S` and `S'` in them. -/
structure Tally.Paired (S S' : Store) (a b : Tally) : Prop where
  store : a.backend.store = S
  twin : b.backend = { a.backend with store := S' }
  calls : b.calls = a.calls
  gentle : a.backend.Gentle

variable {S S' : Store} {now : Instant}

/-! ## One draft -/

theorem Backend.Gentle.spend {b : Backend} (gentle : b.Gentle) (operation : Operation) : (b.spend operation).Gentle := by
  intro o fault mem
  simp only [Backend.spend] at mem
  split at mem
  · exact gentle o fault (List.mem_of_mem_tail mem)
  · exact gentle o fault mem

/-- Two messages are stored by the same calls, if they are stored. -/
theorem Tally.enqueue_answers (m m' : Message) :
    Answers now (.enqueue m) (.enqueue m') (fun _ => m'.id) (Paired S S')
      (fun id a b => id = m.id ∧ Paired (S.enqueue m) (S'.enqueue m') a b) := by
  rintro ⟨b, calls⟩ ⟨b', calls'⟩ ⟨rfl, twin, same, gentle⟩
  obtain rfl : b' = { b with store := S' } := twin
  obtain rfl : calls' = calls := same
  have spent := gentle.spend .enqueue
  simp only [Tally.serve, Backend.serve, Request.operation]
  cases scripted : (b.faults .enqueue).head?.join with
  | some fault =>
    have listed : some fault ∈ b.faults .enqueue := List.mem_of_head? (Option.join_eq_some_iff.mp scripted)
    simp only [gentle _ _ listed, Bool.false_eq_true, if_false]
    exact ⟨rfl, rfl, rfl, rfl, spent⟩
  | none =>
    obtain ⟨name, capabilities, store, refusal, faults⟩ := b
    cases refusal with
    | some fault => exact ⟨rfl, rfl, rfl, rfl, spent⟩
    | none => exact ⟨rfl, rfl, rfl, rfl, rfl, spent⟩

/-- Two sites as the front ends find and leave them. -/
structure Site.Paired (now : Instant) (S S' : Store) (s t : Site) : Prop where
  twins : s.Twins Policies.command now t
  tallies : Tally.Paired S S' s.tally t.tally

namespace Site

variable {s t : Site} {draft : Draft}

theorem freshId_eq (s : Site) : ∃ id dice, s.freshId = (id, { s with dice }) := by
  unfold freshId
  generalize s.dice.wide = drawn
  exact ⟨_, drawn.2, rfl⟩

theorem send_rejected {fault : DraftFault} (rejected : draft.fault? t.backend.capabilities = some fault) :
    t.send draft = (.error fault.toError, t.note (.rejected t.queue fault.toError)) := by
  simp only [send, rejected]

theorem send_accepted {id : MessageId} {dice : Dice} (accepted : draft.fault? t.backend.capabilities = none)
    (fresh : t.freshId = (id, { t with dice })) : ∃ event,
      t.send draft = ((({ t with dice } : Site).ask t.now (.enqueue (.ofDraft id draft t.now))).1,
        (({ t with dice } : Site).ask t.now (.enqueue (.ofDraft id draft t.now))).2.note event) := by
  have present : ({ t with dice } : Site).now = t.now := rfl
  rw [send, accepted]
  dsimp only
  rw [fresh]
  dsimp only
  rw [present]
  generalize ({ t with dice } : Site).ask t.now (.enqueue (.ofDraft id draft t.now)) = asked
  obtain ⟨result | id, s⟩ := asked
  · exact ⟨_, rfl⟩
  · exact ⟨_, rfl⟩

namespace Paired

theorem note (paired : Paired now S S' s t) (event event' : Event) :
    Paired now S S' (s.note event) (t.note event') :=
  ⟨⟨paired.twins.clock, paired.twins.clock', paired.twins.policy, paired.twins.sure⟩, paired.tallies⟩

theorem waits (paired : Paired now S S' s t) (time : Nat) : Paired now S S' { s with time } t :=
  ⟨⟨paired.twins.clock, paired.twins.clock', paired.twins.policy, paired.twins.sure⟩, paired.tallies⟩

theorem now_eq (paired : Paired now S S' s t) : s.now = now ∧ t.now = now := by
  rw [Site.now, Site.now, paired.twins.clock, paired.twins.clock']
  exact ⟨rfl, rfl⟩

theorem capabilities (paired : Paired now S S' s t) : t.backend.capabilities = s.backend.capabilities := by
  have twin : t.backend = { s.backend with store := S' } := paired.tallies.twin
  rw [twin]

end Paired

end Site

namespace Sending

/-- A draft is on its way to what `t` comes to when it sends it in one go. -/
def Heads (now : Instant) (S S' : Store) (t : Site) (draft : Draft) : Sending → Site → Prop
  | .starting d, s => d = draft ∧ s.Paired now S S' t
  | .storing m call, s => ∃ id id' dice, m = .ofDraft id draft now ∧
      draft.fault? t.backend.capabilities = none ∧ t.freshId = (id', { t with dice }) ∧
      Call.Heads now (.enqueue m) (.enqueue (.ofDraft id' draft now)) (fun _ => id') (Tally.Paired S S')
        (fun id a b => id = m.id ∧ Tally.Paired (S.enqueue m) (S'.enqueue (.ofDraft id' draft now)) a b)
        { t with dice } call s
  | .done result, s => (t.send draft).1.map (fun _ => ()) = result.map (fun _ => ()) ∧
      s.Paired now (S.stored now draft result) (S'.stored now draft (t.send draft).1) (t.send draft).2

variable {s t : Site} {draft : Draft} {sending : Sending}

theorem Heads.waits (heads : Heads now S S' t draft sending s) (time : Nat) :
    Heads now S S' t draft sending { s with time } := by
  cases sending with
  | starting d => exact ⟨heads.1, heads.2.waits time⟩
  | storing m call =>
    obtain ⟨id, id', dice, draws, accepted, fresh, asks⟩ := heads
    exact ⟨id, id', dice, draws, accepted, fresh, asks.waits time⟩
  | done result => exact ⟨heads.1, heads.2.waits time⟩

/-- When the call is done, so is the sending in one go. -/
theorem Heads.stored {m : Message} {result : Except Error MessageId} {event : Event}
    (heads : Heads now S S' t draft (.storing m (.done result)) s) :
    Heads now S S' t draft (.done result) (s.note event) := by
  obtain ⟨id, id', dice, rfl, accepted, fresh, asks⟩ := heads
  have present : t.now = now := by
    have clock := asks.twins.clock'
    rw [Site.now, show t.clock = .manual now from clock]
    rfl
  obtain ⟨event', sent⟩ := Site.send_accepted accepted fresh
  obtain ⟨answer, lands, twins⟩ := asks.ask rfl
  rw [present] at sent
  rw [Heads, sent]
  dsimp only
  rw [answer]
  cases result with
  | ok id'' =>
    obtain ⟨rfl, tallies⟩ := lands
    exact ⟨rfl, Site.Paired.note ⟨twins, tallies⟩ event event'⟩
  | error e => exact ⟨rfl, Site.Paired.note ⟨twins, lands⟩ event event'⟩

theorem Heads.step (heads : Heads now S S' t draft sending s) :
    Heads now S S' t draft (sending.step s).1 (sending.step s).2 := by
  cases sending with
  | done result => exact heads
  | starting d =>
    obtain ⟨rfl, paired⟩ := heads
    have capabilities := paired.capabilities
    cases fault : d.fault? s.backend.capabilities with
    | some fault =>
      simp only [Sending.step, fault]
      rw [← capabilities] at fault
      rw [Heads, Site.send_rejected fault]
      exact ⟨rfl, paired.note _ _⟩
    | none =>
      obtain ⟨id, dice, drawn⟩ := s.freshId_eq
      obtain ⟨id', dice', drawn'⟩ := t.freshId_eq
      have present : ({ s with dice } : Site).now = now := paired.now_eq.1
      simp only [Sending.step, fault, drawn, present]
      refine ⟨id, id', dice', rfl, capabilities ▸ fault, drawn', .start ?_ paired.tallies⟩
      exact ⟨paired.twins.clock, paired.twins.clock', paired.twins.policy, paired.twins.sure⟩
  | storing m call =>
    cases call with
    | done result =>
      cases result with
      | ok id => exact heads.stored
      | error e => exact heads.stored
    | _ =>
      obtain ⟨id, id', dice, draws, accepted, fresh, asks⟩ := heads
      exact ⟨id, id', dice, draws, accepted, fresh, asks.step (Tally.enqueue_answers m _) []⟩

end Sending

/-! ## Drafts one after the other -/

theorem Store.sent_append (s : Store) {past : List Draft} {results : List (Except Error MessageId)}
    (paired : results.length = past.length) (draft : Draft) (result : Except Error MessageId) :
    s.sent now (past ++ [draft]) (results ++ [result]) = (s.sent now past results).stored now draft result := by
  unfold Store.sent
  rw [List.zip_append paired.symm, List.foldl_append]
  rfl

namespace Batch

variable {s t t₁ : Site} {drafts past rest : List Draft} {results results' : List (Except Error MessageId)}

/-- The drafts in `past` have been sent, those in `rest` have not; in one go the site then is `t₁`. -/
structure Reached (t : Site) (drafts past rest : List Draft) (results results' : List (Except Error MessageId))
    (t₁ : Site) : Prop where
  split : drafts = past ++ rest
  sent : t.sendAll drafts = (results' ++ (t₁.sendAll rest).1, (t₁.sendAll rest).2)
  length : results.length = past.length
  same : SameButIds results results'

/-- A batch is on its way to what `t` comes to when it sends the drafts in one go. -/
def Heads (now : Instant) (S S' : Store) (t : Site) (drafts : List Draft) (b : Batch) (s : Site) : Prop :=
  ∃ past results' t₁, match b.current with
    | none => Reached t drafts past [] b.results.reverse results' t₁ ∧
        s.Paired now (S.sent now past b.results.reverse) (S'.sent now past results') t₁
    | some sending => ∃ draft, Reached t drafts past (draft :: b.rest) b.results.reverse results' t₁ ∧
        Sending.Heads now (S.sent now past b.results.reverse) (S'.sent now past results') t₁ draft sending s

theorem SameButIds.length (same : SameButIds results results') : results'.length = results.length := by
  have := congrArg List.length same
  simpa using this

theorem heads_next (reached : Reached t drafts past rest results.reverse results' t₁)
    (paired : s.Paired now (S.sent now past results.reverse) (S'.sent now past results') t₁) :
    Heads now S S' t drafts (next rest results) s := by
  cases rest with
  | nil => exact ⟨past, results', t₁, reached, paired⟩
  | cons draft rest => exact ⟨past, results', t₁, draft, reached, rfl, paired⟩

theorem Heads.start (paired : s.Paired now S S' t) : Heads now S S' t drafts (start drafts) s := by
  have reached : Reached t drafts [] drafts [] [] t := ⟨rfl, rfl, rfl, rfl⟩
  exact heads_next reached paired

theorem Heads.waits {b : Batch} (heads : Heads now S S' t drafts b s) (time : Nat) :
    Heads now S S' t drafts b { s with time } := by
  obtain ⟨past, results', t₁, heads⟩ := heads
  refine ⟨past, results', t₁, ?_⟩
  cases current : b.current with
  | none =>
    rw [current] at heads
    exact ⟨heads.1, heads.2.waits time⟩
  | some sending =>
    rw [current] at heads
    obtain ⟨draft, reached, heads⟩ := heads
    exact ⟨draft, reached, heads.waits time⟩

/-- A draft that is through is the last of the past. -/
theorem Reached.sends {draft : Draft} {result : Except Error MessageId}
    (reached : Reached t drafts past (draft :: rest) results results' t₁)
    (same : (t₁.send draft).1.map (fun _ => ()) = result.map fun _ => ()) :
    Reached t drafts (past ++ [draft]) rest (results ++ [result]) (results' ++ [(t₁.send draft).1])
      (t₁.send draft).2 := by
  obtain ⟨split, sent, length, same'⟩ := reached
  refine ⟨by simpa using split, ?_, by simp [length], ?_⟩
  · rw [sent]
    simp only [Site.sendAll, List.append_assoc, List.singleton_append]
  · unfold SameButIds at same' ⊢
    simp only [List.map_append, same', List.map_cons, same, List.map_nil]

theorem Heads.step {b : Batch} (heads : Heads now S S' t drafts b s) :
    Heads now S S' t drafts (b.step s).1 (b.step s).2 := by
  obtain ⟨current, rest, results⟩ := b
  obtain ⟨past, results', t₁, heads⟩ := heads
  cases current with
  | none => exact ⟨past, results', t₁, heads⟩
  | some sending =>
    obtain ⟨draft, reached, heads⟩ := heads
    cases sending with
    | done result =>
      obtain ⟨same, paired⟩ := heads
      have lengths : results'.length = past.length := (SameButIds.length reached.same).trans reached.length
      rw [← Store.sent_append S reached.length, ← Store.sent_append S' lengths, ← List.reverse_cons] at paired
      have reached := reached.sends same
      rw [← List.reverse_cons] at reached
      exact heads_next reached paired
    | starting d => exact ⟨past, results', t₁, draft, reached, heads.step⟩
    | storing m call => exact ⟨past, results', t₁, draft, reached, heads.step⟩

end Batch

/-! ## Sending ends -/

open Site (Alone Ends)

namespace Sending

def isDone (sending : Sending) : Bool := sending.result?.isSome

theorem ends_storing (m : Message) (call : Call MessageId) (s : Site) :
    Ends step (·.isDone = true) (.storing m call) s := by
  let r : Request := .enqueue m
  refine Ends.call (r := r) (storing m) ?_ ?_ call s
  · intro call s undone
    cases call with
    | done result => cases undone
    | attempting n => exact ⟨[], rfl⟩
    | waiting n e wake => exact ⟨[], rfl⟩
  · intro result s
    refine .step_ends (.now ?_)
    cases result with
    | ok id => rfl
    | error e => rfl

theorem ends (draft : Draft) (s : Site) : Ends step (·.isDone = true) (.starting draft) s := by
  refine .step_ends ?_
  cases fault : draft.fault? s.backend.capabilities with
  | some fault =>
    simp only [step, fault]
    exact .now rfl
  | none =>
    simp only [step, fault]
    exact ends_storing _ .start _

end Sending

namespace Batch

def isDone (b : Batch) : Bool := b.results?.isSome

theorem ends_storing (m : Message) (rest : List Draft) (results : List (Except Error MessageId))
    (later : ∀ results s, Ends step (·.isDone = true) (next rest results) s) (call : Call MessageId) (s : Site) :
    Ends step (·.isDone = true) ⟨some (.storing m call), rest, results⟩ s := by
  let r : Request := .enqueue m
  let within (call : Call MessageId) : Batch := ⟨some (.storing m call), rest, results⟩
  refine Ends.call (r := r) within ?_ ?_ call s
  · intro call s undone
    cases call with
    | done result => cases undone
    | attempting n => exact ⟨[], rfl⟩
    | waiting n e wake => exact ⟨[], rfl⟩
  · intro result s
    cases result with
    | ok id => exact .step_ends (.step_ends (later _ _))
    | error e => exact .step_ends (.step_ends (later _ _))

theorem ends_next (drafts : List Draft) (results : List (Except Error MessageId)) (s : Site) :
    Ends step (·.isDone = true) (next drafts results) s := by
  induction drafts generalizing results s with
  | nil => exact .now rfl
  | cons draft rest ih =>
    refine .step_ends ?_
    cases fault : draft.fault? s.backend.capabilities with
    | some fault =>
      simp only [step, next, Sending.step, fault]
      exact .step_ends (ih _ _)
    | none =>
      simp only [step, next, Sending.step, fault]
      exact ends_storing _ rest results ih .start _

end Batch

/-! ## Both front ends -/

/-- What two ways to send the same drafts come to, from a backend with the store `S`: results that differ in the ids
at most, as many calls, and what the results tell in the store, all else alike. -/
structure SentAlike (S : Store) (now : Instant) (drafts : List Draft) (results results' : List (Except Error MessageId))
    (s' t' : Site) : Prop where
  same : SameButIds results results'
  calls : t'.calls = s'.calls
  stored : s'.backend.store = S.sent now drafts results
  stored' : t'.backend.store = S.sent now drafts results'
  backend : t'.backend = { s'.backend with store := t'.backend.store }

theorem Site.Paired.alike {S : Store} {drafts : List Draft} {results results' : List (Except Error MessageId)}
    {s' t' : Site} (same : SameButIds results results')
    (paired : s'.Paired now (S.sent now drafts results) (S.sent now drafts results') t') :
    SentAlike S now drafts results results' s' t' := by
  obtain ⟨_, ⟨store, twin, calls, _⟩⟩ := paired
  have twin : t'.backend = { s'.backend with store := S.sent now drafts results' } := twin
  exact ⟨same, calls, store, by rw [twin], by rw [twin]⟩

/-- A batch that is through has come to what it was on its way to. -/
theorem Batch.Heads.alike {S : Store} {t s' : Site} {drafts : List Draft} {b : Batch}
    {results : List (Except Error MessageId)} (heads : Batch.Heads now S S t drafts b s') (ended : b.results? = some results) :
    SentAlike S now drafts results (t.sendAll drafts).1 s' (t.sendAll drafts).2 := by
  obtain ⟨past, results', t₁, heads⟩ := heads
  cases current : b.current with
  | some sending =>
    rw [Batch.results?, current] at ended
    cases ended
  | none =>
    rw [Batch.results?, current] at ended
    cases ended
    rw [current] at heads
    obtain ⟨⟨split, sent, _, same⟩, paired⟩ := heads
    rw [List.append_nil] at split
    subst split
    rw [sent]
    exact Site.Paired.alike (by simpa [Site.sendAll] using same) (by simpa [Site.sendAll] using paired)

/-- The front end that makes steps ends, and if nobody else makes any, it comes to the same as the one that sleeps in
the waits: in sending a draft, in sending a batch, and in every single request, which needs the policy of its key and
no other. -/
theorem front_ends_agree (s : Site) (now : Instant) (policies : Policies) (dice : Dice) :
    let t : Site := { s with policies, dice }
    (s.Twins Policies.command now t → s.backend.Gentle →
      (∀ draft result s', Alone Sending.step (.starting draft) s (.done result) s' →
        SentAlike s.backend.store now [draft] [result] [(t.send draft).1] s' (t.send draft).2) ∧
      ∀ drafts b results s', Alone Batch.step (.start drafts) s b s' → b.results? = some results →
        SentAlike s.backend.store now drafts results (t.sendAll drafts).1 s' (t.sendAll drafts).2) ∧
    (∀ (r : Request), s.Twins r.key now t → ∀ scopes result s',
      Alone (Call.step r false scopes) .start s (.done result) s' →
        (t.ask now r).1 = result ∧ (t.ask now r).2.backend = s'.backend ∧ (t.ask now r).2.calls = s'.calls ∧
        (s.policies.byName.get? r.key = none →
          result = .error (.config ("no policy registered for " ++ r.key)) ∧ s'.calls = s.calls)) ∧
    (∀ draft, Ends Sending.step (·.isDone = true) (.starting draft) s) ∧
    (∀ drafts, Ends Batch.step (·.isDone = true) (.start drafts) s) ∧
    ∀ (r : Request) scopes, Ends (Call.step r false scopes) (·.result?.isSome = true) .start s := by
  intro t
  refine ⟨fun twins gentle => ?_, fun r twins scopes result s' alone => ?_, fun draft => Sending.ends draft s,
    fun drafts => Batch.ends_next drafts [] s, fun r scopes => ?_⟩
  · have paired : s.Paired now s.backend.store s.backend.store t := ⟨twins, rfl, rfl, rfl, gentle⟩
    constructor
    · intro draft result s' alone
      have heads := alone.keeps (P := Sending.Heads now s.backend.store s.backend.store t draft)
        (fun _ _ heads => heads.step) (fun _ _ time _ heads => heads.waits time) ⟨rfl, paired⟩
      exact Site.Paired.alike (congrArg ([·]) heads.1) heads.2
    · intro drafts b results s' alone ended
      have heads := alone.keeps (P := Batch.Heads now s.backend.store s.backend.store t drafts)
        (fun _ _ heads => heads.step) (fun _ _ time _ heads => heads.waits time) (.start paired)
      exact Batch.Heads.alike heads ended
  · obtain ⟨answer, tally⟩ := Call.same_ask (t := t) twins rfl alone
    refine ⟨answer, congrArg Tally.backend tally, congrArg Tally.calls tally, fun missing => ?_⟩
    have refused : t.policies.get (Policies.nameFor r.operation) =
        .error (.config ("no policy registered for " ++ r.key)) := by
      rw [r.key_eq, twins.policy, Policies.get, missing]
    have asked : t.ask now r = (.error (.config ("no policy registered for " ++ r.key)), t) := by
      simp only [Site.ask, refused]
    rw [asked] at answer tally
    exact ⟨answer.symm, (congrArg Tally.calls tally).symm⟩
  · exact Ends.call (r := r) id (fun call s _ => ⟨scopes, rfl⟩) (fun result s => .now rfl) .start s

/-! A backend that is busy for one call, commands that are tried twice, and no policy for queries. -/

namespace Flaky

def policy : Policy := { name := Policies.command, retry := .ofWaits 1 (.ofMillis 10) (.ofMillis 20) }

def site : Site where
  backend := { name := "jobs", faults := fun o => if o = .enqueue then [some { error := .transient "busy" }] else [] }
  policies := Policies.empty.register Policies.command policy
  clock := .manual .epoch

/-- A draft without a type, and one that can be sent. -/
def drafts : List Draft := [{ type := "", body := [] }, { type := "job", body := [] }]

theorem twins (r : Request) : site.Twins r.key .epoch { site with dice := ⟨7⟩ } := by
  refine ⟨rfl, rfl, rfl, fun p found => ?_⟩
  have sure : policy.Sure := Policy.sure_of_none rfl
  cases r <;> first | (cases found; exact sure) | cases found

theorem gentle : site.backend.Gentle := by
  intro o fault mem
  simp only [site] at mem
  split at mem
  · cases List.mem_singleton.mp mem
    rfl
  · cases mem

end Flaky

theorem front_ends_agree_flaky :
    (∃ b results s', Alone Batch.step (.start Flaky.drafts) Flaky.site b s' ∧ b.results? = some results ∧
      results.map (·.isOk) = [false, true] ∧ s'.calls = 2) ∧
    ∃ s', Alone (Call.step (.get .nil) false []) .start Flaky.site
      (.done (.error (.config "no policy registered for query-retry"))) s' ∧ s'.calls = 0 := by
  obtain ⟨sends, asks, _, batches, calls⟩ := front_ends_agree Flaky.site .epoch Flaky.site.policies ⟨7⟩
  constructor
  · obtain ⟨b, s', alone, done⟩ := batches Flaky.drafts
    obtain ⟨results, ended⟩ := Option.isSome_iff_exists.mp done
    obtain ⟨same, count, _, _, _⟩ :=
      (sends (Flaky.twins (.delete .nil)) Flaky.gentle).2 Flaky.drafts b results s' alone ended
    have oks : ∀ l : List (Except Error MessageId), (l.map (·.map fun _ => ())).map (·.isOk) = l.map (·.isOk) := by
      intro l
      rw [List.map_map]
      exact List.map_congr_left fun result _ => by cases result <;> rfl
    have sent : (({ Flaky.site with dice := ⟨7⟩ } : Site).sendAll Flaky.drafts).1.map (·.isOk) = [false, true] := by
      decide +kernel
    have called : (({ Flaky.site with dice := ⟨7⟩ } : Site).sendAll Flaky.drafts).2.calls = 2 := by decide +kernel
    have shape := congrArg (List.map (·.isOk)) same
    rw [oks, oks] at shape
    exact ⟨b, results, s', alone, ended, shape.symm.trans sent, count.symm.trans called⟩
  · obtain ⟨call, s', alone, done⟩ := calls (.get .nil) []
    cases call with
    | done result =>
      obtain ⟨_, _, _, refused⟩ := asks (.get .nil) (Flaky.twins (.get .nil)) [] result s' alone
      obtain ⟨rfl, count⟩ := refused rfl
      exact ⟨s', alone, count⟩
    | _ => cases done

end ClaimQueue
