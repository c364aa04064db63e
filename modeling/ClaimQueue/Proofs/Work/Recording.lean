/-
  ClaimQueue.Proofs.Work.Recording — what is left of a message when its worker is done with it.

  A worker works on a message from the opening of its claim to its next look at the queue, and
  others may ask the store for anything in between, before and after any of its steps (`Works`).
  Of its own steps only the record and the purge touch the store (`Course`). The record finds the
  message `Working` at the version it was handed out with, and then leaves what the outcome comes
  to (`Ends`), or it comes too late and leaves everything alone; the purge deletes what ended.
  At each point the worker gets through if it is left alone (`Course.getsThrough`).

  Main statement: `outcome_recorded`. The worker decides by the failures of the message it was
  handed; while that stays in the store, and no version is the last one, they are those of the
  stored message (`Store.unchanged_run`).
-/

import ClaimQueue.Proofs.Store.Lifecycle
import ClaimQueue.Proofs.Work.Charges
import ClaimQueue.Proofs.Work.Finishing

namespace ClaimQueue

namespace Store

variable {s : Store} {id : MessageId} {m m₀ : Message}

/-! ## One message replaced -/

/-- The store with `m` in place of the message under its id. -/
def put (s : Store) (m : Message) : Store := s.modify (·.id == m.id) fun _ => m

theorem modify_put (distinct : s.Distinct) (stored : s.get? id = some m) {f : Message → Message}
    (kept : (f m).id = m.id) : s.modify (·.id == id) f = s.put (f m) := by
  have same := get?_id stored
  unfold put modify
  congr 1
  refine List.map_congr_left fun e mem => ?_
  rw [kept, same]
  split
  · rename_i here
    rw [distinct.eq_of_id (List.mem_map_of_mem mem) stored (beq_iff_eq.mp here)]
  · rfl

/-! ## One message over a run -/

/-- Does the message stay in the store, with room for another version? -/
def Stays (id : MessageId) (s : Store) (rs : List Asked) : Prop :=
  ∀ t ∈ s.history rs, t.after.contains id = true ∧
    ∀ m, t.before.get? id = some m → m.version.toNat + 1 < 2 ^ 64

/-- A message that stays is the same but for its heartbeat, or of a later version. -/
theorem stays_run (distinct : s.Distinct) (stored : s.get? id = some m) {rs : List Asked} (stays : s.Stays id rs) :
    ∃ m', (s.run rs).get? id = some m' ∧
      ((∃ beat, m' = { m with heartbeatAt := beat }) ∨ m.version.toNat < m'.version.toNat) := by
  induction rs generalizing s m with
  | nil => exact ⟨m, stored, Or.inl ⟨m.heartbeatAt, rfl⟩⟩
  | cons r rs ih =>
    let t : Served := ⟨r.1, r.2, s⟩
    obtain ⟨there, room⟩ := stays t List.mem_cons_self
    rw [contains_eq] at there
    obtain ⟨m₁, after⟩ := Option.isSome_iff_exists.mp there
    have f : t.Fate m (some m₁) := after ▸ Served.fate (t := t) distinct stored
    have rest : (s.after (some r)).Stays id rs := fun u mem => stays u (List.mem_cons_of_mem _ mem)
    obtain ⟨m', last, later⟩ := ih (distinct_serve distinct r.1 r.2) after rest
    refine ⟨m', last, ?_⟩
    rcases f.step with rfl | ⟨_, rfl⟩ | ⟨_, next⟩
    · exact later
    · exact later
    · -- the version moved on, and does not come back
      have raised : m₁.version.toNat = m.version.toNat + 1 := by
        rw [next]
        exact toNat_add_one (room m stored)
      have older : m.version.toNat < m₁.version.toNat := by omega
      refine Or.inr (Nat.lt_of_lt_of_le older ?_)
      rcases later with ⟨beat, rfl⟩ | later
      · exact Nat.le_refl _
      · exact Nat.le_of_lt later

/-- What is still at its version is the same but for its heartbeat. -/
theorem unchanged_run (distinct : s.Distinct) (stored : s.get? id = some m) {rs : List Asked} (stays : s.Stays id rs)
    (found : (s.run rs).get? id = some m₀) (version : m₀.version = m.version) :
    ∃ beat, m₀ = { m with heartbeatAt := beat } := by
  obtain ⟨m', found', same | later⟩ := stays_run distinct stored stays
  · obtain rfl : m₀ = m' := Option.some.inj (found.symm.trans found')
    exact same
  · obtain rfl : m₀ = m' := Option.some.inj (found.symm.trans found')
    rw [version] at later
    exact absurd later (Nat.lt_irrefl _)

end Store

/-! ## What an outcome comes to -/

/-- Does the failure of a handler send its message back, not to be claimed before `delay` has passed? -/
def QueueConfig.retries (config : QueueConfig) (rollback : Bool) (m : Message) (f : HandlerFault) (delay : Span) :
    Prop :=
  config.errorPolicy = .requeue ∧ rollback = true ∧
    config.retryDelays.step? f.kind (m.failuresOf f.kind).toNat = some delay

/-- What the outcome of `m` makes of `m₀`, the message as it is stored; the worker decides at `decided`, and the store
makes the change at `now`. -/
inductive Ends (config : QueueConfig) (rollback : Bool) (m : Message) (decided now : Instant) (m₀ : Message) :
    Outcome → Message → Prop
  | complete : Ends config rollback m decided now m₀ (.ok ())
      { m₀ with status := .complete, version := m₀.version + 1, updatedAt := now }
  /-- A cancelled handler gives its claim back, and nothing failed. -/
  | released (f : HandlerFault) : f.cancelled = true → rollback = true →
      Ends config rollback m decided now m₀ (.error f)
        { m₀ with
          status := .pending, owner := none, heartbeatAt := none, visibleAt := none
          version := m₀.version + 1, updatedAt := now }
  | requeued (f : HandlerFault) (delay : Span) : f.cancelled = false → config.retries rollback m f delay →
      Ends config rollback m decided now m₀ (.error f)
        { m₀ with
          status := .pending, owner := none, heartbeatAt := none
          visibleAt := if delay.isZero then none else decided.add? delay
          lastError := some (f.kind ++ ": " ++ f.message)
          failures := m₀.failures.insert f.kind (m₀.failuresOf f.kind + 1)
          version := m₀.version + 1, updatedAt := now }
  | failed (f : HandlerFault) : f.cancelled = false → (∀ delay, ¬config.retries rollback m f delay) →
      Ends config rollback m decided now m₀ (.error f)
        { m₀ with
          status := .error
          lastError := some (f.kind ++ ": " ++ f.message)
          failures := m₀.failures.insert f.kind (m₀.failuresOf f.kind + 1)
          version := m₀.version + 1, updatedAt := now }

namespace Ends

variable {config : QueueConfig} {rollback : Bool} {m m₀ m₁ : Message} {decided now : Instant} {outcome : Outcome}

/-- The failure that the outcome is counts once more, and no other. -/
theorem counts (ends : Ends config rollback m decided now m₀ outcome m₁)
    (few : ∀ kind, (m₀.failuresOf kind).toNat + 1 < 2 ^ 32) (kind : String) :
    (m₁.failuresOf kind).toNat = (m₀.failuresOf kind).toNat + if outcome.failure? = some kind then 1 else 0 := by
  -- a change that counts a failure of `k`
  have more : ∀ {m' : Message} {k : String}, m'.failures = m₀.failures.insert k (m₀.failuresOf k + 1) →
      (m'.failuresOf kind).toNat = (m₀.failuresOf kind).toNat + if some k = some kind then 1 else 0 := by
    intro m' k counted
    by_cases same : k = kind
    · subst same
      rw [Message.failuresOf, counted, Table.get?_insert, if_pos rfl, if_pos rfl]
      exact toNat_succ (few k)
    · rw [Message.failuresOf, counted, Table.get?_insert, if_neg (Ne.symm same), if_neg (by simpa using same)]
      rfl
  cases ends with
  | complete => rfl
  | released f cancelled =>
    have none : Outcome.failure? (.error f) = none := if_pos cancelled
    rw [none]
    rfl
  | requeued f delay failed | failed f failed =>
    have some : Outcome.failure? (.error f) = some f.kind := if_neg (by simp [failed])
    rw [some]
    exact more rfl

/-- The change that a worker decides on makes of the stored message what the outcome comes to. -/
theorem of_change {change : Change} (few : ∀ kind, (m.failuresOf kind).toNat + 1 < 2 ^ 32)
    (chosen : Worker.outcomeChange config rollback decided m outcome = some change) (m₀ : Message) (now : Instant) :
    Ends config rollback m decided now m₀ outcome (change.apply m₀ now) := by
  cases outcome with
  | ok done =>
    cases chosen
    exact .complete
  | error f =>
    simp only [Worker.outcomeChange] at chosen
    split at chosen
    · rename_i cancelled
      split at chosen
      · cases chosen
        exact .released f cancelled ‹_›
      · cases chosen
    · rename_i failed
      have failed : f.cancelled = false := by simpa using failed
      cases chosen
      rcases Worker.failureChange_cases config rollback decided m f (few f.kind) with
        ⟨delay, goesOn, found, change⟩ | ⟨gives, change⟩
      · obtain ⟨requeue, able⟩ : config.errorPolicy = .requeue ∧ rollback = true := by
          unfold QueueConfig.givesUp at goesOn
          cases policy : config.errorPolicy <;> simp_all
        rw [change]
        exact .requeued f delay failed ⟨requeue, able, found⟩
      · rw [change]
        refine .failed f failed ?_
        rintro delay ⟨requeue, able, found⟩
        rcases gives with terminal | unable | none
        · cases requeue.symm.trans terminal
        · cases able.symm.trans unable
        · cases found.symm.trans none

end Ends

/-- Of the steps that the worker makes at `times` after its handler returned, the second decides, and a later one has
the store make the change. -/
def Timed (times : List Instant) (decided now : Instant) : Prop :=
  times[1]? = some decided ∧ now ∈ times.drop 2

/-- What the worker leaves of the store it found when the handler of `m` returned; `times` is when it makes its steps,
and `rs` is what others ask for. -/
inductive Leaves (config : QueueConfig) (rollback : Bool) (m : Message) (outcome : Outcome) (s : Store)
    (times : List Instant) : List Asked → Store → Prop
  /-- A cancelled handler whose claim cannot be given back. -/
  | left (f : HandlerFault) (rs : List Asked) : outcome = .error f → f.cancelled = true → rollback = false →
      Leaves config rollback m outcome s times rs (s.run rs)
  /-- When the worker records, the message is gone, or no longer `Working` at its version. -/
  | late (before after : List Asked) :
      (∀ m₀, (s.run before).get? m.id = some m₀ → ¬(m₀.status = .working ∧ m₀.version = m.version)) →
      Leaves config rollback m outcome s times (before ++ after) (s.run (before ++ after))
  | kept (before after : List Asked) (m₀ m₁ : Message) (decided now : Instant) : Timed times decided now →
      (s.run before).get? m.id = some m₀ → m₀.status = .working → m₀.version = m.version →
      Ends config rollback m decided now m₀ outcome m₁ →
      ¬(m₁.status.isTerminal = true ∧ config.retention = .purge) →
      Leaves config rollback m outcome s times (before ++ after) (((s.run before).put m₁).run after)
  | purged (before between after : List Asked) (m₀ m₁ : Message) (decided now : Instant) : Timed times decided now →
      (s.run before).get? m.id = some m₀ → m₀.status = .working → m₀.version = m.version →
      Ends config rollback m decided now m₀ outcome m₁ →
      m₁.status.isTerminal = true → config.retention = .purge →
      Leaves config rollback m outcome s times (before ++ between ++ after)
        (((((s.run before).put m₁).run between).delete m.id).2.run after)

namespace Worker

/-! ## A worker among others -/

/-- What may happen between two steps of a worker: others have the store serve a request, if any. -/
structure Others (s : Scene) (asked : Option Asked) (s' : Scene) : Prop where
  store : s'.site.store = s.site.store.after asked
  settled : s'.site.Settled
  capabilities : s'.site.backend.capabilities = s.site.backend.capabilities
  config : s'.desk.config = s.desk.config

/-- From one scene to another the worker makes steps, at `times`, until it looks for another message, and others ask
for `rs`. -/
inductive Works (w : Worker) (s : Scene) : List Asked → List Instant → Worker → Scene → Prop
  | rest : Works w s [] [] w s
  | step {rs : List Asked} {times : List Instant} {w' : Worker} {s' : Scene} : Works w s rs times w' s' →
      w'.stage ≠ .looking → Works w s rs (times ++ [s'.site.now]) (w'.step s').1 (w'.step s').2
  | others {rs : List Asked} {times : List Instant} {w' : Worker} {s' s'' : Scene} (asked : Option Asked) :
      Works w s rs times w' s' → Others s' asked s'' → Works w s (rs ++ asked.toList) times w' s''

theorem Works.trans {w w' w'' : Worker} {s s' s'' : Scene} {rs rs' : List Asked} {times times' : List Instant}
    (first : Works w s rs times w' s') (second : Works w' s' rs' times' w'' s'') :
    Works w s (rs ++ rs') (times ++ times') w'' s'' := by
  induction second with
  | rest => simpa only [List.append_nil] using first
  | step _ busy ih => exact List.append_assoc times _ _ ▸ .step ih busy
  | others asked _ others ih => exact List.append_assoc rs _ _ ▸ .others asked ih others

theorem run_after (s : Store) (rs : List Asked) (asked : Option Asked) :
    (s.run rs).after asked = s.run (rs ++ asked.toList) := by
  rw [Store.run_append]
  cases asked <;> rfl

/-! ## While the handler is at work -/

/-- The worker has `m` in hand and leaves the store to others, until it has seen the outcome. -/
inductive Serves (m : Message) (s : Store) : Stage → List Asked → Store → Prop
  | opening (rs : List Asked) : Serves m s (.opening m) rs (s.run rs)
  | handling (rs : List Asked) (token : Token) (handler : Handling) :
      (∀ outcome, handler = .done outcome → ∃ how : Ending, outcome = how.outcome) →
      Serves m s (.handling m token handler) rs (s.run rs)
  | returned (rs : List Asked) (how : Ending) : Serves m s (.returned m how.outcome) rs (s.run rs)
  | settling (m' : Message) (outcome : Outcome) (rs : List Asked) (s' : Store) : Serves m s (.settling m' outcome) rs s'
  | recording (m' : Message) (change : Change) (call : Call Message) (rs : List Asked) (s' : Store) :
      Serves m s (.recording m' change call) rs s'
  | purging (m' : Message) (change : Change) (call : Call Bool) (rs : List Asked) (s' : Store) :
      Serves m s (.purging m' change call) rs s'
  | finished (rs : List Asked) (s' : Store) : Serves m s .looking rs s'

/-- A handler ends with the outcome of one of the endings. -/
theorem done_outcome {worker : WorkerId} {m : Message} {token : Token} {s : Scene} {handler : Handling}
    (sound : ∀ outcome, handler = .done outcome → ∃ how : Ending, outcome = how.outcome) :
    ∀ outcome, (handler.step worker m token s).1 = .done outcome → ∃ how : Ending, outcome = how.outcome := by
  intro outcome ended
  cases handler with
  | ending how =>
    cases ended
    exact ⟨how, rfl⟩
  | done result =>
    cases ended
    exact sound outcome rfl
  | arriving =>
    simp only [Handling.step] at ended
    split at ended
    · cases ended
    · unfold Handling.work at ended
      split at ended <;> cases ended
  | minding plan =>
    simp only [Handling.step] at ended
    split at ended
    · unfold Handling.work at ended
      split at ended <;> cases ended
    · cases ended
  | busy plan wake =>
    simp only [Handling.step] at ended
    repeat' split at ended
    all_goals cases ended

variable {w : Worker} {s : Scene} {m : Message} {s₀ : Store} {rs : List Asked}

theorem Serves.step (h : s.site.Settled) (serves : Serves m s₀ w.stage rs s.site.store) (busy : w.stage ≠ .looking) :
    Serves m s₀ (w.step s).1.stage rs (w.step s).2.site.store := by
  obtain ⟨index, id, idle, emptyStreak, fatalStreak, stage⟩ := w
  change Serves m s₀ stage rs s.site.store at serves
  generalize found : s.site.store = store at serves
  cases serves with
  | opening =>
    show Serves m s₀ (.handling m _ .arriving) rs s.site.store
    rw [found]
    exact .handling rs _ _ nofun
  | handling _ token handler sound =>
    -- the handler does not touch the store
    have still : (handler.step id m token s).2.site.store = s₀.run rs :=
      (handler.step_leads h id m token).store.trans found
    have next : Serves m s₀ (.handling m token (handler.step id m token s).1) rs
        (handler.step id m token s).2.site.store := by
      rw [still]
      exact .handling rs token _ (done_outcome sound)
    cases handler with
    | done outcome =>
      obtain ⟨how, rfl⟩ := sound outcome rfl
      show Serves m s₀ (.returned m how.outcome) rs s.site.store
      rw [found]
      exact .returned rs how
    | _ => exact next
  | returned => exact .settling m _ rs _
  | settling m' outcome =>
    simp only [Worker.step]
    split
    · exact .recording ..
    · exact .finished ..
  | recording m' change call =>
    cases call with
    | done result =>
      cases result with
      | ok updated =>
        simp only [Worker.step, recorded]
        split
        · exact .purging ..
        · exact .finished ..
      | error e => exact .finished ..
    | _ => exact .recording ..
  | purging m' change call =>
    cases call with
    | done result => exact .finished ..
    | _ => exact .purging ..
  | finished => exact absurd rfl busy

theorem Serves.others (serves : Serves m s₀ w.stage rs s.site.store) (asked : Option Asked) {s' : Scene}
    (others : Others s asked s') : Serves m s₀ w.stage (rs ++ asked.toList) s'.site.store := by
  rw [others.store]
  generalize w.stage = stage at serves
  generalize s.site.store = store at serves
  cases serves with
  | opening =>
    rw [run_after]
    exact .opening _
  | handling _ token handler sound =>
    rw [run_after]
    exact .handling _ token handler sound
  | returned _ how =>
    rw [run_after]
    exact .returned _ how
  | settling => exact .settling ..
  | recording => exact .recording ..
  | purging => exact .purging ..
  | finished => exact .finished ..

/-! ## The record -/

/-- From the return of the handler on: how far the worker is, and what it has made of the store. -/
inductive Course (config : QueueConfig) (rollback : Bool) (m : Message) (outcome : Outcome) (s : Store) :
    List Instant → Stage → List Asked → Store → Prop
  | returned (rs : List Asked) : Course config rollback m outcome s [] (.returned m outcome) rs (s.run rs)
  | settling (start : Instant) (rs : List Asked) :
      Course config rollback m outcome s [start] (.settling m outcome) rs (s.run rs)
  | recording (times : List Instant) (rs : List Asked) (change : Change) (decided : Instant) (call : Call Message) :
      call.result? = none → times[1]? = some decided → outcomeChange config rollback decided m outcome = some change →
      Course config rollback m outcome s times (.recording m change call) rs (s.run rs)
  | recorded (times : List Instant) (before after : List Asked) (change : Change) (decided now : Instant)
      (result : Except Error Message) : Timed times decided now →
      outcomeChange config rollback decided m outcome = some change →
      ((s.run before).updateStatus m.id change m.version now).1 = result →
      Course config rollback m outcome s times (.recording m change (.done result)) (before ++ after)
        (((s.run before).updateStatus m.id change m.version now).2.run after)
  | purging (times : List Instant) (before after : List Asked) (m₀ m₁ : Message) (decided now : Instant)
      (change : Change) (call : Call Bool) : call.result? = none → Timed times decided now →
      (s.run before).get? m.id = some m₀ → m₀.status = .working → m₀.version = m.version →
      Ends config rollback m decided now m₀ outcome m₁ → m₁.status.isTerminal = true → config.retention = .purge →
      Course config rollback m outcome s times (.purging m change call) (before ++ after)
        (((s.run before).put m₁).run after)
  | purged (times : List Instant) (rs : List Asked) (s' : Store) (change : Change) (result : Except Error Bool) :
      Leaves config rollback m outcome s times rs s' →
      Course config rollback m outcome s times (.purging m change (.done result)) rs s'
  | finished (times : List Instant) (rs : List Asked) (s' : Store) : Leaves config rollback m outcome s times rs s' →
      Course config rollback m outcome s times .looking rs s'

end Worker

section

variable {config : QueueConfig} {rollback : Bool} {m : Message} {outcome : Outcome} {s s' : Store}
  {times : List Instant} {rs : List Asked}

theorem decided_append {decided : Instant} (second : times[1]? = some decided) (now : Instant) :
    (times ++ [now])[1]? = some decided := by
  rw [List.getElem?_append_left (List.getElem?_eq_some_iff.mp second).1]
  exact second

theorem Timed.append {decided now : Instant} (timed : Timed times decided now) (later : Instant) :
    Timed (times ++ [later]) decided now := by
  refine ⟨decided_append timed.1 later, ?_⟩
  rw [List.drop_append]
  exact List.mem_append_left _ timed.2

/-- The store makes the change at a step after the decision. -/
theorem Timed.last {decided : Instant} (second : times[1]? = some decided) (now : Instant) :
    Timed (times ++ [now]) decided now := by
  refine ⟨decided_append second now, ?_⟩
  have two : 1 < times.length := (List.getElem?_eq_some_iff.mp second).1
  rw [List.drop_append_of_le_length two]
  exact List.mem_append_right _ List.mem_cons_self

theorem Leaves.later (leaves : Leaves config rollback m outcome s times rs s') (now : Instant) :
    Leaves config rollback m outcome s (times ++ [now]) rs s' := by
  cases leaves with
  | left f rs failed cancelled unable => exact .left f rs failed cancelled unable
  | late before after gone => exact .late before after gone
  | kept before after m₀ m₁ decided changed timed stored working version ends stays =>
    exact .kept before after m₀ m₁ decided changed (timed.append now) stored working version ends stays
  | purged before between after m₀ m₁ decided changed timed stored working version ends terminal purge =>
    have timed := timed.append now
    exact .purged before between after m₀ m₁ decided changed timed stored working version ends terminal purge

theorem Leaves.others (leaves : Leaves config rollback m outcome s times rs s') (asked : Option Asked) :
    Leaves config rollback m outcome s times (rs ++ asked.toList) (s'.after asked) := by
  cases leaves with
  | left f rs failed cancelled unable =>
    rw [Worker.run_after]
    exact .left f _ failed cancelled unable
  | late before after gone =>
    rw [Worker.run_after, List.append_assoc]
    exact .late before _ gone
  | kept before after m₀ m₁ decided now timed stored working version ends stays =>
    rw [Worker.run_after, List.append_assoc]
    exact .kept before _ m₀ m₁ decided now timed stored working version ends stays
  | purged before between after m₀ m₁ decided now timed stored working version ends terminal purge =>
    rw [Worker.run_after, List.append_assoc]
    exact .purged before between _ m₀ m₁ decided now timed stored working version ends terminal purge

namespace Worker

theorem Course.others {stage : Stage} (course : Course config rollback m outcome s times stage rs s')
    (asked : Option Asked) : Course config rollback m outcome s times stage (rs ++ asked.toList) (s'.after asked) := by
  cases course with
  | returned =>
    rw [run_after]
    exact .returned _
  | settling =>
    rw [run_after]
    exact .settling _ _
  | recording _ _ change decided call undone second chosen =>
    rw [run_after]
    exact .recording _ _ change decided call undone second chosen
  | recorded _ before after change decided now result timed chosen made =>
    rw [run_after, List.append_assoc]
    exact .recorded _ before _ change decided now result timed chosen made
  | purging _ before after m₀ m₁ decided now change call undone timed stored working version ends terminal purge =>
    rw [run_after, List.append_assoc]
    exact .purging _ before _ m₀ m₁ decided now change call undone timed stored working version ends terminal purge
  | purged _ _ _ change result leaves => exact .purged _ _ _ change result (leaves.others asked)
  | finished _ _ _ leaves => exact .finished _ _ _ (leaves.others asked)

/-- What the worker finds of its record when the store has answered. -/
theorem recorded_cases {change : Change} {decided now : Instant} {s₀ : Store} (distinct : s₀.Distinct)
    (few : ∀ kind, (m.failuresOf kind).toNat + 1 < 2 ^ 32)
    (chosen : outcomeChange config rollback decided m outcome = some change) :
    (∃ e, (s₀.updateStatus m.id change m.version now).1 = .error e ∧
        (s₀.updateStatus m.id change m.version now).2 = s₀ ∧
        ∀ m₀, s₀.get? m.id = some m₀ → ¬(m₀.status = .working ∧ m₀.version = m.version)) ∨
      ∃ m₀ m₁, (s₀.updateStatus m.id change m.version now).1 = .ok m₁ ∧
        (s₀.updateStatus m.id change m.version now).2 = s₀.put m₁ ∧ s₀.get? m.id = some m₀ ∧
        m₀.status = .working ∧ m₀.version = m.version ∧ Ends config rollback m decided now m₀ outcome m₁ := by
  have src := outcomeChange_src chosen
  have allowed := outcomeChange_allowed chosen
  cases reply : (s₀.updateStatus m.id change m.version now).1 with
  | error e =>
    refine Or.inl ⟨e, rfl, Store.updateStatus_error reply, fun m₀ stored ⟨working, version⟩ => ?_⟩
    have made : (s₀.updateStatus m.id change m₀.version now).1 = .ok (change.apply m₀ now) :=
      Store.updateStatus_made stored allowed (working.trans src.symm)
    rw [version, reply] at made
    cases made
  | ok m₁ =>
    obtain ⟨m₀, stored, _, working, version, rfl, _⟩ := Store.updateStatus_ok reply
    refine Or.inr ⟨m₀, _, rfl, ?_, stored, working.trans src, version, .of_change few chosen m₀ now⟩
    unfold Store.updateStatus Change.check
    rw [if_pos allowed]
    simp only [stored, if_pos (And.intro working version)]
    exact Store.modify_put distinct stored rfl

variable {w : Worker} {scene : Scene} {s₀ : Store}

/-- A step of the record of a change: it waits, or the store answers. -/
theorem Course.step_recording (h : scene.site.Settled) (rs : List Asked) {change : Change} {decided : Instant}
    {call : Call Message} (undone : call.result? = none) (second : times[1]? = some decided)
    (chosen : outcomeChange config rollback decided m outcome = some change) (store : scene.site.store = s₀.run rs)
    (scopes : List Scope) :
    let stepped := scene.advance (.updateStatus m.id change m.version) false scopes call
    Course config rollback m outcome s₀ (times ++ [scene.site.now]) (.recording m change stepped.1) rs
      stepped.2.site.store := by
  let r : Request := .updateStatus m.id change m.version
  have goes := Call.step_goes (r := r) h rfl false scopes undone
  show Course config rollback m outcome s₀ (times ++ [scene.site.now])
    (.recording m change (call.step r false scopes scene.site).1) rs (call.step r false scopes scene.site).2.store
  generalize call.step r false scopes scene.site = stepped at goes
  obtain ⟨call', site⟩ := stepped
  cases goes with
  | waits undone' leads =>
    rw [leads.store.trans store]
    exact .recording _ rs change decided call' undone' (decided_append second _) chosen
  | quits e cancelled => cases cancelled
  | answers ended leads =>
    have after : site.store = ((s₀.run rs).updateStatus m.id change m.version scene.site.now).2 := by
      rw [leads.store, store]
      rfl
    have made : ((s₀.run rs).updateStatus m.id change m.version scene.site.now).1 =
        (scene.site.store.serve scene.site.now r).1 := by
      rw [store]
      rfl
    have course := Course.recorded (s := s₀) _ rs [] change decided scene.site.now _ (Timed.last second _) chosen made
    rw [List.append_nil] at course
    cases ended
    rw [after]
    exact course

/-- A step of the purge of a message that ended. -/
theorem Course.step_purging (h : scene.site.Settled) (before after : List Asked) {m₀ m₁ : Message}
    {decided now : Instant} {call : Call Bool} (change : Change) (undone : call.result? = none)
    (timed : Timed times decided now) (stored : (s₀.run before).get? m.id = some m₀) (working : m₀.status = .working)
    (version : m₀.version = m.version) (ends : Ends config rollback m decided now m₀ outcome m₁)
    (terminal : m₁.status.isTerminal = true) (purge : config.retention = .purge)
    (store : scene.site.store = ((s₀.run before).put m₁).run after) (scopes : List Scope) :
    let stepped := scene.advance (.delete m.id) false scopes call
    Course config rollback m outcome s₀ (times ++ [scene.site.now]) (.purging m change stepped.1) (before ++ after)
      stepped.2.site.store := by
  let r : Request := .delete m.id
  have goes := Call.step_goes (r := r) h rfl false scopes undone
  show Course config rollback m outcome s₀ (times ++ [scene.site.now])
    (.purging m change (call.step r false scopes scene.site).1) (before ++ after)
    (call.step r false scopes scene.site).2.store
  have timed := timed.append scene.site.now
  generalize call.step r false scopes scene.site = stepped at goes
  obtain ⟨call', site⟩ := stepped
  cases goes with
  | waits undone' leads =>
    rw [leads.store.trans store]
    exact .purging _ before after m₀ m₁ decided now change call' undone' timed stored working version ends terminal
      purge
  | quits e cancelled => cases cancelled
  | answers ended leads =>
    have gone : site.store = ((((s₀.run before).put m₁).run after).delete m.id).2 := by
      rw [leads.store, store]
      rfl
    cases ended
    rw [gone]
    refine .purged _ _ _ change _ (List.append_nil (before ++ after) ▸ ?_)
    exact .purged before after [] m₀ m₁ decided now timed stored working version ends terminal purge

theorem Course.step (h : scene.site.Settled) (distinct : s₀.Distinct)
    (few : ∀ kind, (m.failuresOf kind).toNat + 1 < 2 ^ 32) (configured : scene.desk.config = config)
    (able : scene.site.backend.capabilities.rollback = rollback)
    (course : Course config rollback m outcome s₀ times w.stage rs scene.site.store) (busy : w.stage ≠ .looking) :
    Course config rollback m outcome s₀ (times ++ [scene.site.now]) (w.step scene).1.stage rs
      (w.step scene).2.site.store := by
  obtain ⟨index, id, idle, emptyStreak, fatalStreak, stage⟩ := w
  change Course config rollback m outcome s₀ times stage rs scene.site.store at course
  generalize found : scene.site.store = store at course
  cases course with
  | returned =>
    show Course config rollback m outcome s₀ [scene.site.now] (.settling m outcome) rs scene.site.store
    rw [found]
    exact .settling _ rs
  | settling start =>
    let w : Worker := ⟨index, id, idle, emptyStreak, fatalStreak, .settling m outcome⟩
    have kept : (w.step scene).2.site.store = s₀.run rs := by
      simp only [w, Worker.step]
      repeat' split
      all_goals exact found
    show Course config rollback m outcome s₀ [start, scene.site.now] (w.step scene).1.stage rs
      (w.step scene).2.site.store
    rw [kept]
    cases chosen : outcomeChange config rollback scene.site.now m outcome with
    | some change =>
      have next : (w.step scene).1.stage = .recording m change .start := by
        simp only [w, Worker.step, configured, able, chosen]
        rfl
      rw [next]
      exact .recording _ rs change scene.site.now .start rfl rfl chosen
    | none =>
      have next : (w.step scene).1.stage = .looking := by
        simp only [w, Worker.step, configured, able, chosen]
        rfl
      obtain ⟨f, failed, cancelled, unable⟩ := outcomeChange_none chosen
      rw [next]
      exact .finished _ _ _ (.left f rs failed cancelled unable)
  | recording _ _ change decided call undone second chosen =>
    cases call with
    | done result => cases undone
    | attempting n => exact Course.step_recording h rs undone second chosen found _
    | waiting n e wake => exact Course.step_recording h rs undone second chosen found []
  | recorded _ before after change decided now result timed chosen made =>
    rcases recorded_cases (Store.distinct_run distinct before) few chosen with
      ⟨e, refused, same, late⟩ | ⟨m₀, m₁, accepted, same, stored, working, version, ends⟩
    · obtain rfl := made.symm.trans refused
      show Course config rollback m outcome s₀ _ .looking (before ++ after) scene.site.store
      rw [found, same, ← Store.run_append]
      exact .finished _ _ _ (.late before after late)
    · obtain rfl := made.symm.trans accepted
      let w : Worker := ⟨index, id, idle, emptyStreak, fatalStreak, .recording m change (.done (.ok m₁))⟩
      have kept : (w.step scene).2.site.store = ((s₀.run before).put m₁).run after := by
        rw [← same, ← found]
        simp only [w, Worker.step, Worker.recorded]
        split <;> rfl
      show Course config rollback m outcome s₀ _ (w.step scene).1.stage (before ++ after) (w.step scene).2.site.store
      have timed := timed.append scene.site.now
      rw [kept]
      by_cases purge : m₁.status.isTerminal = true ∧ config.retention = .purge
      · have next : (w.step scene).1.stage = .purging m change .start := by
          simp [w, Worker.step, Worker.recorded, Scene.note, goTo, configured, purge.1, purge.2]
        rw [next]
        exact .purging _ before after m₀ m₁ decided now change .start rfl timed stored working version ends
          purge.1 purge.2
      · have next : (w.step scene).1.stage = .looking := by
          have stays : ¬(m₁.status.isTerminal && scene.desk.config.retention == .purge) = true := by
            simpa [configured] using purge
          simp only [w, Worker.step, Worker.recorded]
          split
          · exact absurd ‹_› stays
          · rfl
        rw [next]
        exact .finished _ _ _ (.kept before after m₀ m₁ decided now timed stored working version ends purge)
  | purging _ before after m₀ m₁ decided now change call undone timed stored working version ends terminal purge =>
    cases call with
    | done result => cases undone
    | attempting n =>
      exact Course.step_purging h before after change undone timed stored working version ends terminal purge found _
    | waiting n e wake =>
      exact Course.step_purging h before after change undone timed stored working version ends terminal purge found []
  | purged _ _ _ change result leaves =>
    have finished : Course config rollback m outcome s₀ (times ++ [scene.site.now]) .looking rs scene.site.store := by
      rw [found]
      exact .finished _ _ _ (leaves.later _)
    cases result with
    | ok gone => exact finished
    | error e => exact finished
  | finished => exact absurd rfl busy

end Worker

end

namespace Worker

/-! ## Whole runs -/

section Runs

variable {m : Message} {outcome : Outcome} {w w' : Worker} {s s' : Scene} {rs : List Asked} {times : List Instant}

theorem Works.keeps (h : s.site.Settled) (works : Works w s rs times w' s') :
    s'.site.Settled ∧ s'.desk.config = s.desk.config ∧
      s'.site.backend.capabilities = s.site.backend.capabilities := by
  induction works with
  | rest => exact ⟨h, rfl, rfl⟩
  | step _ _ ih =>
    obtain ⟨settled, config, capabilities⟩ := ih
    obtain ⟨_, step⟩ := step_moves settled _
    exact ⟨step.site.settled, step.config.trans config, step.site.capabilities.trans capabilities⟩
  | others _ _ others ih => exact ⟨others.settled, others.config.trans ih.2.1, others.capabilities.trans ih.2.2⟩

theorem Works.serves (h : s.site.Settled) (opening : w.stage = .opening m) (works : Works w s rs times w' s') :
    Serves m s.site.store w'.stage rs s'.site.store := by
  induction works with
  | rest =>
    rw [opening]
    exact .opening []
  | step works busy ih => exact ih.step (works.keeps h).1 busy
  | others asked _ others ih => exact ih.others asked others

theorem Works.course (h : s.site.Settled) (distinct : s.site.store.Distinct)
    (few : ∀ kind, (m.failuresOf kind).toNat + 1 < 2 ^ 32) (returned : w.stage = .returned m outcome)
    (works : Works w s rs times w' s') :
    Course s.desk.config s.site.backend.capabilities.rollback m outcome s.site.store times w'.stage rs
      s'.site.store := by
  induction works with
  | rest =>
    rw [returned]
    exact .returned []
  | step works busy ih =>
    obtain ⟨settled, config, capabilities⟩ := works.keeps h
    exact ih.step settled distinct few config (congrArg Capabilities.rollback capabilities) busy
  | others asked _ others ih =>
    rw [others.store]
    exact ih.others asked

end Runs

end Worker

/-! ## The record is made -/

namespace Worker

variable {w : Worker} {s : Scene}

theorem Alone.works (h : s.site.Settled) {times : List Instant} {w' : Worker} {s' : Scene}
    (alone : Alone w s times w' s') : Works w s [] times w' s' := by
  induction alone with
  | rest => exact .rest
  | @step w _ s _ _ busy _ ih =>
    obtain ⟨_, step⟩ := step_moves h w
    exact (Works.step .rest busy).trans (ih step.site.settled)
  | @waits w _ s _ _ time _ _ ih =>
    have settled : Site.Settled { s.site with time } := ⟨⟨h.reached, h.faultless⟩, h.policy⟩
    have waited : Works w s [] [] w (s.waitUntil time) := .others none .rest ⟨rfl, settled, rfl, rfl⟩
    exact waited.trans (ih settled)

/-- Whatever others have done so far, a worker whose handler returned gets through if they then leave it alone. -/
theorem Course.getsThrough {config : QueueConfig} {rollback : Bool} {m : Message} {outcome : Outcome} {s₀ : Store}
    {times : List Instant} {rs : List Asked}
    (course : Course config rollback m outcome s₀ times w.stage rs s.site.store) : GetsThrough w s := by
  generalize staged : w.stage = stage at course
  generalize s.site.store = store at course
  cases course with
  | returned =>
    have settling : (w.step s).1.stage = .settling m outcome := by
      rw [Worker.step, staged]
      rfl
    exact .step (by simp [staged]) (getsThrough_settling settling)
  | settling => exact getsThrough_settling staged
  | recording | recorded => exact getsThrough_recording staged
  | purging | purged => exact getsThrough_purging staged
  | finished => exact getsThrough_looking staged

end Worker

/-- A worker opens the claim on `m`, its handler returns `outcome`, and others ask for anything at any time. Until
then the worker has not touched the store. From then on it is never stuck, and by its next look at the queue it has
made of the stored message what the outcome comes to, once, if that was `Working` at the version of `m`; otherwise
the store is as others left it. What others leave of `m` at its version has the failures that the worker decided
by. -/
theorem outcome_recorded {w w₁ : Worker} {s s₁ : Scene} {m m' : Message} {outcome : Outcome} {asks : List Asked}
    {times₁ : List Instant} (settled : s.site.Settled) (distinct : s.site.store.Distinct)
    (few : ∀ kind, (m.failuresOf kind).toNat + 1 < 2 ^ 32) (opening : w.stage = .opening m)
    (served : Worker.Works w s asks times₁ w₁ s₁) (returned : w₁.stage = .returned m' outcome) :
    let config := s.desk.config
    let rollback := s.site.backend.capabilities.rollback
    (m' = m ∧ s₁.site.store = s.site.store.run asks ∧
      ∃ how : Ending, outcome = how.outcome ∧ (how = .panic → outcome.failure? = some "panic")) ∧
    (∀ rs times w₂ s₂, Worker.Works w₁ s₁ rs times w₂ s₂ →
      w₂.GetsThrough s₂ ∧
      (w₂.stage = .looking → Leaves config rollback m outcome s₁.site.store times rs s₂.site.store)) ∧
    (∀ decided now m₀ m₁, Ends config rollback m decided now m₀ outcome m₁ →
      (∀ kind, (m₀.failuresOf kind).toNat + 1 < 2 ^ 32) → ∀ kind,
        (m₁.failuresOf kind).toNat = (m₀.failuresOf kind).toNat + if outcome.failure? = some kind then 1 else 0) ∧
    (s.site.store.get? m.id = some m → ∀ rs, s.site.store.Stays m.id (asks ++ rs) →
      ∀ m₀, (s₁.site.store.run rs).get? m.id = some m₀ → m₀.version = m.version →
        ∃ beat, m₀ = { m with heartbeatAt := beat }) := by
  intro config rollback
  obtain ⟨settled₁, config₁, capabilities₁⟩ := served.keeps settled
  have serves := served.serves settled opening
  rw [returned] at serves
  generalize found : s₁.site.store = store at serves
  cases serves with
  | returned _ how =>
    have distinct₁ : s₁.site.store.Distinct := by
      rw [found]
      exact Store.distinct_run distinct asks
    refine ⟨⟨rfl, rfl, how, rfl, ?_⟩, fun rs times w₂ s₂ works => ?_, fun decided now m₀ m₁ ends => ends.counts, ?_⟩
    · rintro rfl
      rfl
    · have course := works.course settled₁ distinct₁ few returned
      rw [config₁, capabilities₁] at course
      refine ⟨course.getsThrough, fun finished => ?_⟩
      rw [finished, found] at course
      cases course with
      | finished _ _ _ leaves => exact leaves
    · intro stored rs stays m₀ found₀ version
      rw [← Store.run_append] at found₀
      exact Store.unchanged_run distinct stored stays found₀ version

namespace Flaw

def config : QueueConfig := { retryDelays := RetryDelays.none.insert "flaky" (.ofMillis [10]) }

/-- The message as the worker was handed it. -/
def m : Message := (Message.ofDraft .nil { type := "job", body := [] } .epoch).claim ⟨"only"⟩ .epoch

/-- A queue with that message alone, whose handler fails. -/
def scene : Scene where
  site := {
    backend := { name := "jobs", store := Store.empty.enqueue m }
    policies := Policies.empty.withDefaults {}
    clock := .manual .epoch
    script := fun _ => [{ ending := .fault { kind := "flaky", message := "no" } }] }
  desk := .ofConfig config {}

def worker (stage : Stage) : Worker := { index := 0, id := ⟨"only"⟩, stage }

/-- The handler has returned. -/
def returned : Worker × Scene :=
  let step := fun ((w, s) : Worker × Scene) => w.step s
  step (step (step (step (worker (.opening m), scene))))

theorem settled : scene.site.Settled := ⟨⟨rfl, fun _ _ => nofun⟩, Policies.get_withDefaults Policies.empty {}⟩

theorem served : ∃ times, Worker.Works (worker (.opening m)) scene [] times returned.1 returned.2 := by
  refine ⟨_, .step (.step (.step (.step .rest ?_) ?_) ?_) ?_⟩ <;> nofun

theorem ends {m₀ m₁ : Message} {decided now : Instant}
    (ends : Ends config true m decided now m₀ (.error { kind := "flaky", message := "no" }) m₁) :
    m₁.status = .pending ∧ m₁.visibleAt = decided.add? (.ofMillis 10) := by
  have retries : config.retries true m { kind := "flaky", message := "no" } (.ofMillis 10) := ⟨rfl, rfl, rfl⟩
  cases ends with
  | requeued f delay failed again =>
    obtain rfl : Span.ofMillis 10 = delay := Option.some.inj (retries.2.2.symm.trans again.2.2)
    exact ⟨rfl, rfl⟩
  | released f cancelled => cases cancelled
  | failed f failed gives => exact absurd retries (gives _)

end Flaw

/-- The message goes back to pending with one failure, to be claimed after the wait of its kind. -/
theorem outcome_recorded_flaky :
    ∃ times w s m₁, Worker.Works Flaw.returned.1 Flaw.returned.2 [] times w s ∧ w.stage = .looking ∧
      s.site.store = Flaw.scene.site.store.put m₁ ∧ m₁.status = .pending ∧ (m₁.failuresOf "flaky").toNat = 1 ∧
      ∃ decided, times[1]? = some decided ∧ m₁.visibleAt = Instant.add? decided (.ofMillis 10) := by
  have distinct : Flaw.scene.site.store.Distinct := Store.distinct_empty.enqueue Flaw.m
  have few : ∀ kind, (Flaw.m.failuresOf kind).toNat + 1 < 2 ^ 32 := by
    intro kind
    show 0 + 1 < 2 ^ 32
    omega
  obtain ⟨times₁, served⟩ := Flaw.served
  obtain ⟨⟨_, kept, _⟩, done, counts, _⟩ := outcome_recorded Flaw.settled distinct few rfl served rfl
  obtain ⟨times, w, s, alone, finished⟩ := (done [] [] _ _ .rest).1
  have works := alone.works (served.keeps Flaw.settled).1
  have leaves := (done [] times w s works).2 finished
  have stored : Flaw.scene.site.store.get? Flaw.m.id = some Flaw.m := rfl
  rw [kept] at leaves
  change Leaves Flaw.config true Flaw.m (.error { kind := "flaky", message := "no" }) Flaw.scene.site.store times []
    s.site.store at leaves
  generalize none : ([] : List Asked) = rs at leaves
  generalize final : s.site.store = store at leaves
  cases leaves with
  | left f rs failed cancelled able => cases able
  | late before after gone =>
    obtain ⟨rfl, rfl⟩ := List.append_eq_nil_iff.mp none.symm
    exact absurd ⟨rfl, rfl⟩ (gone Flaw.m stored)
  | purged before between after m₀ m₁ decided now timed found working version ends terminal =>
    rw [(Flaw.ends ends).1] at terminal
    cases terminal
  | kept before after m₀ m₁ decided now timed found working version ends =>
    obtain ⟨rfl, rfl⟩ := List.append_eq_nil_iff.mp none.symm
    obtain rfl : Flaw.m = m₀ := Option.some.inj (stored.symm.trans found)
    have counted : (m₁.failuresOf "flaky").toNat = 1 := counts decided now Flaw.m m₁ ends few "flaky"
    obtain ⟨pending, visible⟩ := Flaw.ends ends
    exact ⟨times, w, s, m₁, works, finished, final, pending, counted, decided, timed.1, visible⟩

end ClaimQueue
