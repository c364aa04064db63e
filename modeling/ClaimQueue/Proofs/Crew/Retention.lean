/-
  ClaimQueue.Proofs.Crew.Retention — what is deleted, and what is kept.

  All crews of a run keep to one retention, and what others ask for ends and deletes nothing
  (`Retained`). Ending a message and deleting it are two steps, and anything may come in
  between; the members that are to delete owe it all the while (`Engine.discards`). What is
  owed has ended, so no deletion takes a message that was still to be worked on; under the
  purge all that has ended is owed, so when nobody is at it any more, nothing is left; and in
  an archive nothing is ever owed (`Swept`).

  Main statement: `retention_exact`.
-/

import ClaimQueue.Proofs.Crew.Runs
import ClaimQueue.Proofs.Site.Outcomes
import ClaimQueue.Proofs.Upkeep.Disposal

namespace ClaimQueue

/-- Is the worker about to record an outcome, or to delete what it ended? -/
def Worker.isFinishing (w : Worker) : Bool :=
  match w.stage with
  | .recording _ _ _ | .purging _ _ _ => true
  | _ => false

/-- Is the monitor in a pass over what expired? -/
def Monitor.isExpiring (m : Monitor) : Bool :=
  match m.stage with
  | .passing (.expiration _) => true
  | _ => false

theorem Worker.discards_idle {w : Worker} (idle : w.isFinishing = false) (retention : Retention) :
    w.discards retention = [] := by
  obtain ⟨index, id, marked, emptyStreak, fatalStreak, stage⟩ := w
  cases stage with
  | recording | purging => cases idle
  | _ => rfl

theorem Monitor.discards_idle {m : Monitor} (idle : m.isExpiring = false) (retention : Retention) :
    m.discards retention = [] := by
  obtain ⟨duty, stage⟩ := m
  cases stage with
  | passing round =>
    cases round with
    | expiration => cases idle
    | _ => rfl
  | _ => rfl

namespace Crew

/-- What all in a row owe, of whom one is another now. -/
theorem flatMap_set {α β : Type} {as : List α} {i : Nat} {a : α} (found : as[i]? = some a) (b : α) (f : α → List β) :
    ∃ before after, as.flatMap f = before ++ (f a ++ after) ∧ (as.set i b).flatMap f = before ++ (f b ++ after) := by
  obtain ⟨before, after, split, changed⟩ := set_split found b
  refine ⟨before.flatMap f, after.flatMap f, ?_, ?_⟩
  · rw [split, List.flatMap_append, List.flatMap_cons]
  · rw [changed, List.flatMap_append, List.flatMap_cons]

/-- The messages that members of the crew ended and have not deleted yet. -/
def discards (retention : Retention) (c : Crew) : List MessageId :=
  c.workers.flatMap (·.discards retention) ++ c.monitors.flatMap (·.discards retention)

@[simp] theorem discards_muster (retention : Retention) (c : Crew) : c.muster.discards retention = c.discards retention :=
  rfl

@[simp] theorem discards_fresh (retention : Retention) (config : QueueConfig) (filter : ClaimFilter)
    (ids : List WorkerId) (duties : List Duty) : (fresh config filter ids duties).discards retention = [] := by
  refine List.append_eq_nil_iff.mpr ⟨List.flatMap_eq_nil_iff.mpr ?_, List.flatMap_eq_nil_iff.mpr ?_⟩
  all_goals
    intro member mem
    obtain ⟨_, _, rfl⟩ := List.mem_map.mp mem
    rfl

theorem move_disposes {c : Crew} {s : Site} {retention : Retention} (h : s.Settled)
    (config : c.desk.config.retention = retention) (t : Member) :
    ∃ asked, Disposes retention (c.discards retention) ((c.move s t).1.muster.discards retention) s asked
      (c.move s t).2 := by
  subst config
  rw [discards_muster]
  cases t with
  | worker i =>
    cases found : c.workers[i]? with
    | none =>
      simp only [move, found]
      exact ⟨_, .quiet h.refl rfl⟩
    | some w =>
      simp only [move, found]
      obtain ⟨asked, disposes⟩ := w.step_disposes (s := ⟨s, c.desk⟩) h
      obtain ⟨before, after, owed, owed'⟩ :=
        flatMap_set found (w.step ⟨s, c.desk⟩).1 (·.discards c.desk.config.retention)
      refine ⟨asked, ?_⟩
      simp only [discards, owed, owed', List.append_assoc]
      exact disposes.frame _ _
  | monitor i =>
    cases found : c.monitors[i]? with
    | none =>
      simp only [move, found]
      exact ⟨_, .quiet h.refl rfl⟩
    | some m =>
      simp only [move, found]
      obtain ⟨asked, disposes⟩ := m.step_disposes (s := ⟨s, c.desk⟩) h
      obtain ⟨before, after, owed, owed'⟩ :=
        flatMap_set found (m.step ⟨s, c.desk⟩).1 (·.discards c.desk.config.retention)
      refine ⟨asked, ?_⟩
      simp only [discards, owed, owed', ← List.append_assoc (c.workers.flatMap _)]
      exact disposes.frame _ _
  | runner i =>
    cases found : c.runners[i]? with
    | none =>
      simp only [move, found]
      exact ⟨_, .quiet h.refl rfl⟩
    | some r =>
      simp only [move, found]
      exact r.step_disposes (s := ⟨s, c.desk⟩) h _ _

end Crew

namespace Engine

variable {e e₀ : Engine} {a : Happening} {as : List Happening} {retention : Retention}

def discards (retention : Retention) (e : Engine) : List MessageId := e.crews.flatMap (·.discards retention)

/-! ## One act -/

/-- An act of a run with one retention. -/
structure Retains (retention : Retention) (e : Engine) (a : Happening) : Prop where
  allowed : e.allows a = true
  joins : ∀ config filter ids duties, a = .join config filter ids duties → config.retention = retention
  gentle : ∀ now r, a = .request now r → r.isGentle = true
  /-- What is sent comes from a draft, and it is new, or it is still there. -/
  sends : ∀ now m, a = .request now (.enqueue m) →
    (∃ draft since, m = .ofDraft m.id draft since) ∧ (m.id ∈ e.site.sent → e.store.get? m.id ≠ none)

/-- In the act the store serves `asked`, if anything, and it is somebody else who sends. -/
structure Sweeps (retention : Retention) (e : Engine) (a : Happening) (asked : Option Asked) : Prop where
  site : e.site.Follows asked (e.act a).site
  discards : Discards retention (e.discards retention) ((e.act a).discards retention) e.store asked
  sends : ∀ now m, asked = some (now, .enqueue m) → a = .request now (.enqueue m)

theorem Sweeps.store {asked : Option Asked} (sweeps : e.Sweeps retention a asked) :
    (e.act a).store = e.store.after asked :=
  sweeps.site.store

theorem act_sweeps (sound : e.Sound) (configs : ∀ c ∈ e.crews, c.desk.config.retention = retention)
    (retains : e.Retains retention a) : ∃ asked, e.Sweeps retention a asked := by
  -- an act in which nothing is asked
  have rests : e.site.Follows none (e.act a).site → (e.act a).discards retention = e.discards retention →
      ∃ asked, e.Sweeps retention a asked :=
    fun quiet same => ⟨none, quiet, same ▸ .rests rfl, fun _ _ => nofun⟩
  cases a with
  | move t =>
    cases found : e.crews[t.crew]? with
    | none =>
      have same := act_nobody found
      exact rests (same.symm ▸ ⟨rfl, rfl, rfl⟩) (by rw [same])
    | some c =>
      obtain ⟨asked, disposes⟩ := c.move_disposes sound.settled (configs c (List.mem_of_getElem? found)) t.member
      obtain ⟨before, after, owed, owed'⟩ :=
        Crew.flatMap_set found (c.move e.site t.member).1.muster (·.discards retention)
      refine ⟨asked, ?_, ?_, fun now m sends => ?_⟩
      · rw [site_move found]
        exact disposes.site.toFollows
      · have crews : (e.act (.move t)).crews = e.crews.set t.crew (c.move e.site t.member).1.muster := by
          simp [act, Engine.move, found]
        rw [discards, discards, crews, owed, owed']
        exact disposes.discards.frame _ _
      · have silent := disposes.silent
        rw [sends] at silent
        cases silent
  | request now r =>
    refine ⟨some (now, r), (sound.settled.serveAt now r).toFollows, .rests (retains.gentle now r rfl), ?_⟩
    rintro _ _ ⟨⟩
    rfl
  | wait clock time => exact rests ⟨rfl, rfl, rfl⟩ rfl
  | join config filter ids duties => exact rests ⟨rfl, rfl, rfl⟩ (by simp [discards, act])
  | dismiss i =>
    cases found : e.crews[i]? with
    | none =>
      refine rests ?_ ?_
      all_goals simp only [act, found]
      exact ⟨rfl, rfl, rfl⟩
    | some c =>
      obtain ⟨before, after, owed, owed'⟩ := Crew.flatMap_set found c.dismissed (·.discards retention)
      refine rests ?_ ?_
      · simp only [act, found]
        exact ⟨rfl, rfl, rfl⟩
      · simp only [act, found, discards, setCrew, owed, owed']
        rfl

/-! ## Runs -/

/-- The runs with one retention; they start with nobody at work and nothing sent. -/
structure Retained (retention : Retention) (e₀ : Engine) (as : List Happening) : Prop where
  settled : e₀.site.Settled
  unserved : e₀.site.journal = []
  empty : e₀.store.messages = []
  nobody : e₀.crews = []
  retains : e₀.Throughout (Retains retention) as

/-- What is so in every run with one retention. -/
structure Swept (retention : Retention) (e : Engine) : Prop where
  reached : e.Reached
  configs : ∀ c ∈ e.crews, c.desk.config.retention = retention
  sent : ∀ id m, e.store.get? id = some m → id ∈ e.site.sent
  /-- What is to be deleted was sent, and it has ended. -/
  ended : ∀ id ∈ e.discards retention, id ∈ e.site.sent ∧ ∀ m, e.store.get? id = some m → m.status.isTerminal = true
  /-- Under the purge all that has ended is to be deleted. -/
  purged : retention = .purge → ∀ id m, e.store.get? id = some m → m.status.isTerminal = true →
    id ∈ e.discards retention
  archived : retention = .archive → e.discards retention = []
  /-- What was deleted has not come back. -/
  deleted : ∀ id reply, .served (.delete id) reply ∈ e.site.answers →
    retention = .purge ∧ id ∈ e.site.sent ∧ e.store.get? id = none
  /-- What is missing was deleted. -/
  missing : ∀ id ∈ e.site.sent, e.store.get? id = none → ∃ reply, .served (.delete id) reply ∈ e.site.answers

namespace Swept

variable {asked : Option Asked}

theorem sweeps (swept : Swept retention e) (retains : e.Retains retention a) : ∃ asked, e.Sweeps retention a asked :=
  act_sweeps swept.reached.sound swept.configs retains

/-- What has ended and is still there had ended before, or ends now. -/
theorem ended_before (swept : Swept retention e) (retains : e.Retains retention a) (sweeps : e.Sweeps retention a asked)
    {id : MessageId} {m : Message} (stored : (e.act a).store.get? id = some m) (ended : m.status.isTerminal = true) :
    e.store.get? id = some m ∨ id ∈ e.store.finished asked := by
  have distinct := swept.reached.sound.distinct
  have after : (e.store.after asked).get? id = some m := sweeps.store ▸ stored
  rcases Store.ended_before distinct after ended with before | finished | ⟨now, sends⟩
  · exact Or.inl before
  · exact Or.inr finished
  · obtain ⟨⟨draft, since, drafted⟩, _⟩ := retains.sends now m (sweeps.sends now m sends)
    rw [drafted] at ended
    simp only [Message.ofDraft] at ended
    split at ended <;> cases ended

/-- What is missing stays so. -/
theorem absent_after (retains : e.Retains retention a) (sweeps : e.Sweeps retention a asked) {id : MessageId}
    (sent : id ∈ e.site.sent) (absent : e.store.get? id = none) : (e.act a).store.get? id = none := by
  refine Option.eq_none_iff_forall_ne_some.mpr fun m stored => ?_
  have after : (e.store.after asked).get? id = some m := sweeps.store ▸ stored
  obtain ⟨now, sends⟩ := Store.arrival_after absent after
  obtain ⟨_, fresh⟩ := retains.sends now m (sweeps.sends now m sends)
  have same := Store.get?_id stored
  exact fresh (same ▸ sent) (same ▸ absent)

/-- What has ended stays so while it is there. -/
theorem ended_after (swept : Swept retention e) (retains : e.Retains retention a) (sweeps : e.Sweeps retention a asked)
    {id : MessageId} (sent : id ∈ e.site.sent) (ended : ∀ m, e.store.get? id = some m → m.status.isTerminal = true)
    {m : Message} (stored : (e.act a).store.get? id = some m) : m.status.isTerminal = true := by
  have distinct := swept.reached.sound.distinct
  have after : (e.store.after asked).get? id = some m := sweeps.store ▸ stored
  cases before : e.store.get? id with
  | none =>
    rw [absent_after retains sweeps sent before] at stored
    cases stored
  | some m₀ => exact Store.terminal_after distinct before (ended m₀ before) after ▸ ended m₀ before

theorem deleted_act (swept : Swept retention e) (retains : e.Retains retention a) (sweeps : e.Sweeps retention a asked)
    {id : MessageId} {reply : Except Error Bool} (served : .served (.delete id) reply ∈ (e.act a).site.answers) :
    retention = .purge ∧ id ∈ (e.act a).site.sent ∧ (e.act a).store.get? id = none := by
  rw [sweeps.site.answers] at served
  rcases List.mem_append.mp served with now | before
  · obtain ⟨now, deletes⟩ := Store.asked_of_answers now
    have owed := sweeps.discards.deletes now id deletes
    refine ⟨?_, sweeps.site.mem_sent (swept.ended id owed).1, ?_⟩
    · cases kind : retention with
      | purge => rfl
      | archive =>
        rw [swept.archived kind] at owed
        cases owed
    · rw [sweeps.store, deletes]
      exact Store.deleted_after e.store now id
  · obtain ⟨purge, sent, absent⟩ := swept.deleted id reply before
    exact ⟨purge, sweeps.site.mem_sent sent, absent_after retains sweeps sent absent⟩

theorem missing_act (swept : Swept retention e) (sweeps : e.Sweeps retention a asked) {id : MessageId}
    (sent : id ∈ (e.act a).site.sent) (absent : (e.act a).store.get? id = none) :
    ∃ reply, .served (.delete id) reply ∈ (e.act a).site.answers := by
  have after : (e.store.after asked).get? id = none := sweeps.store ▸ absent
  rw [sweeps.site.answers]
  rw [Site.sent, sweeps.site.answers, List.filterMap_append] at sent
  rcases List.mem_append.mp sent with now | before
  · -- what is sent now is there
    obtain ⟨deed, answered, sends⟩ := List.mem_filterMap.mp now
    unfold Deed.sent? at sends
    split at sends
    · rename_i m reply
      cases sends
      obtain ⟨now, asks⟩ := Store.asked_of_answers answered
      have there : (e.store.enqueue m).get? m.id = none := by rwa [asks] at after
      rw [Store.get?_enqueue, if_pos rfl] at there
      cases there
    · cases sends
  · cases stored : e.store.get? id with
    | none =>
      obtain ⟨reply, served⟩ := swept.missing id before stored
      exact ⟨reply, List.mem_append_right _ served⟩
    | some m =>
      obtain ⟨now, deletes | removes⟩ := Store.gone_after swept.reached.sound.distinct stored after
      · rw [deletes]
        exact ⟨_, List.mem_append_left _ (List.mem_singleton_self _)⟩
      · exact absurd removes (sweeps.discards.spares now)

theorem act (swept : Swept retention e) (retains : e.Retains retention a) : Swept retention (e.act a) := by
  have sound := swept.reached.sound
  obtain ⟨asked, sweeps⟩ := swept.sweeps retains
  have sent := sweeps.site.stored_sent sound.distinct swept.sent
  refine ⟨.act e a swept.reached retains.allowed, ?_, sent, ?_, ?_, ?_,
    fun id reply => swept.deleted_act retains sweeps, fun id => swept.missing_act sweeps⟩
  · intro c' mem
    obtain ⟨i, found⟩ := List.mem_iff_getElem?.mp mem
    rcases act_sees sound retains.allowed found with ⟨c, before, seen⟩ | ⟨_, config, filter, ids, duties, joins, rfl⟩
    · exact (congrArg _ seen.config).trans (swept.configs c (List.mem_of_getElem? before))
    · exact retains.joins config filter ids duties joins
  · intro id mem
    rcases sweeps.discards.new id mem with mem | ⟨_, finished⟩
    · obtain ⟨before, ended⟩ := swept.ended id mem
      exact ⟨sweeps.site.mem_sent before, fun m => swept.ended_after retains sweeps before ended⟩
    · obtain ⟨m, after, ended⟩ := Store.terminal_of_finished sound.distinct finished
      have stored : (e.act a).store.get? id = some m := sweeps.store ▸ after
      exact ⟨sent id m stored, fun m' stored' => Option.some.inj (stored.symm.trans stored') ▸ ended⟩
  · intro purge id m stored ended
    rcases swept.ended_before retains sweeps stored ended with before | finished
    · rcases sweeps.discards.kept id (swept.purged purge id m before ended) with mem | ⟨now, deletes⟩
      · exact mem
      · have gone := Store.deleted_after e.store now id
        rw [← deletes, ← sweeps.store, stored] at gone
        cases gone
    · exact sweeps.discards.listed purge id finished
  · intro archive
    rw [List.eq_nil_iff_forall_not_mem]
    intro id mem
    rcases sweeps.discards.new id mem with mem | ⟨purge, _⟩
    · rw [swept.archived archive] at mem
      cases mem
    · cases archive.symm.trans purge

end Swept

namespace Retained

theorem left {bs : List Happening} (run : Retained retention e₀ (as ++ bs)) : Retained retention e₀ as :=
  ⟨run.settled, run.unserved, run.empty, run.nobody, run.retains.left⟩

theorem swept (run : Retained retention e₀ as) : Swept retention (e₀.acts as) := by
  have nothing : ∀ id, e₀.store.get? id = none := by
    intro id
    rw [Store.get?, run.empty]
    rfl
  have distinct : e₀.store.Distinct := by
    rw [Store.Distinct, run.empty]
    exact List.nodup_nil
  have none : e₀.discards retention = [] := by
    rw [discards, run.nobody]
    rfl
  have unanswered : e₀.site.answers = [] := by
    rw [Site.answers, run.unserved]
    rfl
  refine run.retains.induct ⟨.start e₀ run.settled distinct run.nobody, ?_, ?_, ?_, ?_, fun _ => none, ?_, ?_⟩
    fun e a => .act
  · rw [run.nobody]
    exact List.forall_mem_nil _
  · exact fun id m stored => absurd stored (by simp [nothing])
  · rw [none]
    exact List.forall_mem_nil _
  · exact fun _ id m stored => absurd stored (by simp [nothing])
  · rw [unanswered]
    exact fun _ _ served => absurd served List.not_mem_nil
  · rw [Site.sent, unanswered]
    exact List.forall_mem_nil _

/-- What is deleted in an act was to be deleted. -/
theorem deletes {before after : List Happening} (run : Retained retention e₀ (before ++ a :: after)) {id : MessageId}
    {reply : Except Error Bool}
    (served : ((e₀.acts before).act a).site.answers = .served (.delete id) reply :: (e₀.acts before).site.answers) :
    id ∈ (e₀.acts before).discards retention := by
  obtain ⟨asked, sweeps⟩ := run.left.swept.sweeps (run.retains before a after rfl)
  rw [sweeps.site.answers] at served
  have one : (e₀.acts before).store.answers asked = [.served (.delete id) reply] :=
    List.append_cancel_right served
  obtain ⟨now, deletes⟩ := Store.asked_of_answers (one ▸ List.mem_singleton_self _)
  exact sweeps.discards.deletes now id deletes

/-- What is so after the first part of a run, and is kept in every act of it, is so in the end. -/
theorem later {before after : List Happening} (run : Retained retention e₀ (before ++ after)) {P : Engine → Prop}
    (start : P (e₀.acts before))
    (act : ∀ e a asked, Swept retention e → e.Retains retention a → e.Sweeps retention a asked → P e → P (e.act a)) :
    P (e₀.acts (before ++ after)) := by
  have both := run.retains.right.induct (P := fun e => Swept retention e ∧ P e) ⟨run.left.swept, start⟩
    fun e a ⟨swept, holds⟩ retains => by
      obtain ⟨asked, sweeps⟩ := swept.sweeps retains
      exact ⟨swept.act retains, act e a asked swept retains sweeps holds⟩
  rw [acts, List.foldl_append]
  exact both.2

end Retained

end Engine

/-- In every run with one retention: what is deleted has ended, or is gone already; in an archive nothing is
ever deleted, and what was stored stays; and under the purge nothing that has ended is left when no worker is
about to record or purge and no monitor is in a pass over what expired. -/
theorem retention_exact {retention : Retention} {e₀ : Engine} {as : List Happening}
    (run : Engine.Retained retention e₀ as) :
    let e := e₀.acts as
    (∀ before a after, as = before ++ a :: after → ∀ id reply,
      ((e₀.acts before).act a).site.answers = .served (.delete id) reply :: (e₀.acts before).site.answers →
        ∀ m, (e₀.acts before).store.get? id = some m → m.status.isTerminal = true) ∧
    (retention = .archive →
      (∀ id reply, .served (.delete id) reply ∉ e.site.answers) ∧
        ∀ before after, as = before ++ after → ∀ id m, (e₀.acts before).store.get? id = some m →
          ∃ m', e.store.get? id = some m') ∧
    (retention = .purge → (∀ c ∈ e.crews, ∀ w ∈ c.workers, w.isFinishing = false) →
      (∀ c ∈ e.crews, ∀ m ∈ c.monitors, m.isExpiring = false) →
        ∀ m ∈ e.store.messages, m.status.isTerminal = false) := by
  intro e
  have swept := run.swept
  refine ⟨?_, fun archive => ⟨fun id reply served => ?_, ?_⟩, fun purge workers monitors m mem => ?_⟩
  · rintro before a after rfl id reply served m stored
    exact (run.left.swept.ended id (run.deletes served)).2 m stored
  · obtain ⟨purge, _⟩ := swept.deleted id reply served
    cases archive.symm.trans purge
  · rintro before after rfl id m stored
    have sent := run.later (P := (id ∈ ·.site.sent)) (run.left.swept.sent id m stored)
      fun _ _ _ _ _ sweeps => sweeps.site.mem_sent
    refine Option.ne_none_iff_exists'.mp fun absent => ?_
    obtain ⟨reply, served⟩ := swept.missing id sent absent
    cases archive.symm.trans (swept.deleted id reply served).1
  · refine Bool.eq_false_iff.mpr fun ended => ?_
    have stored := swept.reached.sound.distinct.get?_of_mem mem
    obtain ⟨c, mem, owed⟩ := List.mem_flatMap.mp (swept.purged purge m.id m stored ended)
    rcases List.mem_append.mp owed with owed | owed
    · obtain ⟨w, mem', owed⟩ := List.mem_flatMap.mp owed
      rw [Worker.discards_idle (workers c mem w mem')] at owed
      cases owed
    · obtain ⟨monitor, mem', owed⟩ := List.mem_flatMap.mp owed
      rw [Monitor.discards_idle (monitors c mem monitor mem')] at owed
      cases owed

namespace Engine

variable {retention : Retention} {e : Engine}

theorem Retains.join {config : QueueConfig} {filter : ClaimFilter} {ids : List WorkerId} {duties : List Duty}
    (allowed : e.allows (.join config filter ids duties) = true) (same : config.retention = retention) :
    e.Retains retention (.join config filter ids duties) := by
  refine ⟨allowed, fun _ _ _ _ joins => ?_, fun _ _ => nofun, fun _ _ => nofun⟩
  cases joins
  exact same

theorem Retains.send {now since : Instant} {id : MessageId} {draft : Draft}
    (allowed : e.allows (.request now (.enqueue (.ofDraft id draft since))) = true) (new : id ∉ e.site.sent) :
    e.Retains retention (.request now (.enqueue (.ofDraft id draft since))) := by
  refine ⟨allowed, fun _ _ _ _ => nofun, fun _ _ made => ?_, fun _ _ made => ?_⟩
  · cases made
    rfl
  · cases made
    exact ⟨⟨draft, since, rfl⟩, fun sent => absurd sent new⟩

theorem throughout_inner {as : List Happening} (inner : as.all isInner = true) :
    e.Throughout (Retains retention) as := by
  rintro before a after rfl
  have own : isInner a = true := List.all_eq_true.mp inner a (by simp)
  cases a with
  | move | wait => exact ⟨rfl, fun _ _ _ _ => nofun, fun _ _ => nofun, fun _ _ => nofun⟩
  | _ => cases own

end Engine

namespace Cleanup

open Happening (moves)

def queue : Engine := .blank {} fun _ => [{}]

/-- One message that a worker takes, and one that nobody takes within its second. -/
def start : List Happening :=
  [.request .epoch (.enqueue (.blank .nil)),
    .request .epoch (.enqueue (.ofDraft ⟨1⟩ { type := "other", body := [], expiration := some (.ofMillis 1000) } .epoch)),
    .join {} { types := ["job"] } [⟨"only"⟩] [.expiration]]

/-- The first message is complete, and not deleted yet. -/
def complete : List Happening := start ++ (moves (.worker 0) 14 ++ moves (.monitor 0) 1)

/-- It is deleted, and the other one expires and is deleted. -/
def rest : List Happening :=
  moves (.worker 0) 2 ++ [.wait (.ticking .epoch) 300_000] ++ moves (.monitor 0) 7

theorem retained : Engine.Retained .purge queue (complete ++ (.move ⟨0, .worker 0⟩ :: rest)) where
  settled := Engine.settled_blank _ _
  unserved := rfl
  empty := rfl
  nobody := rfl
  retains := by
    refine .append (.append ?_ (Engine.throughout_inner (by decide))) (Engine.throughout_inner (by decide))
    exact .cons (.send rfl nofun) (.cons (.send rfl (by decide)) (.cons (.join (by decide) rfl) .nil))

end Cleanup

/-- The complete message is deleted, and when worker and monitor are through, nothing that ended is left. -/
theorem retention_exact_cleanup :
    (∃ m, (Cleanup.queue.acts Cleanup.complete).store.get? .nil = some m ∧ m.status.isTerminal = true ∧
      ((Cleanup.queue.acts Cleanup.complete).act (.move ⟨0, .worker 0⟩)).store.get? .nil = none) ∧
    ∀ m ∈ (Cleanup.queue.acts (Cleanup.complete ++ (.move ⟨0, .worker 0⟩ :: Cleanup.rest))).store.messages,
      m.status.isTerminal = false := by
  have main := retention_exact Cleanup.retained
  have there : ((Cleanup.queue.acts Cleanup.complete).store.get? .nil).isSome = true := by decide +kernel
  obtain ⟨m, stored⟩ := Option.isSome_iff_exists.mp there
  refine ⟨⟨m, stored, ?_, by decide +kernel⟩, ?_⟩
  · exact main.1 Cleanup.complete (.move ⟨0, .worker 0⟩) Cleanup.rest rfl .nil (.ok true) rfl m stored
  · refine main.2.2 rfl ?_ ?_
    all_goals decide +kernel

end ClaimQueue
