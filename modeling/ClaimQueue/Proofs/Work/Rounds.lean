/-
  ClaimQueue.Proofs.Work.Rounds — what a worker is heard to do, round after round.

  A worker is heard by the calls it makes and by what they come back with (`Worker.signs`). All
  that it ever does is one round after another: a claim, and what follows from its result
  (`Round`). How long it pauses depends on the results since the last message alone (`streak`);
  the worker keeps that in two counters (`Counts`). `Goes` says how far it is in its round at
  each stage, and a step takes it on (`Heard.step`).

  Others may do anything to the site between two steps of the worker, and to the desk, as long
  as they keep the configuration and take no shutdown back (`Meddles`). So claims may come
  back with anything, at any time, and so may handlers. A worker that is asked to stop
  finishes the round that it is in, and claims no more (`stops`).

  Main statement: `worker_rounds`; `Rounds.follow` reads it at one claim.
-/

import ClaimQueue.Proofs.Work.Decisions
import ClaimQueue.Proofs.Work.Finishing

namespace ClaimQueue

abbrev ClaimResult := Except Error (Option Message)

namespace ClaimResult

def brings : ClaimResult → Bool
  | .ok (some _) => true
  | _ => false

def isNothing : ClaimResult → Bool
  | .ok none => true
  | _ => false

/-- An error other than a lost race. -/
def isFailure : ClaimResult → Bool
  | .error e => !e.isStale
  | _ => false

end ClaimResult

/-- A call that a worker makes, or what one came back with. -/
inductive Sign where
  | claim
  | claimed (result : ClaimResult)
  | handler (m : Message)
  | outcome (result : Outcome)
  | update (id : MessageId) (change : Change) (version : UInt64)
  | updated (result : Except Error Message)
  | delete (id : MessageId)
  | pause (ticks : Nat)

namespace Sign

def claimed? : Sign → Option ClaimResult
  | .claimed result => some result
  | _ => none

/-- The request that a call is for. -/
def request? (worker : WorkerId) (filter : ClaimFilter) : Sign → Option Request
  | .claim => some (.tryClaim worker filter)
  | .update id change version => some (.updateStatus id change version)
  | .delete id => some (.delete id)
  | _ => none

end Sign

/-- What a worker is heard to do when it goes from one stage to another at `time`. -/
def Stage.signs (time : Nat) : Stage → Stage → List Sign
  | .looking, .claiming _ => [.claim]
  | .claiming (.done result), .pausing wake => [.claimed result, .pause (wake - time)]
  | .claiming (.done result), _ => [.claimed result]
  | .emptyHanded, .pausing wake => [.pause (wake - time)]
  | .handling m _ .arriving, _ => [.handler m]
  | .handling _ _ (.done outcome), _ => [.outcome outcome]
  | .settling _ _, .recording m change _ => [.update m.id change m.version]
  | .recording _ _ (.done result), .purging m _ _ => [.updated result, .delete m.id]
  | .recording _ _ (.done result), _ => [.updated result]
  | _, _ => []

theorem Stage.claim_mem_signs {time : Nat} {src dst : Stage} (claims : Sign.claim ∈ src.signs time dst) :
    src = .looking ∧ ∃ call, dst = .claiming call := by
  unfold signs at claims
  split at claims
  · exact ⟨rfl, _, rfl⟩
  all_goals simp at claims

namespace Worker

/-- What the worker is heard to do in its next step. -/
def signs (w : Worker) (s : Scene) : List Sign := w.stage.signs s.time (w.step s).1.stage

/-! ## Streaks -/

/-- How many claims since the last that brought a message came back with what `p` holds of? -/
def streak (p : ClaimResult → Bool) (past : List Sign) : Nat :=
  ((past.filterMap (·.claimed?)).reverse.takeWhile (!·.brings)).countP p

theorem streak_append (p : ClaimResult → Bool) (past : List Sign) {round : List Sign} {result : ClaimResult}
    (once : round.filterMap (·.claimed?) = [result]) :
    streak p (past ++ round) = if result.brings then 0 else streak p past + if p result then 1 else 0 := by
  unfold streak
  rw [List.filterMap_append, once, List.reverse_append, List.reverse_singleton, List.singleton_append,
    List.takeWhile_cons]
  cases brings : result.brings with
  | true => rfl
  | false => exact List.countP_cons

/-! ## Rounds -/

section

variable (config : QueueConfig) (rollback : Bool)

/-- What follows a claim, by its result and by the past. -/
inductive Round (past : List Sign) : List Sign → Prop
  | nothing :
      Round past [.claim, .claimed (.ok none), .pause (config.emptyDelays.delayFor (streak (·.isNothing) past)).ticks]
  | raced (e : Error) : e.isStale = true → Round past [.claim, .claimed (.error e)]
  | failed (e : Error) : e.isStale = false →
      Round past
        [.claim, .claimed (.error e), .pause (config.fatalDelays.delayFor (streak (·.isFailure) past)).ticks]
  /-- The handler was cancelled, and the claim cannot be given back. -/
  | left (m : Message) (f : HandlerFault) : f.cancelled = true → rollback = false →
      Round past [.claim, .claimed (.ok (some m)), .handler m, .outcome (.error f)]
  /-- The update failed, or came too late. -/
  | lost (m : Message) (outcome : Outcome) (change : Change) (decided : Instant) (e : Error) :
      outcomeChange config rollback decided m outcome = some change →
      Round past
        [.claim, .claimed (.ok (some m)), .handler m, .outcome outcome, .update m.id change m.version,
          .updated (.error e)]
  | kept (m : Message) (outcome : Outcome) (change : Change) (decided : Instant) (updated : Message) :
      outcomeChange config rollback decided m outcome = some change →
      ¬(updated.status.isTerminal = true ∧ config.retention = .purge) →
      Round past
        [.claim, .claimed (.ok (some m)), .handler m, .outcome outcome, .update m.id change m.version,
          .updated (.ok updated)]
  | purged (m : Message) (outcome : Outcome) (change : Change) (decided : Instant) (updated : Message) :
      outcomeChange config rollback decided m outcome = some change →
      updated.status.isTerminal = true → config.retention = .purge →
      Round past
        [.claim, .claimed (.ok (some m)), .handler m, .outcome outcome, .update m.id change m.version,
          .updated (.ok updated), .delete m.id]

/-- One round after another. -/
inductive Rounds : List Sign → Prop
  | nil : Rounds []
  | append {past round : List Sign} : Rounds past → Round config rollback past round → Rounds (past ++ round)

end

section

variable {config : QueueConfig} {rollback : Bool} {heard past round : List Sign}

theorem Round.split (closed : Round config rollback past round) :
    ∃ result tail, round = .claim :: .claimed result :: tail ∧ ∀ sign ∈ tail, sign.claimed? = none := by
  cases closed <;> exact ⟨_, _, rfl, by simp [Sign.claimed?]⟩

/-- What follows a claim that came back, up to the next one. -/
theorem Rounds.follow (rounds : Rounds config rollback heard) {before after : List Sign} {result : ClaimResult}
    (back : heard = before ++ .claimed result :: after) :
    ∃ past tail rest, before = past ++ [.claim] ∧ after = tail ++ rest ∧
      Round config rollback past (.claim :: .claimed result :: tail) ∧ (rest = [] ∨ rest.head? = some .claim) := by
  induction rounds generalizing before after with
  | nil => exact absurd back (by simp)
  | @append past round rounds closed ih =>
    obtain ⟨first, tail, rfl, silent⟩ := closed.split
    rcases List.append_eq_append_iff.mp back with ⟨since, rfl, last⟩ | ⟨since, rfl, earlier⟩
    · -- it is the claim of the last round
      cases since with
      | nil => cases last
      | cons sign since =>
        cases since with
        | nil =>
          cases last
          exact ⟨past, after, [], rfl, (List.append_nil _).symm, closed, Or.inl rfl⟩
        | cons sign' since =>
          simp only [List.cons_append, List.cons.injEq] at last
          have later : Sign.claimed result ∈ tail := by
            rw [last.2.2]
            exact List.mem_append_right _ List.mem_cons_self
          cases silent _ later
    · cases since with
      | nil => cases earlier
      | cons sign since =>
        simp only [List.cons_append, List.cons.injEq] at earlier
        obtain ⟨rfl, rfl⟩ := earlier
        obtain ⟨past, tail', rest, split, rfl, closed', next⟩ := ih rfl
        refine ⟨past, tail', rest ++ _, split, List.append_assoc .., closed', Or.inr ?_⟩
        rcases next with rfl | next
        · rfl
        · rw [List.head?_append, next]
          rfl

end

/-! ## The worker in its round -/

/-- The counters of the worker are those of the past. -/
structure Counts (w : Worker) (past : List Sign) : Prop where
  nothing : w.emptyStreak = streak (·.isNothing) past
  failed : w.fatalStreak = streak (·.isFailure) past

/-- The counters of the worker are where they start. -/
structure Fresh (w : Worker) : Prop where
  nothing : w.emptyStreak = 0
  failed : w.fatalStreak = 0

/-- A message starts the counts over. -/
theorem Fresh.counts {w : Worker} (fresh : w.Fresh) (past : List Sign) {round : List Sign} {m : Message}
    (once : round.filterMap (·.claimed?) = [.ok (some m)]) : w.Counts (past ++ round) where
  nothing := by rw [streak_append _ past once]; exact fresh.nothing
  failed := by rw [streak_append _ past once]; exact fresh.failed

end Worker

/-- Is a worker at this stage between two rounds? -/
def Stage.rests : Stage → Bool
  | .starting | .looking | .enabling | .checking _ | .parked _ | .pausing _ | .leaving | .stopped => true
  | _ => false

/-- A handler is called once. -/
theorem Handling.step_started (handler : Handling) (worker : WorkerId) (m : Message) (token : Token) (s : Scene) :
    (handler.step worker m token s).1 ≠ .arriving := by
  have working : ∀ (plan : Plan) (time : Nat), work plan time ≠ .arriving := by
    intro plan time
    unfold work
    split
    · exact Handling.noConfusion
    · exact Handling.noConfusion
  cases handler with
  | arriving =>
    simp only [Handling.step]
    split
    · exact Handling.noConfusion
    · exact working _ _
  | minding plan =>
    simp only [Handling.step]
    split
    · exact working _ _
    · exact Handling.noConfusion
  | busy plan wake =>
    simp only [Handling.step]
    repeat' split
    all_goals exact Handling.noConfusion
  | ending | done => exact Handling.noConfusion

namespace Worker

/-- How far a worker is in its round, and what it was heard to do in it. -/
inductive Goes (config : QueueConfig) (rollback : Bool) (w : Worker) (past : List Sign) : Stage → List Sign → Prop
  | resting {stage : Stage} : stage.rests = true → w.Counts past → Goes config rollback w past stage []
  | claiming (call : Call (Option Message)) : w.Counts past →
      Goes config rollback w past (.claiming call) [.claim]
  | emptyHanded : w.Counts past → Goes config rollback w past .emptyHanded [.claim, .claimed (.ok none)]
  | found (m : Message) : Goes config rollback w past (.found m) [.claim, .claimed (.ok (some m))]
  | announcing (m : Message) : w.Fresh →
      Goes config rollback w past (.announcing m) [.claim, .claimed (.ok (some m))]
  | opening (m : Message) : w.Fresh → Goes config rollback w past (.opening m) [.claim, .claimed (.ok (some m))]
  | arriving (m : Message) (token : Token) : w.Fresh →
      Goes config rollback w past (.handling m token .arriving) [.claim, .claimed (.ok (some m))]
  | handling (m : Message) (token : Token) (handler : Handling) : handler ≠ .arriving → w.Fresh →
      Goes config rollback w past (.handling m token handler) [.claim, .claimed (.ok (some m)), .handler m]
  | returned (m : Message) (outcome : Outcome) : w.Fresh →
      Goes config rollback w past (.returned m outcome)
        [.claim, .claimed (.ok (some m)), .handler m, .outcome outcome]
  | settling (m : Message) (outcome : Outcome) : w.Fresh →
      Goes config rollback w past (.settling m outcome)
        [.claim, .claimed (.ok (some m)), .handler m, .outcome outcome]
  | recording (m : Message) (outcome : Outcome) (change : Change) (decided : Instant) (call : Call Message) :
      outcomeChange config rollback decided m outcome = some change → w.Fresh →
      Goes config rollback w past (.recording m change call)
        [.claim, .claimed (.ok (some m)), .handler m, .outcome outcome, .update m.id change m.version]
  /-- A purge ends its round, whatever comes of it. -/
  | purging (m : Message) (change : Change) (call : Call Bool) : past.getLast? = some (.delete m.id) → w.Counts past →
      Goes config rollback w past (.purging m change call) []

/-- A worker was heard to do `heard` so far. -/
def Heard (config : QueueConfig) (rollback : Bool) (w : Worker) (heard : List Sign) : Prop :=
  ∃ past now, heard = past ++ now ∧ Rounds config rollback past ∧ Goes config rollback w past w.stage now

section

variable {config : QueueConfig} {rollback : Bool} {w : Worker} {past round : List Sign}

theorem Rounds.goes (rounds : Rounds config rollback past) (goes : Goes config rollback w past w.stage round) :
    Heard config rollback w (past ++ round) := ⟨past, round, rfl, rounds, goes⟩

theorem Rounds.closes (rounds : Rounds config rollback past) (closed : Round config rollback past round)
    (rests : w.stage.rests = true) (counts : w.Counts (past ++ round)) : Heard config rollback w (past ++ round) :=
  ⟨past ++ round, [], (List.append_nil _).symm, rounds.append closed, .resting rests counts⟩

/-- A round with a message leaves the worker looking for another. -/
theorem Rounds.looks (rounds : Rounds config rollback past) (closed : Round config rollback past round) {m : Message}
    (once : round.filterMap (·.claimed?) = [.ok (some m)]) (fresh : w.Fresh) :
    Heard config rollback { w with stage := .looking } (past ++ round) :=
  have fresh : Fresh { w with stage := .looking } := ⟨fresh.nothing, fresh.failed⟩
  rounds.closes closed rfl (fresh.counts past once)

/-- A round that ends with a purge is over when the purge begins. -/
theorem Rounds.purges (rounds : Rounds config rollback past) (closed : Round config rollback past round) {m : Message}
    (once : round.filterMap (·.claimed?) = [.ok (some m)]) (last : round.getLast? = some (.delete m.id))
    (fresh : w.Fresh) (change : Change) (call : Call Bool) :
    Heard config rollback { w with stage := .purging m change call } (past ++ round) := by
  have fresh : Fresh { w with stage := .purging m change call } := ⟨fresh.nothing, fresh.failed⟩
  refine ⟨past ++ round, [], (List.append_nil _).symm, rounds.append closed, ?_⟩
  refine .purging m change call ?_ (fresh.counts past once)
  rw [List.getLast?_append, last]
  rfl

/-- A step of the worker takes it on in its round. -/
theorem Heard.step {s : Scene} (configured : s.desk.config = config)
    (able : s.site.backend.capabilities.rollback = rollback) {heard : List Sign}
    (sofar : Heard config rollback w heard) : Heard config rollback (w.step s).1 (heard ++ w.signs s) := by
  obtain ⟨past, now, rfl, rounds, goes⟩ := sofar
  obtain ⟨index, id, idle, emptyStreak, fatalStreak, stage⟩ := w
  let w : Worker := ⟨index, id, idle, emptyStreak, fatalStreak, stage⟩
  change Goes config rollback w past stage now at goes
  rw [List.append_assoc]
  show Heard config rollback (w.step s).1 (past ++ (now ++ stage.signs s.time (w.step s).1.stage))
  -- once the handler is called it is at work, or ended
  have handles : ∀ (m : Message) (token : Token) (handler : Handling), w.Fresh →
      Heard config rollback { w with stage := .handling m token (handler.step id m token s).1 }
        (past ++ [.claim, .claimed (.ok (some m)), .handler m]) := by
    intro m token handler fresh
    exact rounds.goes (.handling m token _ (handler.step_started id m token s) ⟨fresh.nothing, fresh.failed⟩)
  cases goes with
  | resting rests counts =>
    -- between two rounds nothing is heard but the next claim
    have quiet : ∀ w' : Worker, w'.stage.rests = true → w'.emptyStreak = w.emptyStreak →
        w'.fatalStreak = w.fatalStreak → Heard config rollback w' (past ++ ([] ++ [])) := by
      intro w' rests nothing failed
      exact rounds.goes (.resting rests ⟨nothing.trans counts.nothing, failed.trans counts.failed⟩)
    cases stage with
    | looking =>
      simp only [w, Worker.step]
      split
      · exact quiet _ rfl rfl rfl
      · split
        · exact quiet _ rfl rfl rfl
        · exact rounds.goes (.claiming .start ⟨counts.nothing, counts.failed⟩)
    | starting | enabling | leaving | stopped => exact quiet _ rfl rfl rfl
    | checking ticket =>
      simp only [w, Worker.step]
      split
      · exact quiet _ rfl rfl rfl
      · exact quiet _ rfl rfl rfl
    | parked ticket =>
      simp only [w, Worker.step]
      repeat' split
      all_goals exact quiet _ rfl rfl rfl
    | pausing wake =>
      simp only [w, Worker.step]
      repeat' split
      all_goals exact quiet _ rfl rfl rfl
    | _ => cases rests
  | claiming call counts =>
    cases call with
    | attempting n => exact rounds.goes (.claiming _ ⟨counts.nothing, counts.failed⟩)
    | waiting n e wake => exact rounds.goes (.claiming _ ⟨counts.nothing, counts.failed⟩)
    | done result =>
      cases result with
      | ok m =>
        cases m with
        | none => exact rounds.goes (.emptyHanded ⟨counts.nothing, counts.failed⟩)
        | some m => exact rounds.goes (.found m)
      | error e =>
        simp only [w, Worker.step, claimed]
        split
        · -- a lost race counts for nothing
          rename_i raced
          have stale : ClaimResult.isFailure (.error e) = false := by simp [ClaimResult.isFailure, raced]
          refine rounds.closes (.raced e raced) rfl ⟨?_, ?_⟩
          · rw [streak_append _ past rfl]
            exact counts.nothing
          · rw [streak_append _ past rfl, stale]
            exact counts.failed
        · rename_i failed
          have fatal : ClaimResult.isFailure (.error e) = true := by simp [ClaimResult.isFailure, failed]
          have pause : s.time + (s.desk.config.fatalDelays.delayFor fatalStreak).ticks - s.time =
              (config.fatalDelays.delayFor (streak (·.isFailure) past)).ticks := by
            rw [Nat.add_sub_cancel_left, configured, ← counts.failed]
          dsimp only [Stage.signs]
          rw [pause]
          refine rounds.closes (.failed e (by simpa using failed)) rfl ⟨?_, ?_⟩
          · rw [streak_append _ past rfl]
            exact counts.nothing
          · rw [streak_append _ past rfl, fatal]
            exact congrArg (· + 1) counts.failed
  | emptyHanded counts =>
    have pause : s.time + (s.desk.config.emptyDelays.delayFor emptyStreak).ticks - s.time =
        (config.emptyDelays.delayFor (streak (·.isNothing) past)).ticks := by
      rw [Nat.add_sub_cancel_left, configured, ← counts.nothing]
    simp only [w, Worker.step, Stage.signs]
    rw [pause]
    refine rounds.closes .nothing rfl ⟨?_, ?_⟩
    · rw [streak_append _ past rfl]
      exact congrArg (· + 1) counts.nothing
    · rw [streak_append _ past rfl]
      exact counts.failed
  | found m => exact rounds.goes (.announcing m ⟨rfl, rfl⟩)
  | announcing m fresh => exact rounds.goes (.opening m ⟨fresh.nothing, fresh.failed⟩)
  | opening m fresh => exact rounds.goes (.arriving m _ ⟨fresh.nothing, fresh.failed⟩)
  | arriving m token fresh => exact handles m token .arriving fresh
  | handling m token handler started fresh =>
    have next := handles m token handler fresh
    cases handler with
    | arriving => exact absurd rfl started
    | done outcome => exact rounds.goes (.returned m outcome ⟨fresh.nothing, fresh.failed⟩)
    | _ => exact next
  | returned m outcome fresh => exact rounds.goes (.settling m outcome ⟨fresh.nothing, fresh.failed⟩)
  | settling m outcome fresh =>
    simp only [w, Worker.step, configured, able]
    cases chosen : outcomeChange config rollback s.site.now m outcome with
    | some change =>
      exact rounds.goes (.recording m outcome change _ .start chosen ⟨fresh.nothing, fresh.failed⟩)
    | none =>
      obtain ⟨f, rfl, cancelled, unable⟩ := outcomeChange_none chosen
      have looks := rounds.looks (.left m f cancelled unable) rfl fresh
      exact looks
  | recording m outcome change decided call chosen fresh =>
    cases call with
    | attempting n => exact rounds.goes (.recording m outcome change decided _ chosen ⟨fresh.nothing, fresh.failed⟩)
    | waiting n e wake =>
      exact rounds.goes (.recording m outcome change decided _ chosen ⟨fresh.nothing, fresh.failed⟩)
    | done result =>
      cases result with
      | error e =>
        have looks := rounds.looks (.lost m outcome change decided e chosen) rfl fresh
        exact looks
      | ok updated =>
        simp only [w, Worker.step, recorded]
        split
        · rename_i purge
          obtain ⟨terminal, purge⟩ : updated.status.isTerminal = true ∧ s.desk.config.retention = .purge := by
            simpa [Scene.note] using purge
          have purges := rounds.purges (.purged m outcome change decided updated chosen terminal (configured ▸ purge))
            rfl rfl fresh change .start
          exact purges
        · rename_i keep
          have keep : ¬(updated.status.isTerminal = true ∧ config.retention = .purge) := by
            simpa [Scene.note, configured] using keep
          have looks := rounds.looks (.kept m outcome change decided updated chosen keep) rfl fresh
          exact looks
  | purging m change call last counts =>
    cases call with
    | done result => exact rounds.goes (.resting rfl ⟨counts.nothing, counts.failed⟩)
    | attempting n => exact rounds.goes (.purging m change _ last ⟨counts.nothing, counts.failed⟩)
    | waiting n e wake => exact rounds.goes (.purging m change _ last ⟨counts.nothing, counts.failed⟩)

end

section

variable {config : QueueConfig} {rollback : Bool} {w : Worker} {past now : List Sign} {stage : Stage}

theorem Goes.rests (goes : Goes config rollback w past stage now) (rests : stage.rests = true) : now = [] := by
  cases goes with
  | resting | purging => rfl
  | _ => cases rests

/-- What was heard so far is the beginning of a round. -/
theorem Goes.within (goes : Goes config rollback w past stage now) :
    ∃ round, Round config rollback past round ∧ now <+: round := by
  -- a round with `m`, up to its outcome
  have handled : ∀ (m : Message) (outcome : Outcome), ∃ round, Round config rollback past round ∧
      [.claim, .claimed (.ok (some m)), .handler m, .outcome outcome] <+: round := by
    intro m outcome
    cases chosen : outcomeChange config rollback .epoch m outcome with
    | some change => exact ⟨_, .lost m outcome change .epoch (.transient "") chosen, ⟨_, rfl⟩⟩
    | none =>
      obtain ⟨f, rfl, cancelled, unable⟩ := outcomeChange_none chosen
      exact ⟨_, .left m f cancelled unable, List.prefix_rfl⟩
  have taken : ∀ (m : Message) {now : List Sign},
      now <+: [.claim, .claimed (.ok (some m)), .handler m, .outcome (.ok ())] →
      ∃ round, Round config rollback past round ∧ now <+: round := by
    intro m now within
    obtain ⟨round, closed, further⟩ := handled m (.ok ())
    exact ⟨round, closed, within.trans further⟩
  cases goes with
  | resting | purging => exact ⟨_, .nothing, List.nil_prefix⟩
  | claiming => exact ⟨_, .nothing, ⟨_, rfl⟩⟩
  | emptyHanded => exact ⟨_, .nothing, ⟨_, rfl⟩⟩
  | found m | announcing m | opening m | arriving m => exact taken m ⟨_, rfl⟩
  | handling m => exact taken m ⟨_, rfl⟩
  | returned m outcome | settling m outcome => exact handled m outcome
  | recording m outcome change decided call chosen =>
    exact ⟨_, .lost m outcome change decided (.transient "") chosen, ⟨_, rfl⟩⟩

end

/-! ## The scene -/

/-- The request of the call that the worker is in. -/
def asks? (w : Worker) (filter : ClaimFilter) : Option Request :=
  match w.stage with
  | .claiming _ => some (.tryClaim w.id filter)
  | .recording m change _ => some (.updateStatus m.id change m.version)
  | .purging m _ _ => some (.delete m.id)
  | _ => none

/-- All that a step in which `asked` may be served changes of what decides over the rounds. -/
structure Touches (asked : Option Request) (s s' : Scene) : Prop where
  config : s'.desk.config = s.desk.config
  shutdown : s'.desk.tokens.shutdown = s.desk.tokens.shutdown
  capabilities : s'.site.backend.capabilities = s.site.backend.capabilities
  store : s'.site.store = s.site.store ∨
    ∃ r, asked = some r ∧ s'.site.store = (s.site.store.serve s.site.now r).2

theorem touches_call {r : Request} (s : Scene) (cancelled : Bool) (scopes : List Scope) (call : Call r.Reply) :
    Touches (some r) s (s.advance r cancelled scopes call).2 := by
  refine ⟨rfl, rfl, Call.step_capabilities cancelled scopes call, ?_⟩
  rcases Call.step_store (s := s.site) cancelled scopes call with kept | served
  · exact Or.inl kept
  · exact Or.inr ⟨r, rfl, served⟩

theorem touches_handler (s : Scene) (worker : WorkerId) (m : Message) (token : Token) (handler : Handling) :
    Touches none s (handler.step worker m token s).2 := by
  cases handler with
  | busy plan wake =>
    simp only [Handling.step]
    repeat' split
    all_goals exact ⟨rfl, rfl, rfl, Or.inl rfl⟩
  | _ => exact ⟨rfl, rfl, rfl, Or.inl rfl⟩

theorem step_touches (w : Worker) (s : Scene) : Touches (w.asks? s.desk.filter) s (w.step s).2 := by
  obtain ⟨index, id, idle, emptyStreak, fatalStreak, stage⟩ := w
  cases stage with
  | claiming call =>
    cases call with
    | attempting n => exact touches_call s s.desk.tokens.shutdown [] (.attempting n)
    | waiting n e wake => exact touches_call s s.desk.tokens.shutdown [] (.waiting n e wake)
    | done result =>
      simp only [Worker.step]
      unfold claimed
      repeat' split
      all_goals exact ⟨rfl, rfl, rfl, Or.inl rfl⟩
  | handling m token handler =>
    have next := touches_handler s id m token handler
    cases handler with
    | done outcome => exact ⟨rfl, rfl, rfl, Or.inl rfl⟩
    | _ => exact next
  | recording m change call =>
    cases call with
    | attempting n => exact touches_call s false _ (.attempting n)
    | waiting n e wake => exact touches_call s false [] (.waiting n e wake)
    | done result =>
      simp only [Worker.step]
      unfold recorded
      split
      · dsimp only
        split
        all_goals exact ⟨rfl, rfl, rfl, Or.inl rfl⟩
      · exact ⟨rfl, rfl, rfl, Or.inl rfl⟩
  | purging m change call =>
    cases call with
    | attempting n => exact touches_call s false _ (.attempting n)
    | waiting n e wake => exact touches_call s false [] (.waiting n e wake)
    | done result => cases result <;> exact ⟨rfl, rfl, rfl, Or.inl rfl⟩
  | _ =>
    simp only [Worker.step]
    repeat' split
    all_goals exact ⟨rfl, rfl, rfl, Or.inl rfl⟩

/-- A worker is in no call but the one that it was last heard to make. -/
theorem Heard.asks {config : QueueConfig} {rollback : Bool} {w : Worker} {heard : List Sign} (filter : ClaimFilter)
    (sofar : Heard config rollback w heard) {r : Request} (asks : w.asks? filter = some r) :
    ∃ sign, heard.getLast? = some sign ∧ sign.request? w.id filter = some r := by
  obtain ⟨past, now, rfl, -, goes⟩ := sofar
  unfold asks? at asks
  generalize w.stage = stage at goes asks
  cases goes with
  | claiming call =>
    cases asks
    exact ⟨.claim, by simp, rfl⟩
  | recording m outcome change decided call =>
    cases asks
    exact ⟨.update m.id change m.version, by simp, rfl⟩
  | purging m change call last =>
    cases asks
    exact ⟨.delete m.id, by rw [List.append_nil, last], rfl⟩
  | resting rests =>
    cases stage with
    | claiming | recording | purging => cases rests
    | _ => cases asks
  | _ => cases asks

/-! ## Runs -/

/-- What others may do between two steps of the worker. -/
structure Meddles (s s' : Scene) : Prop where
  config : s'.desk.config = s.desk.config
  rollback : s'.site.backend.capabilities.rollback = s.site.backend.capabilities.rollback
  shutdown : s.desk.tokens.shutdown = true → s'.desk.tokens.shutdown = true

/-- Others do nothing, and time passes. -/
def Waits (s s' : Scene) : Prop := ∃ time, s.time ≤ time ∧ s' = s.waitUntil time

/-- The worker makes steps in which it is heard, and in between others do what they may. -/
inductive Runs (others : Scene → Scene → Prop) (w : Worker) (s : Scene) : List Sign → Worker → Scene → Prop
  | rest : Runs others w s [] w s
  | step {heard : List Sign} {w' : Worker} {s' : Scene} : Runs others w s heard w' s' →
      Runs others w s (heard ++ w'.signs s') (w'.step s').1 (w'.step s').2
  | others {heard : List Sign} {w' : Worker} {s' s'' : Scene} : Runs others w s heard w' s' → others s' s'' →
      Runs others w s heard w' s''

section

variable {others others' : Scene → Scene → Prop} {w w' w'' : Worker} {s s' s'' : Scene} {heard heard' : List Sign}

theorem Runs.trans (first : Runs others w s heard w' s') (second : Runs others w' s' heard' w'' s'') :
    Runs others w s (heard ++ heard') w'' s'' := by
  induction second with
  | rest => simpa only [List.append_nil] using first
  | step _ ih => exact List.append_assoc heard _ _ ▸ .step ih
  | others _ does ih => exact .others ih does

theorem Runs.mono (allowed : ∀ s s', others s s' → others' s s') (runs : Runs others w s heard w' s') :
    Runs others' w s heard w' s' := by
  induction runs with
  | rest => exact .rest
  | step _ ih => exact .step ih
  | others _ does ih => exact .others ih (allowed _ _ does)

theorem Waits.meddles (waits : Waits s s') : Meddles s s' := by
  obtain ⟨time, _, rfl⟩ := waits
  exact ⟨rfl, rfl, fun down => down⟩

/-- What stays as it is over a run, but for a shutdown that comes. -/
theorem Runs.meddles (runs : Runs Meddles w s heard w' s') : Meddles s s' := by
  induction runs with
  | rest => exact ⟨rfl, rfl, fun down => down⟩
  | @step _ w' s' _ ih =>
    have touches := step_touches w' s'
    refine ⟨touches.config.trans ih.config, ?_, fun down => touches.shutdown.trans (ih.shutdown down)⟩
    exact (congrArg Capabilities.rollback touches.capabilities).trans ih.rollback
  | others _ does ih =>
    exact ⟨does.config.trans ih.config, does.rollback.trans ih.rollback, fun down => does.shutdown (ih.shutdown down)⟩

theorem Runs.rounds (starting : w.stage = .starting) (fresh : w.Fresh) (runs : Runs Meddles w s heard w' s') :
    Heard s.desk.config s.site.backend.capabilities.rollback w' heard := by
  induction runs with
  | rest =>
    refine ⟨[], [], rfl, .nil, ?_⟩
    rw [starting]
    exact .resting rfl ⟨fresh.nothing, fresh.failed⟩
  | step runs ih => exact ih.step runs.meddles.config runs.meddles.rollback
  | others _ _ ih => exact ih

/-! ## The shutdown -/

/-- No claim starts while the workers are asked to stop. -/
theorem claim_not_mem_signs (down : s.desk.tokens.shutdown = true) : Sign.claim ∉ w.signs s := by
  intro claims
  obtain ⟨looking, call, claiming⟩ := Stage.claim_mem_signs claims
  have leaving : (w.step s).1.stage = .leaving := by
    simp only [Worker.step, looking, if_pos down]
    rfl
  rw [leaving] at claiming
  cases claiming

theorem Runs.claims_no_more (down : s.desk.tokens.shutdown = true) (runs : Runs Meddles w s heard w' s') :
    Sign.claim ∉ heard := by
  induction runs with
  | rest => exact List.not_mem_nil
  | step runs ih =>
    rw [List.mem_append, not_or]
    exact ⟨ih, claim_not_mem_signs (runs.meddles.shutdown down)⟩
  | others _ _ ih => exact ih

/-- Does the worker stop in the end, if others leave it alone? -/
def Stops (w : Worker) (s : Scene) : Prop := ∃ heard w' s', Runs Waits w s heard w' s' ∧ w'.stage = .stopped

theorem Stops.step (stops : Stops (w.step s).1 (w.step s).2) : Stops w s := by
  obtain ⟨heard, w', s', runs, stopped⟩ := stops
  exact ⟨_, w', s', (Runs.step .rest).trans runs, stopped⟩

theorem Stops.waits (time : Nat) (later : s.time ≤ time) (stops : Stops w (s.waitUntil time)) : Stops w s := by
  obtain ⟨heard, w', s', runs, stopped⟩ := stops
  exact ⟨_, w', s', (Runs.others .rest ⟨time, later, rfl⟩).trans runs, stopped⟩

theorem stops_leaving (leaving : w.stage = .leaving) : Stops w s := by
  refine .step ⟨[], _, _, .rest, ?_⟩
  rw [Worker.step, leaving]

theorem stops_looking (down : s.desk.tokens.shutdown = true) (looking : w.stage = .looking) : Stops w s := by
  refine .step (stops_leaving ?_)
  rw [Worker.step, looking]
  simp only [if_pos down]
  rfl

/-- A worker that gets through with its message stops then. -/
theorem GetsThrough.stops (down : s.desk.tokens.shutdown = true) (through : GetsThrough w s) : Stops w s := by
  obtain ⟨times, w', s', alone, looking⟩ := through
  induction alone with
  | rest => exact stops_looking down looking
  | @step w _ s _ _ _ _ ih => exact .step (ih ((step_touches w s).shutdown.trans down) looking)
  | waits time later _ ih => exact .waits time later (ih down looking)

theorem stops_returned {m : Message} {outcome : Outcome} (down : s.desk.tokens.shutdown = true)
    (returned : w.stage = .returned m outcome) : Stops w s := by
  have settling : (w.step s).1.stage = .settling m outcome := by
    rw [Worker.step, returned]
    rfl
  have through : GetsThrough w s := .step (by simp [returned]) (getsThrough_settling settling)
  exact through.stops down

theorem shutdown_step (down : s.desk.tokens.shutdown = true) (w : Worker) :
    (w.step s).2.desk.tokens.shutdown = true := (step_touches w s).shutdown.trans down

section

variable {m : Message} {token : Token} {handler : Handling}

theorem step_handling (handling : w.stage = .handling m token handler) (undone : ∀ outcome, handler ≠ .done outcome) :
    (w.step s).1.stage = .handling m token (handler.step w.id m token s).1 := by
  rw [Worker.step, handling]
  cases handler with
  | done outcome => exact absurd rfl (undone outcome)
  | _ => rfl

theorem stops_done {outcome : Outcome} (down : s.desk.tokens.shutdown = true)
    (done : w.stage = .handling m token (.done outcome)) : Stops w s := by
  have returned : (w.step s).1.stage = .returned m outcome := by
    rw [Worker.step, done]
    rfl
  exact .step (stops_returned (shutdown_step down w) returned)

theorem stops_ending {how : Ending} (down : s.desk.tokens.shutdown = true)
    (ending : w.stage = .handling m token (.ending how)) : Stops w s :=
  .step (stops_done (shutdown_step down w) (step_handling ending (by simp)))

theorem stops_busy {plan : Plan} {wake : Nat} (down : s.desk.tokens.shutdown = true)
    (busy : w.stage = .handling m token (.busy plan wake)) : Stops w s := by
  let time := max s.time wake
  have due : wake ≤ (s.waitUntil time).time := Nat.le_max_right ..
  obtain ⟨how, ending⟩ : ∃ how, (Handling.step w.id m token (s.waitUntil time) (.busy plan wake)).1 = .ending how := by
    simp only [Handling.step, if_pos due]
    split
    · exact ⟨_, rfl⟩
    · exact ⟨_, rfl⟩
  have down' : (s.waitUntil time).desk.tokens.shutdown = true := down
  have next := step_handling (s := s.waitUntil time) busy (by simp)
  rw [ending] at next
  exact .waits time (Nat.le_max_left ..) (.step (stops_ending (shutdown_step down' w) next))

theorem stops_working {plan : Plan} {time : Nat} (down : s.desk.tokens.shutdown = true)
    (working : w.stage = .handling m token (Handling.work plan time)) : Stops w s := by
  unfold Handling.work at working
  split at working
  · exact stops_ending down working
  · exact stops_busy down working

/-- A handler that waits to be cancelled is cancelled now. -/
theorem stops_minding {plan : Plan} (down : s.desk.tokens.shutdown = true)
    (minding : w.stage = .handling m token (.minding plan)) : Stops w s := by
  have cancelled : s.desk.tokens.isCancelled token = true := by simp [Tokens.isCancelled, down]
  have next := step_handling (s := s) minding (by simp)
  simp only [Handling.step, if_pos cancelled] at next
  exact .step (stops_working (shutdown_step down w) next)

theorem stops_handling (down : s.desk.tokens.shutdown = true) (handling : w.stage = .handling m token handler) :
    Stops w s := by
  cases handler with
  | done outcome => exact stops_done down handling
  | ending how => exact stops_ending down handling
  | busy plan wake => exact stops_busy down handling
  | minding plan => exact stops_minding down handling
  | arriving =>
    have next := step_handling (s := s) handling (by simp)
    simp only [Handling.step] at next
    split at next
    · exact .step (stops_minding (shutdown_step down w) next)
    · exact .step (stops_working (shutdown_step down w) next)

end

theorem stops_opening {m : Message} (down : s.desk.tokens.shutdown = true) (opening : w.stage = .opening m) :
    Stops w s := by
  have handling : (w.step s).1.stage = .handling m s.desk.tokens.issue.1 .arriving := by
    rw [Worker.step, opening]
    rfl
  exact .step (stops_handling (shutdown_step down w) handling)

theorem stops_announcing {m : Message} (down : s.desk.tokens.shutdown = true) (announcing : w.stage = .announcing m) :
    Stops w s := by
  have opening : (w.step s).1.stage = .opening m := by
    rw [Worker.step, announcing]
    rfl
  exact .step (stops_opening (shutdown_step down w) opening)

theorem stops_found {m : Message} (down : s.desk.tokens.shutdown = true) (found : w.stage = .found m) :
    Stops w s := by
  have announcing : (w.step s).1.stage = .announcing m := by
    rw [Worker.step, found]
  exact .step (stops_announcing (shutdown_step down w) announcing)

theorem stops_pausing {wake : Nat} (down : s.desk.tokens.shutdown = true) (pausing : w.stage = .pausing wake) :
    Stops w s := by
  have leaving : (w.step s).1.stage = .leaving := by
    rw [Worker.step, pausing]
    simp only [if_pos down]
    rfl
  exact .step (stops_leaving leaving)

theorem stops_emptyHanded (down : s.desk.tokens.shutdown = true) (empty : w.stage = .emptyHanded) : Stops w s := by
  have pausing : ∃ wake, (w.step s).1.stage = .pausing wake := by
    rw [Worker.step, empty]
    exact ⟨_, rfl⟩
  obtain ⟨wake, pausing⟩ := pausing
  exact .step (stops_pausing (shutdown_step down w) pausing)

theorem stops_claimed {result : ClaimResult} (down : s.desk.tokens.shutdown = true)
    (claimed : w.stage = .claiming (.done result)) : Stops w s := by
  have next : w.step s = w.claimed s result := by
    rw [Worker.step, claimed]
  have down' := shutdown_step down w
  refine .step ?_
  rw [next] at down' ⊢
  unfold Worker.claimed at down' ⊢
  split
  · exact stops_found down' rfl
  · exact stops_emptyHanded down' rfl
  · split
    · exact stops_looking down rfl
    · exact stops_pausing down rfl

/-- A claim that the shutdown finds under way makes one more attempt at most. -/
theorem stops_claiming {call : Call (Option Message)} (down : s.desk.tokens.shutdown = true)
    (claiming : w.stage = .claiming call) : Stops w s := by
  have waiting : ∀ (w : Worker) (s : Scene) (n : UInt32) (e : Error) (wake : Nat), s.desk.tokens.shutdown = true →
      w.stage = .claiming (.waiting n e wake) → Stops w s := by
    intro w s n e wake down waiting
    have done : (w.step s).1.stage = .claiming (.done (.error e)) := by
      rw [Worker.step, waiting]
      simp only [Scene.advance, Call.step, if_pos down]
      rfl
    exact .step (stops_claimed (shutdown_step down w) done)
  cases call with
  | done result => exact stops_claimed down claiming
  | waiting n e wake => exact waiting w s n e wake down claiming
  | attempting n =>
    have next : (w.step s).1.stage =
        .claiming (s.advance (.tryClaim w.id s.desk.filter) s.desk.tokens.shutdown [] (.attempting n)).1 := by
      rw [Worker.step, claiming]
      rfl
    simp only [Scene.advance, Call.step] at next
    split at next
    · exact .step (stops_claimed (shutdown_step down w) next)
    · split at next
      · exact .step (stops_claimed (shutdown_step down w) next)
      · exact .step (waiting _ _ _ _ _ (shutdown_step down w) next)

theorem stops_parked {ticket : Nat} (down : s.desk.tokens.shutdown = true) (parked : w.stage = .parked ticket) :
    Stops w s := by
  have leaving : (w.step s).1.stage = .leaving := by
    rw [Worker.step, parked]
    simp only [if_pos down]
    rfl
  exact .step (stops_leaving leaving)

theorem stops_checking {ticket : Nat} (down : s.desk.tokens.shutdown = true) (checking : w.stage = .checking ticket) :
    Stops w s := by
  have down' := shutdown_step down w
  refine .step ?_
  rw [Worker.step, checking] at down' ⊢
  dsimp only at down' ⊢
  split
  · exact stops_parked down rfl
  · exact stops_looking down rfl

/-- A worker that is asked to stop finishes what it has begun, and stops. -/
theorem stops (down : s.desk.tokens.shutdown = true) (w : Worker) : Stops w s := by
  cases stage : w.stage with
  | starting =>
    have looking : (w.step s).1.stage = .looking := by
      rw [Worker.step, stage]
      rfl
    exact .step (stops_looking (shutdown_step down w) looking)
  | looking => exact stops_looking down stage
  | enabling =>
    have checking : (w.step s).1.stage = .checking s.desk.bench.wakes := by
      rw [Worker.step, stage]
      rfl
    exact .step (stops_checking (shutdown_step down w) checking)
  | checking ticket => exact stops_checking down stage
  | parked ticket => exact stops_parked down stage
  | claiming call => exact stops_claiming down stage
  | found m => exact stops_found down stage
  | announcing m => exact stops_announcing down stage
  | opening m => exact stops_opening down stage
  | handling m token handler => exact stops_handling down stage
  | returned m outcome => exact stops_returned down stage
  | settling m outcome => exact (getsThrough_settling stage).stops down
  | recording m change call => exact (getsThrough_recording stage).stops down
  | purging m change call => exact (getsThrough_purging stage).stops down
  | emptyHanded => exact stops_emptyHanded down stage
  | pausing wake => exact stops_pausing down stage
  | leaving => exact stops_leaving stage
  | stopped => exact ⟨[], w, s, .rest, stage⟩

end

end Worker

/-- Whatever claims come back with, and whatever handlers come to, a worker that starts is heard to do one round after
another. Its requests are those that it was heard to make. Once it is asked to stop it claims no more; if others then
leave it alone it finishes the round that it is in, and stops. -/
theorem worker_rounds {w w' : Worker} {s s' : Scene} {heard : List Sign} (starting : w.stage = .starting)
    (fresh : w.Fresh) (runs : w.Runs Worker.Meddles s heard w' s') :
    let config := s.desk.config
    let rollback := s.site.backend.capabilities.rollback
    (∃ past now round, heard = past ++ now ∧ Worker.Rounds config rollback past ∧
      Worker.Round config rollback past round ∧ now <+: round ∧ (w'.stage.rests = true → now = [])) ∧
    ((w'.step s').2.site.store = s'.site.store ∨
      ∃ sign r, heard.getLast? = some sign ∧ sign.request? w'.id s'.desk.filter = some r ∧
        (w'.step s').2.site.store = (s'.site.store.serve s'.site.now r).2) ∧
    (s'.desk.tokens.shutdown = true →
      (∀ more w'' s'', w'.Runs Worker.Meddles s' more w'' s'' → Sign.claim ∉ more) ∧
      ∃ more w'' s'', w'.Runs Worker.Waits s' more w'' s'' ∧ w''.stage = .stopped ∧
        Worker.Rounds config rollback (heard ++ more)) := by
  intro config rollback
  have sofar := runs.rounds starting fresh
  refine ⟨?_, ?_, fun down => ⟨fun more w'' s'' runs => runs.claims_no_more down, ?_⟩⟩
  · obtain ⟨past, now, split, rounds, goes⟩ := sofar
    obtain ⟨round, closed, within⟩ := goes.within
    exact ⟨past, now, round, split, rounds, closed, within, goes.rests⟩
  · rcases (Worker.step_touches w' s').store with kept | ⟨r, asks, served⟩
    · exact Or.inl kept
    · obtain ⟨sign, last, request⟩ := sofar.asks s'.desk.filter asks
      exact Or.inr ⟨sign, r, last, request, served⟩
  · obtain ⟨more, w'', s'', on, stopped⟩ := Worker.stops down w'
    have whole := runs.trans (on.mono fun _ _ => Worker.Waits.meddles)
    obtain ⟨past, now, split, rounds, goes⟩ := whole.rounds starting fresh
    refine ⟨more, w'', s'', on, stopped, ?_⟩
    rw [stopped] at goes
    rw [split, goes.rests rfl, List.append_nil]
    exact rounds

namespace Errand

/-- The one message of the queue. -/
def m : Message := .ofDraft .nil { type := "job", body := [] } .epoch

def scene : Scene where
  site := {
    backend := { name := "jobs", store := Store.empty.enqueue m }
    policies := Policies.empty.withDefaults {}
    clock := .manual .epoch }
  desk := .ofConfig {} {}

def worker : Worker := { index := 0, id := ⟨"only"⟩ }

/-- The worker has claimed, and then the workers are asked to stop. -/
def claimed : Worker × Scene :=
  let step := fun ((w, s) : Worker × Scene) => w.step s
  let (w, s) := step (step (step (step (worker, scene))))
  (w, s.setTokens s.desk.tokens.shutDown)

def heard : List Sign := [.claim, .claimed (.ok (some (m.claim ⟨"only"⟩ .epoch)))]

theorem runs : worker.Runs Worker.Meddles scene heard claimed.1 claimed.2 :=
  .others (.step (.step (.step (.step .rest)))) ⟨rfl, rfl, fun _ => rfl⟩

end Errand

/-- The message that was claimed before the shutdown is handed to its handler, and the outcome recorded. -/
theorem worker_rounds_stopping :
    ∃ more w s, Errand.claimed.1.Runs Worker.Waits Errand.claimed.2 more w s ∧ w.stage = .stopped ∧
      Sign.claim ∉ more ∧ ∃ m outcome change rest, Errand.heard = [.claim, .claimed (.ok (some m))] ∧
        more = .handler m :: .outcome outcome :: .update m.id change m.version :: rest := by
  obtain ⟨-, -, stopping⟩ := worker_rounds rfl ⟨rfl, rfl⟩ Errand.runs
  obtain ⟨claims, more, w, s, on, stopped, rounds⟩ := stopping rfl
  have silent : Sign.claim ∉ more := claims more w s (on.mono fun _ _ => Worker.Waits.meddles)
  refine ⟨more, w, s, on, stopped, silent, Errand.m.claim ⟨"only"⟩ .epoch, ?_⟩
  have back : Errand.heard ++ more =
      [.claim] ++ .claimed (.ok (some (Errand.m.claim ⟨"only"⟩ .epoch))) :: more := rfl
  obtain ⟨past, tail, rest, -, rfl, closed, last⟩ := rounds.follow back
  obtain rfl : rest = [] := by
    rcases last with none | next
    · exact none
    · exact absurd (List.mem_append_right _ (List.mem_of_mem_head? next)) silent
  cases closed with
  | left m f cancelled unable => cases unable
  | lost m outcome change decided e => exact ⟨outcome, change, _, rfl, rfl⟩
  | kept m outcome change decided updated => exact ⟨outcome, change, _, rfl, rfl⟩
  | purged m outcome change decided updated => exact ⟨outcome, change, _, rfl, rfl⟩

end ClaimQueue
