/-
  ClaimQueue.Proofs.Policy.Retrying — both ways to execute an operation are the same bounded retry.

  Without faults every attempt is a call. The calls stop at the first outcome that settles the
  matter, or at the last attempt there is (`Concludes`); where they stop and with what result is
  determined by the outcomes alone (`Concludes.unique`), so the two loops cannot differ, however
  long they wait. Between two calls lies one wait, announced by one note, and it keeps to its
  bounds. A token that is cancelled before a wait is over ends `execute` in that wait, with the
  outcome before it (`executeFrom_cut`, `executeFrom_cancelled`).
-/

import ClaimQueue.Proofs.Policy.Attempts

namespace ClaimQueue

/-! ## The bounds of a wait -/

namespace Retry

theorem wait_le (r : Retry) (throw : UInt64) : (r.wait throw).nanos ≤ r.maxWait.nanos := by
  unfold wait
  split
  · exact Nat.le_refl _
  · have := Nat.mod_lt throw.toNat (show r.maxWait.nanos - r.minWait.nanos + 1 > 0 by omega)
    show r.minWait.nanos + throw.toNat % _ ≤ _
    omega

theorem le_wait (r : Retry) (throw : UInt64) : min r.minWait.nanos r.maxWait.nanos ≤ (r.wait throw).nanos := by
  unfold wait
  split
  · exact Nat.min_le_right _ _
  · exact Nat.le_trans (Nat.min_le_left _ _) (Nat.le_add_right _ _)

/-- Short of the largest count there is, the number of attempts is not cut short. -/
theorem maxAttempts_eq {r : Retry} (few : r.count ≠ 0xffffffff) :
    r.maxAttempts = r.count + 1 ∧ r.maxAttempts.toNat = r.count.toNat + 1 := by
  have attempts : r.maxAttempts = r.count + 1 := if_neg few
  have few : r.count.toNat ≠ 4294967295 := fun largest => few (UInt32.toNat_inj.mp largest)
  have := r.count.toNat_lt
  refine ⟨attempts, ?_⟩
  rw [attempts, UInt32.toNat_add, show (1 : UInt32).toNat = 1 from rfl]
  omega

end Retry

namespace Policy

variable {α : Type} {p : Policy} {o : Nat → Except Error α}

/-! ## The closed form -/

/-- `result` is what comes of the outcomes `o` when the last call is call `i`. -/
structure Concludes (p : Policy) (o : Nat → Except Error α) (i : Nat) (result : Except Error α) : Prop where
  retried : ∀ j < i, p.settles (o j) = false
  within : i ≤ p.retry.count.toNat
  ends : p.settles (o i) = true ∧ result = o i ∨
    ∃ e, o i = .error e ∧ p.settles (o i) = false ∧ i = p.retry.count.toNat ∧
      result = .error (.retriesExhausted p.name (p.retry.count + 1) e)

namespace Concludes

variable {i j : Nat} {result result' : Except Error α}

theorem le (a : p.Concludes o i result) (b : p.Concludes o j result') : i ≤ j := by
  refine Nat.le_of_not_lt fun less => ?_
  have retried := a.retried j less
  rcases b.ends with ⟨settled, _⟩ | ⟨e, _, _, all, _⟩
  · rw [retried] at settled
    cases settled
  · have := a.within
    omega

/-- The outcomes determine the last call and the result. -/
theorem unique (a : p.Concludes o i result) (b : p.Concludes o j result') : i = j ∧ result = result' := by
  have same : i = j := Nat.le_antisymm (a.le b) (b.le a)
  subst same
  refine ⟨rfl, ?_⟩
  rcases a.ends with ⟨settled, r⟩ | ⟨e, failed, unsettled, _, r⟩
  · rcases b.ends with ⟨_, r'⟩ | ⟨_, _, unsettled, _⟩
    · rw [r, r']
    · rw [settled] at unsettled
      cases unsettled
  · rcases b.ends with ⟨settled, _⟩ | ⟨e', failed', _, _, r'⟩
    · rw [unsettled] at settled
      cases settled
    · rw [failed] at failed'
      cases failed'
      rw [r, r']

end Concludes

/-- The retry that the settings promise: the calls of `x` and its waits. -/
structure BoundedRetry (p : Policy) (o : Nat → Except Error α) (x : Execution Nat α) : Prop where
  /-- The first outcome that settles the matter is the result. -/
  settled : ∀ i ≤ p.retry.count.toNat, p.settles (o i) = true → (∀ j < i, p.settles (o j) = false) →
    x.result = o i ∧ x.state = i + 1
  /-- If no attempt settles it, the error of the last one is wrapped. -/
  exhausted : (∀ i ≤ p.retry.count.toNat, p.settles (o i) = false) →
    ∃ e, o p.retry.count.toNat = .error e ∧ x.result = .error (.retriesExhausted p.name p.retry.maxAttempts e) ∧
      p.retry.maxAttempts.toNat = p.retry.count.toNat + 1 ∧ x.state = p.retry.count.toNat + 1
  /-- One wait lies between two calls. -/
  between : x.notes.length + 1 = x.state
  waits : ∀ k note, x.notes[k]? = some note →
    note.policy = p.name ∧ note.attempt.toNat = k + 1 ∧ o k = .error note.error ∧
      min p.retry.minWait.nanos p.retry.maxWait.nanos ≤ note.wait.nanos ∧ note.wait.nanos ≤ p.retry.maxWait.nanos

/-! ## Executions without faults -/

/-- No attempt is struck, whatever the dice throw. -/
def Calm (p : Policy) : Prop := ∀ n throw, p.strikes n throw = false

theorem calm_of_none (none : p.chaos = none) : p.Calm := by
  intro n throw
  rw [strikes, none]
  rfl

namespace Runs

variable {n : UInt32} {calls : Nat} {trials : List (Trial α)} {x : Execution Nat α}

/-- Attempt after attempt is a call, with the outcome of its number. -/
theorem called (calm : p.Calm) (run : p.Runs (scripted o) n calls trials x) {k : Nat} {trial : Trial α}
    (hk : trials[k]? = some trial) : trial = .called (o (calls + k)) := by
  induction run generalizing k with
  | @last n s _ t _ _ _ tries _ =>
    cases tries with
    | struck throw hit =>
      rw [calm n throw] at hit
      cases hit
    | called throw _ =>
      cases k with
      | zero => exact (Option.some.inj hk).symm
      | succ k => cases hk
  | @again n _ s _ t _ _ _ _ _ _ tries _ _ ih =>
    cases tries with
    | struck throw hit =>
      rw [calm n throw] at hit
      cases hit
    | called throw _ =>
      cases k with
      | zero => exact (Option.some.inj hk).symm
      | succ k =>
        have index : s + 1 + k = s + (k + 1) := by omega
        exact index ▸ ih hk

theorem state_eq_length (calm : p.Calm) (run : p.Runs (scripted o) n calls trials x) :
    x.state = calls + trials.length := by
  rw [run.state_eq, List.countP_eq_length.mpr]
  intro trial ht
  obtain ⟨k, hk⟩ := List.mem_iff_getElem?.mp ht
  rw [run.called calm hk]
  rfl

theorem concludes (calm : p.Calm) (run : p.Runs (scripted o) 0 0 trials x) :
    ∃ i, x.state = i + 1 ∧ x.notes.length = i ∧ p.Concludes o i x.result := by
  have calls := run.state_eq_length calm
  obtain ⟨init, last, rfl, course⟩ := run.course (Nat.zero_le _)
  have called : ∀ j trial, (init ++ [last])[j]? = some trial → trial = Trial.called (o j) := by
    intro j trial hj
    rw [run.called calm hj, Nat.zero_add]
  have final : last.result p.name = o init.length := by
    rw [called init.length last List.getElem?_concat_length]
    rfl
  have within := course.within
  have ends := course.ends
  rw [show (0 : UInt32).toNat = 0 from rfl, Nat.zero_add] at within ends
  rw [final] at ends
  refine ⟨init.length, ?_, course.waits, ?_, within, ends⟩
  · rw [calls, List.length_append, List.length_singleton, Nat.zero_add]
  · intro j hj
    have retried := course.retried init[j] (List.getElem_mem hj)
    rwa [called j init[j] (by rw [List.getElem?_append_left hj, List.getElem?_eq_getElem hj])] at retried

/-- The outcomes decide: neither the throws nor the time make a difference to the result or to the calls. -/
theorem same (calm : p.Calm) (run : p.Runs (scripted o) 0 0 trials x) {trials' : List (Trial α)} {y : Execution Nat α}
    (run' : p.Runs (scripted o) 0 0 trials' y) : y.result = x.result ∧ y.state = x.state := by
  obtain ⟨i, calls, _, concludes⟩ := run.concludes calm
  obtain ⟨j, calls', _, concludes'⟩ := run'.concludes calm
  obtain ⟨index, result⟩ := concludes'.unique concludes
  exact ⟨result, by rw [calls, calls', index]⟩

/-- A wait follows the call with its number, and keeps to its bounds. -/
theorem waits (calm : p.Calm) (run : p.Runs (scripted o) 0 0 trials x) {k : Nat} {note : RetryNote}
    (hk : x.notes[k]? = some note) :
    note.policy = p.name ∧ note.attempt.toNat = k + 1 ∧ o k = .error note.error ∧
      min p.retry.minWait.nanos p.retry.maxWait.nanos ≤ note.wait.nanos ∧ note.wait.nanos ≤ p.retry.maxWait.nanos := by
  obtain ⟨trial, at_k, announces⟩ := run.notes hk
  obtain ⟨throw, wait⟩ := announces.wait
  have failed := announces.error
  rw [run.called calm at_k, Nat.zero_add] at failed
  refine ⟨announces.policy, ?_, failed, ?_, ?_⟩
  · rw [announces.attempt, show (0 : UInt32).toNat = 0 from rfl, Nat.zero_add]
  · rw [wait]
    exact p.retry.le_wait throw
  · rw [wait]
    exact p.retry.wait_le throw

/-- A run without faults is the bounded retry. -/
theorem boundedRetry (calm : p.Calm) (few : p.retry.count ≠ 0xffffffff) (run : p.Runs (scripted o) 0 0 trials x) :
    p.BoundedRetry o x := by
  obtain ⟨i, calls, waits, concludes⟩ := run.concludes calm
  obtain ⟨attempts, count⟩ := Retry.maxAttempts_eq few
  refine ⟨?_, ?_, by rw [waits, calls], fun k note hk => run.waits calm hk⟩
  · intro j within settled retried
    obtain ⟨same, result⟩ := concludes.unique ⟨retried, within, Or.inl ⟨settled, rfl⟩⟩
    exact ⟨result, by rw [calls, same]⟩
  · intro retried
    have unsettled := retried _ (Nat.le_refl _)
    obtain ⟨e, failed, _⟩ := judge_unsettled unsettled 0
    obtain ⟨same, result⟩ := concludes.unique
      ⟨fun j hj => retried j (Nat.le_of_lt hj), Nat.le_refl _, Or.inr ⟨e, failed, unsettled, rfl, rfl⟩⟩
    exact ⟨e, failed, by rw [attempts, result], count, by rw [calls, same]⟩

end Runs

/-! ## Cancelling -/

theorem attempt_calm (calm : p.Calm) (op : Nat → Except Error α × Nat) (n : UInt32) (throw : UInt64) (calls : Nat) :
    p.attempt n throw op calls = op calls := by
  unfold attempt
  rw [calm n throw]
  rfl

/-- A token that is cancelled before a wait is over ends the execution there, with the outcome before the wait. -/
theorem executeFrom_cut (calm : p.Calm) (o : Nat → Except Error α) (c : Nat) (n : UInt32) (calls : Nat) (dice : Dice)
    (time k : Nat) (waits : k < (p.executeFrom (scripted o) (some c) n calls dice time).notes.length)
    (early : c < time + (p.executeFrom (scripted o) (some c) n calls dice time).waited (k + 1)) :
    (p.executeFrom (scripted o) (some c) n calls dice time).result = o (calls + k) ∧
      (p.executeFrom (scripted o) (some c) n calls dice time).state = calls + k + 1 := by
  induction n, calls, dice using attempts_induct p (scripted o) generalizing time k with
  | done n calls dice result judged =>
    rw [executeFrom_done (some c) judged] at waits
    cases waits
  | again n calls dice e next judged ih =>
    have failed := (judge_again_error judged).2
    by_cases soon : c < time + (p.retry.wait dice.throw.2.throw.1).ticks
    · rw [executeFrom_early judged soon] at waits ⊢
      have first : k = 0 := by simpa using waits
      rw [first, ← failed, attempt_calm calm]
      exact ⟨rfl, rfl⟩
    · have late : ∀ c' ∈ some c, ¬c' < time + (p.retry.wait dice.throw.2.throw.1).ticks := by
        rintro _ ⟨⟩
        exact soon
      rw [executeFrom_again judged late] at waits early ⊢
      cases k with
      | zero =>
        rw [Execution.after_waited, Execution.waited_zero, Nat.add_zero] at early
        exact absurd early soon
      | succ k =>
        rw [Execution.after_waited, ← Nat.add_assoc] at early
        obtain ⟨result, calls'⟩ := ih _ k (Nat.lt_of_succ_lt_succ waits) early
        rw [attempt_calm calm] at result calls' ⊢
        rw [Execution.after_result, Execution.after_state]
        have index : calls + 1 + k = calls + (k + 1) := by omega
        exact ⟨index ▸ result, index ▸ calls'⟩

/-- Up to the wait in which the token is cancelled, the waits are those of an execution that nobody cancels. -/
theorem executeFrom_cancelled (p : Policy) {σ : Type} (op : σ → Except Error α × σ) (c : Nat) (n : UInt32) (s : σ)
    (dice : Dice) (time k : Nat) (started : time + (p.executeFrom op none n s dice time).waited k ≤ c)
    (early : c < time + (p.executeFrom op none n s dice time).waited (k + 1)) :
    k < (p.executeFrom op none n s dice time).notes.length ∧
      (p.executeFrom op (some c) n s dice time).notes = (p.executeFrom op none n s dice time).notes.take (k + 1) := by
  induction n, s, dice using attempts_induct p op generalizing time k with
  | done n s dice result judged =>
    rw [executeFrom_done none judged] at early started
    exact absurd (Nat.lt_of_le_of_lt started early) (by simp [Execution.waited])
  | again n s dice e next judged ih =>
    rw [executeFrom_again judged (by simp)] at started early ⊢
    cases k with
    | zero =>
      rw [Execution.after_waited, Execution.waited_zero, Nat.add_zero] at early
      rw [executeFrom_early judged early]
      exact ⟨Nat.succ_pos _, rfl⟩
    | succ k =>
      rw [Execution.after_waited, ← Nat.add_assoc] at early started
      dsimp only at early started
      have late : ∀ c' ∈ some c, ¬c' < time + (p.retry.wait dice.throw.2.throw.1).ticks := by
        rintro _ ⟨⟩
        omega
      obtain ⟨waits, same⟩ := ih _ k started early
      rw [executeFrom_again judged late, Execution.after_notes, Execution.after_notes, same]
      exact ⟨Nat.succ_lt_succ waits, rfl⟩

/-! ## Both loops -/

/-- Both loops are the bounded retry of the settings, whatever the dice: they make the same calls and return the
same result. Time passes in the waits only, and a token that is cancelled before a wait is over ends the execution
in that wait: no further call is made, and the error of the last one is returned unwrapped. -/
theorem same_bounded_retry (p : Policy) (harmless : p.chaos = none) (few : p.retry.count ≠ 0xffffffff)
    (o : Nat → Except Error α) (dice dice' : Dice) :
    let run := p.execute (scripted o) none 0 dice
    let twin := p.executeBlocking (scripted o) 0 dice'
    p.BoundedRetry o run ∧ p.BoundedRetry o twin ∧ twin.result = run.result ∧ twin.state = run.state ∧
      run.time = run.waited run.notes.length ∧
      ∀ c k,
        let cut := p.execute (scripted o) (some c) 0 dice
        (k < cut.notes.length → c < cut.waited (k + 1) → cut.result = o k ∧ cut.state = k + 1) ∧
        (run.waited k ≤ c → c < run.waited (k + 1) →
          cut.result = o k ∧ cut.state = k + 1 ∧ cut.notes = run.notes.take (k + 1)) := by
  intro run twin
  have calm := calm_of_none harmless
  obtain ⟨trials, ran⟩ := p.runs_execute (scripted o) 0 dice
  obtain ⟨trials', ran'⟩ := p.runs_executeBlocking (scripted o) 0 dice'
  obtain ⟨result, calls⟩ := ran.same calm ran'
  refine ⟨ran.boundedRetry calm few, ran'.boundedRetry calm few, result, calls, ?_, fun c k => ?_⟩
  · have time := p.executeFrom_time (scripted o) 0 0 dice 0
    rwa [Nat.zero_add] at time
  · intro cut
    have ends : k < cut.notes.length → c < cut.waited (k + 1) → cut.result = o k ∧ cut.state = k + 1 := by
      intro waits early
      have ends := executeFrom_cut calm o c 0 0 dice 0 k waits (by rwa [Nat.zero_add])
      rwa [Nat.zero_add] at ends
    refine ⟨ends, fun started early => ?_⟩
    obtain ⟨waits, same⟩ :=
      executeFrom_cancelled p (scripted o) c 0 0 dice 0 k (by rwa [Nat.zero_add]) (by rwa [Nat.zero_add])
    have same : cut.notes = run.notes.take (k + 1) := same
    have reached : k < cut.notes.length := by
      rw [same, List.length_take]
      exact Nat.lt_min.mpr ⟨Nat.lt_succ_self k, waits⟩
    obtain ⟨result, calls⟩ := ends reached (by rwa [run.waited_eq same])
    exact ⟨result, calls, same⟩

/-! An operation that is down for two calls. -/

def patient : Policy := ⟨"patient", .ofWaits 3 (.ofMillis 5) (.ofMillis 20), none⟩

def flaky (call : Nat) : Except Error Nat := if call < 2 then .error (.transient "busy") else .ok call

theorem same_bounded_retry_flaky :
    patient.chaos = none ∧ patient.retry.count ≠ 0xffffffff ∧
      (patient.execute (scripted flaky) none 0 ⟨7⟩).result = .ok 2 ∧
      (patient.execute (scripted flaky) none 0 ⟨7⟩).state = 3 ∧
      (patient.executeBlocking (scripted flaky) 0 ⟨8⟩).result = .ok 2 ∧
      (patient.executeBlocking (scripted flaky) 0 ⟨8⟩).state = 3 ∧
      (patient.execute (scripted flaky) (some 0) 0 ⟨7⟩).result = .error (.transient "busy") ∧
      (patient.execute (scripted flaky) (some 0) 0 ⟨7⟩).state = 1 := by
  have few : patient.retry.count ≠ 0xffffffff := by decide
  obtain ⟨run, twin, result, calls, _, cancel⟩ := same_bounded_retry patient rfl few flaky ⟨7⟩ ⟨8⟩
  have down : ∀ j < 2, patient.settles (flaky j) = false := by decide
  obtain ⟨ran, state⟩ := run.settled 2 (by decide) rfl down
  have waits : (patient.execute (scripted flaky) none 0 ⟨7⟩).notes.length = 2 := by
    have := run.between
    omega
  obtain ⟨note, first⟩ : ∃ note, (patient.execute (scripted flaky) none 0 ⟨7⟩).notes[0]? = some note := 
    ⟨_, List.getElem?_eq_getElem (by omega)⟩
  obtain ⟨_, _, _, long, _⟩ := run.waits 0 note first
  have long : 5_000_000 ≤ note.wait.nanos := long
  have early : 0 < (patient.execute (scripted flaky) none 0 ⟨7⟩).waited 1 := by
    rw [Execution.waited_succ _ first]
    unfold Span.ticks
    omega
  obtain ⟨failed, once, _⟩ := (cancel 0 0).2 (Nat.le_refl 0) early
  exact ⟨rfl, few, ran, state, by rw [result, ran]; rfl, by rw [calls, state], failed, once⟩

end Policy

end ClaimQueue
