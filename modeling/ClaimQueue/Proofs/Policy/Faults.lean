/-
  ClaimQueue.Proofs.Policy.Faults — made-up faults alone never fail an operation for good.

  A fault is made up only in front of an attempt that has a retry left, so the last attempt
  there is always calls the operation (`Course.spared`). Hence what is wrapped at the end is
  never a made-up fault, and an operation that succeeds whenever it is called is called once,
  however many faults come before. Chaos that is switched off strikes nothing: each execution
  under it is one of the policy without chaos (`Runs.unharried`).

  All of it holds of every run, so whatever the dice throw; both ways to execute an operation
  are runs.
-/

import ClaimQueue.Proofs.Policy.Retrying

namespace ClaimQueue.Policy

variable {α : Type} {p : Policy} {o : Nat → Except Error α}

/-! ## Chaos that is switched off -/

theorem calm_of_disabled {c : Chaos} (chaos : p.chaos = some c) (off : c.enabled = false) : p.Calm := by
  intro n throw
  rw [strikes, chaos]
  show (c.enabled && _ && _) = false
  rw [off]
  rfl

/-- An execution without faults is one of the policy without chaos. -/
theorem Runs.unharried {σ : Type} {op : σ → Except Error α × σ} (calm : p.Calm) {n : UInt32} {s : σ}
    {trials : List (Trial α)} {x : Execution σ α} (run : p.Runs op n s trials x) :
    { p with chaos := none }.Runs op n s trials x := by
  have tries : ∀ {n s s'} {trial : Trial α},
      p.Tries op n s trial s' → { p with chaos := none }.Tries op n s trial s' := by
    intro n s s' trial tries
    cases tries with
    | struck throw hit =>
      rw [calm n throw] at hit
      cases hit
    | called throw _ => exact .called throw rfl
  induction run with
  | last tried judged => exact .last (tries tried) judged
  | again tried judged _ ih => exact .again (tries tried) judged ih

/-! ## Chaos that is switched on -/

/-- What made-up faults cannot do to an execution `x` with the attempts `trials`. -/
structure Withstands (p : Policy) (c : Chaos) (o : Nat → Except Error α) (trials : List (Trial α))
    (x : Execution Nat α) : Prop where
  /-- The operation has given up on its own retries, or the policy has: then the last attempt there is was a call, and
  its error is the one that is wrapped. -/
  exhausted : ∀ policy attempts e, x.result = .error (.retriesExhausted policy attempts e) →
    p.settles x.result = true ∧ trials.getLast? = some (.called x.result) ∨
      policy = p.name ∧ trials.length = p.retry.count.toNat + 1 ∧ trials.getLast? = some (.called (.error e)) ∧
        0 < x.state ∧ o (x.state - 1) = .error e
  calls : x.state ≤ p.retry.count.toNat + 1
  succeeds : (∀ text, p.retry.worth (.transient text) = true) → (∀ i, ∃ a, o i = .ok a) →
    (∃ a, x.result = .ok a) ∧ x.result = o 0 ∧ x.state = 1
  disabled : c.enabled = false → ∀ trials' y, { p with chaos := none }.Runs (scripted o) 0 0 trials' y →
    x.result = y.result ∧ x.state = y.state

namespace Runs

variable {trials : List (Trial α)} {x : Execution Nat α}

theorem exhausted (run : p.Runs (scripted o) 0 0 trials x) {policy : String} {attempts : UInt32} {e : Error}
    (wrapped : x.result = .error (.retriesExhausted policy attempts e)) :
    p.settles x.result = true ∧ trials.getLast? = some (.called x.result) ∨
      policy = p.name ∧ trials.length = p.retry.count.toNat + 1 ∧ trials.getLast? = some (.called (.error e)) ∧
        0 < x.state ∧ o (x.state - 1) = .error e := by
  obtain ⟨init, last, rfl, course⟩ := run.course (Nat.zero_le _)
  have final : (init ++ [last]).getLast? = some last := List.getLast?_concat
  rcases course.ends with ⟨settled, result⟩ | ⟨e', failed, _, all, result⟩
  · -- a made-up fault wraps nothing, so the operation itself did
    left
    rw [← result] at settled
    refine ⟨settled, ?_⟩
    cases last with
    | struck =>
      rw [result] at wrapped
      cases wrapped
    | called r =>
      rw [final, result]
      rfl
  · right
    rw [result] at wrapped
    cases wrapped
    cases last with
    | struck =>
      have spared := course.spared rfl
      exact absurd all (Nat.ne_of_lt spared)
    | called r =>
      have failed : r = .error e := failed
      subst failed
      obtain ⟨called, outcome⟩ := run.last_outcome final
      refine ⟨rfl, ?_, final, called, outcome.symm⟩
      rw [List.length_append, List.length_singleton, ← all, show (0 : UInt32).toNat = 0 from rfl, Nat.zero_add]

theorem calls_le (run : p.Runs (scripted o) 0 0 trials x) : x.state ≤ p.retry.count.toNat + 1 := by
  have calls := run.state_eq
  obtain ⟨init, last, rfl, course⟩ := run.course (Nat.zero_le _)
  have within := course.within
  have attempts : (init ++ [last]).countP (·.isCall) ≤ (init ++ [last]).length := List.countP_le_length
  rw [List.length_append, List.length_singleton] at attempts
  rw [show (0 : UInt32).toNat = 0 from rfl] at within
  omega

theorem fault_unsettled (retried : ∀ text, p.retry.worth (.transient text) = true) :
    p.settles (.error (Chaos.fault p.name) : Except Error α) = false := by
  show (!p.retry.worth (.transient _)) = false
  rw [retried]
  rfl

/-- Made-up faults are retried until the first call, which ends the execution. -/
theorem succeeds {n : UInt32} {calls : Nat} (run : p.Runs (scripted o) n calls trials x)
    (retried : ∀ text, p.retry.worth (.transient text) = true) (ok : ∀ i, ∃ a, o i = .ok a) :
    x.result = o calls ∧ x.state = calls + 1 := by
  induction run with
  | @last n calls _ _ result _ _ tries judged =>
    cases tries with
    | struck throw hit =>
      have left := lt_of_strikes hit
      obtain ⟨e, _, ⟨_, again⟩ | ⟨none, _⟩⟩ := judge_unsettled (fault_unsettled (α := α) retried) n
      · cases judged.symm.trans again
      · exact absurd left none
    | called throw _ =>
      have settled : p.settles (o calls) = true := by
        obtain ⟨a, returned⟩ := ok calls
        rw [returned]
        rfl
      cases judged.symm.trans (judge_settled settled n)
      exact ⟨rfl, rfl⟩
  | @again n _ calls _ _ _ _ _ _ _ _ tries judged _ ih =>
    cases tries with
    | struck throw _ => exact ih
    | called throw _ =>
      have unsettled : p.settles (o calls) = false := (judge_again_error judged).1
      obtain ⟨a, returned⟩ := ok calls
      rw [returned] at unsettled
      cases unsettled

/-- An operation that never settles the matter exhausts the policy, with or without faults. -/
theorem exhausts (run : p.Runs (scripted o) 0 0 trials x) (retried : ∀ text, p.retry.worth (.transient text) = true)
    (down : ∀ i, p.settles (o i) = false) :
    ∃ e, x.result = .error (.retriesExhausted p.name (p.retry.count + 1) e) := by
  obtain ⟨init, last, rfl, course⟩ := run.course (Nat.zero_le _)
  rcases course.ends with ⟨settled, _⟩ | ⟨e, _, _, _, result⟩
  · have unsettled : p.settles (last.result p.name) = false := by
      cases last with
      | struck => exact fault_unsettled retried
      | called r =>
        obtain ⟨_, outcome⟩ := run.last_outcome List.getLast?_concat
        show p.settles r = false
        rw [outcome]
        exact down _
    rw [unsettled] at settled
    cases settled
  · exact ⟨e, result⟩

end Runs

/-- Whatever the dice throw, made-up faults alone never fail an operation for good. -/
theorem faults_alone_never_exhaust (p : Policy) (c : Chaos) (chaos : p.chaos = some c) (o : Nat → Except Error α) :
    (∀ trials x, p.Runs (scripted o) 0 0 trials x → p.Withstands c o trials x) ∧
      ∀ dice, (∃ trials, p.Runs (scripted o) 0 0 trials (p.execute (scripted o) none 0 dice)) ∧
        ∃ trials, p.Runs (scripted o) 0 0 trials (p.executeBlocking (scripted o) 0 dice) := by
  constructor
  · intro trials x run
    refine ⟨fun _ _ _ wrapped => run.exhausted wrapped, run.calls_le, ?_, ?_⟩
    · intro retried ok
      obtain ⟨result, calls⟩ := run.succeeds retried ok
      obtain ⟨a, returned⟩ := ok 0
      exact ⟨⟨a, result.trans returned⟩, result, calls⟩
    · intro off trials' y run'
      have calm := calm_of_disabled chaos off
      exact run'.same (calm_of_none rfl) (run.unharried calm)
  · intro dice
    exact ⟨p.runs_execute (scripted o) 0 dice, p.runs_executeBlocking (scripted o) 0 dice⟩

/-! An operation that always succeeds, and one that always fails, each with a fault in front of its first attempt. -/

def harried : Policy := ⟨"harried", .ofWaits 1 (.ofMillis 5) (.ofMillis 5), some ⟨true, 1.0⟩⟩

def up (call : Nat) : Except Error Nat := .ok call

def down (_ : Nat) : Except Error Nat := .error (.transient "busy")

theorem faults_alone_never_exhaust_harried :
    harried.chaos = some ⟨true, 1.0⟩ ∧
      (harried.execute (scripted up) none 0 ⟨7⟩).result = .ok 0 ∧
      (harried.execute (scripted up) none 0 ⟨7⟩).state = 1 ∧
      (harried.executeBlocking (scripted down) 0 ⟨7⟩).result =
        .error (.retriesExhausted "harried" 2 (.transient "busy")) ∧
      (harried.executeBlocking (scripted down) 0 ⟨7⟩).state ≤ 2 := by
  obtain ⟨withstands, ways⟩ := faults_alone_never_exhaust harried ⟨true, 1.0⟩ rfl up
  obtain ⟨⟨trials, run⟩, _⟩ := ways ⟨7⟩
  obtain ⟨_, result, calls⟩ := (withstands trials _ run).succeeds (fun _ => rfl) (fun call => ⟨call, rfl⟩)
  obtain ⟨withstands', ways'⟩ := faults_alone_never_exhaust harried ⟨true, 1.0⟩ rfl down
  obtain ⟨_, trials', run'⟩ := ways' ⟨7⟩
  obtain ⟨e, wrapped⟩ := run'.exhausts (fun _ => rfl) (fun _ => rfl)
  have busy : e = .transient "busy" := by
    rcases (withstands' trials' _ run').exhausted _ _ _ wrapped with ⟨_, last⟩ | ⟨_, _, _, _, outcome⟩
    · obtain ⟨_, outcome⟩ := run'.last_outcome last
      rw [wrapped] at outcome
      cases outcome
    · cases outcome
      rfl
  exact ⟨rfl, result, calls, by rw [wrapped, busy]; rfl, (withstands' trials' _ run').calls⟩

end ClaimQueue.Policy
