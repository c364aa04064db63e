/-
  ClaimQueue.Proofs.Policy.Attempts — an execution, attempt by attempt.

  An attempt is a call of the operation or a made-up fault (`Trial`). What the policy makes of
  it depends on its result alone: a result that settles the matter ends the execution, any other
  is followed by a wait and the next attempt while retries are left, and after the last attempt
  it is wrapped. `Runs` says so once, for whatever the dice throw, and both ways to execute an
  operation are runs (`runs_execute`, `runs_executeBlocking`).

  From it follow the course of an execution: which attempts were made and what came of the last
  (`Runs.course`), how often the operation was called (`Runs.state_eq`), and what the waits were
  (`Runs.notes`).
-/

import ClaimQueue.Policy.Retry
import Mathlib.Algebra.GroupWithZero.Nat

namespace ClaimQueue

/-- What an attempt was. -/
inductive Trial (α : Type) where
  /-- A made-up fault in front of the operation. -/
  | struck
  /-- A call of the operation. -/
  | called (outcome : Except Error α)

namespace Trial

variable {α : Type}

def result (policy : String) : Trial α → Except Error α
  | .struck => .error (Chaos.fault policy)
  | .called outcome => outcome

def isCall : Trial α → Bool
  | .struck => false
  | .called _ => true

end Trial

/-- An operation with the outcomes `o 0`, `o 1` and so on; it counts its calls. -/
def scripted {α : Type} (o : Nat → Except Error α) (calls : Nat) : Except Error α × Nat := (o calls, calls + 1)

namespace Policy

variable {σ α : Type} {p : Policy} {op : σ → Except Error α × σ}

/-! ## One attempt -/

/-- Does the result of an attempt end the execution, whichever attempt it was? -/
def settles (p : Policy) : Except Error α → Bool
  | .ok _ => true
  | .error e => !p.retry.worth e

theorem judge_settled {r : Except Error α} (h : p.settles r = true) (n : UInt32) : p.judge n r = .done r := by
  cases r with
  | ok a => rfl
  | error e => simp only [judge, show (!p.retry.worth e) = true from h, if_true]

/-- An error that is worth another attempt gets one while retries are left, and is wrapped after that. -/
theorem judge_unsettled {r : Except Error α} (h : p.settles r = false) (n : UInt32) :
    ∃ e, r = .error e ∧
      (n < p.retry.count ∧ p.judge n r = .again e (n + 1) ∨
        ¬n < p.retry.count ∧ p.judge n r = .done (.error (.retriesExhausted p.name (n + 1) e))) := by
  cases r with
  | ok a => cases h
  | error e =>
    refine ⟨e, rfl, ?_⟩
    simp only [judge, show (!p.retry.worth e) = false from h, Bool.false_eq_true, if_false]
    by_cases left : n < p.retry.count
    · exact Or.inl ⟨left, by rw [if_pos left]⟩
    · exact Or.inr ⟨left, by rw [if_neg left]⟩

theorem judge_again_error {n next : UInt32} {r : Except Error α} {e : Error} (h : p.judge n r = .again e next) :
    p.settles r = false ∧ r = .error e := by
  have unsettled : p.settles r = false := by
    refine Bool.eq_false_iff.mpr fun settled => ?_
    rw [judge_settled settled] at h
    cases h
  obtain ⟨e', failed, ⟨_, again⟩ | ⟨_, exhausted⟩⟩ := judge_unsettled unsettled n
  · rw [again] at h
    cases h
    exact ⟨unsettled, failed⟩
  · rw [exhausted] at h
    cases h

/-- A fault is made up only where a retry is left. -/
theorem lt_of_strikes {n : UInt32} {throw : UInt64} (h : p.strikes n throw = true) : n.toNat < p.retry.count.toNat := by
  obtain ⟨c, _, hit⟩ := (Option.any_eq_true _ _).mp h
  simp only [Chaos.strikes, Bool.and_eq_true, decide_eq_true_eq] at hit
  exact UInt32.lt_iff_toNat_lt.mp hit.1.2

/-- What attempt `n` may be, whatever the dice throw, and what it leaves. -/
inductive Tries (p : Policy) (op : σ → Except Error α × σ) (n : UInt32) (s : σ) : Trial α → σ → Prop
  | struck (throw : UInt64) : p.strikes n throw = true → Tries p op n s .struck s
  | called (throw : UInt64) : p.strikes n throw = false → Tries p op n s (.called (op s).1) (op s).2

theorem tries_attempt (p : Policy) (op : σ → Except Error α × σ) (n : UInt32) (throw : UInt64) (s : σ) :
    ∃ trial, p.Tries op n s trial (p.attempt n throw op s).2 ∧ trial.result p.name = (p.attempt n throw op s).1 := by
  unfold attempt
  cases struck : p.strikes n throw with
  | true => exact ⟨.struck, .struck throw struck, rfl⟩
  | false => exact ⟨.called (op s).1, .called throw struck, rfl⟩

/-! ## Executions -/

namespace Execution

/-- The time that the first `k` waits take. -/
def waited (x : Execution σ α) (k : Nat) : Nat := ((x.notes.take k).map (·.wait.ticks)).sum

/-- `x`, with a retry before it. -/
def after (x : Execution σ α) (note : RetryNote) : Execution σ α := { x with notes := note :: x.notes }

variable (x : Execution σ α) (note : RetryNote)

@[simp] theorem after_result : (x.after note).result = x.result := rfl

@[simp] theorem after_state : (x.after note).state = x.state := rfl

@[simp] theorem after_notes : (x.after note).notes = note :: x.notes := rfl

@[simp] theorem waited_zero : x.waited 0 = 0 := rfl

@[simp] theorem after_waited (k : Nat) : (x.after note).waited (k + 1) = note.wait.ticks + x.waited k := rfl

theorem waited_succ {k : Nat} {note : RetryNote} (h : x.notes[k]? = some note) :
    x.waited (k + 1) = x.waited k + note.wait.ticks := by
  unfold waited
  rw [List.take_add_one, h, Option.toList_some, List.map_append, List.sum_append, List.map_singleton, List.sum_singleton]

theorem waited_eq {y : Execution σ α} {k : Nat} (h : y.notes = x.notes.take k) : y.waited k = x.waited k := by
  unfold waited
  rw [h, List.take_take, Nat.min_self]

end Execution

/-- The executions from attempt `n` on that nobody cancels, with their attempts. -/
inductive Runs (p : Policy) (op : σ → Except Error α × σ) : UInt32 → σ → List (Trial α) → Execution σ α → Prop
  | last {n : UInt32} {s s' : σ} {trial : Trial α} {result : Except Error α} {dice : Dice} {time : Nat} :
      p.Tries op n s trial s' → p.judge n (trial.result p.name) = .done result →
      Runs p op n s [trial] ⟨result, s', dice, time, []⟩
  | again {n next : UInt32} {s s' : σ} {trial : Trial α} {trials : List (Trial α)} {e : Error} {throw : UInt64}
      {rest : Execution σ α} {dice : Dice} {time : Nat} :
      p.Tries op n s trial s' → p.judge n (trial.result p.name) = .again e next → Runs p op next s' trials rest →
      Runs p op n s (trial :: trials)
        ⟨rest.result, rest.state, dice, time, ⟨p.name, next, p.retry.wait throw, e⟩ :: rest.notes⟩

section Unfolding

variable {n next : UInt32} {s : σ} {dice : Dice} {time : Nat} {e : Error} {result : Except Error α}

theorem executeFrom_eq (p : Policy) (op : σ → Except Error α × σ) (cancelAt : Option Nat) (n : UInt32) (s : σ)
    (dice : Dice) (time : Nat) :
    p.executeFrom op cancelAt n s dice time =
      let s' := (p.attempt n dice.throw.1 op s).2
      let wait := p.retry.wait dice.throw.2.throw.1
      match p.judge n (p.attempt n dice.throw.1 op s).1 with
      | .done result => ⟨result, s', dice.throw.2, time, []⟩
      | .again e next =>
        if cancelAt.any (· < time + wait.ticks) then
          ⟨.error e, s', dice.throw.2.throw.2, max time (cancelAt.getD time), [⟨p.name, next, wait, e⟩]⟩
        else
          (p.executeFrom op cancelAt next s' dice.throw.2.throw.2 (time + wait.ticks)).after ⟨p.name, next, wait, e⟩ := by
  rw [executeFrom]
  dsimp only
  split
  · rename_i judged
    rw [judged]
  · rename_i judged
    rw [judged]
    rfl

theorem executeFrom_done (cancelAt : Option Nat)
    (judged : p.judge n (p.attempt n dice.throw.1 op s).1 = .done result) :
    p.executeFrom op cancelAt n s dice time = ⟨result, (p.attempt n dice.throw.1 op s).2, dice.throw.2, time, []⟩ := by
  rw [executeFrom_eq, judged]

theorem executeFrom_again {cancelAt : Option Nat}
    (judged : p.judge n (p.attempt n dice.throw.1 op s).1 = .again e next)
    (late : ∀ c ∈ cancelAt, ¬c < time + (p.retry.wait dice.throw.2.throw.1).ticks) :
    p.executeFrom op cancelAt n s dice time =
      (p.executeFrom op cancelAt next (p.attempt n dice.throw.1 op s).2 dice.throw.2.throw.2
        (time + (p.retry.wait dice.throw.2.throw.1).ticks)).after ⟨p.name, next, p.retry.wait dice.throw.2.throw.1, e⟩ := by
  rw [executeFrom_eq, judged]
  refine if_neg fun any => ?_
  obtain ⟨c, cancelled, early⟩ := (Option.any_eq_true _ _).mp any
  exact late c cancelled (of_decide_eq_true early)

theorem executeFrom_early {c : Nat} (judged : p.judge n (p.attempt n dice.throw.1 op s).1 = .again e next)
    (early : c < time + (p.retry.wait dice.throw.2.throw.1).ticks) :
    p.executeFrom op (some c) n s dice time =
      ⟨.error e, (p.attempt n dice.throw.1 op s).2, dice.throw.2.throw.2, max time c,
        [⟨p.name, next, p.retry.wait dice.throw.2.throw.1, e⟩]⟩ := by
  rw [executeFrom_eq, judged]
  dsimp only
  rw [Option.any_some, decide_eq_true early, if_pos rfl, Option.getD_some]

theorem executeBlockingFrom_eq (p : Policy) (op : σ → Except Error α × σ) (n : UInt32) (s : σ) (dice : Dice) :
    p.executeBlockingFrom op n s dice =
      let s' := (p.attempt n dice.throw.1 op s).2
      match p.judge n (p.attempt n dice.throw.1 op s).1 with
      | .done result => ⟨result, s', dice.throw.2, 0, []⟩
      | .again e next =>
        (p.executeBlockingFrom op next s' dice.throw.2.throw.2).after
          ⟨p.name, next, p.retry.wait dice.throw.2.throw.1, e⟩ := by
  rw [executeBlockingFrom]
  dsimp only
  split
  · rename_i judged
    rw [judged]
  · rename_i judged
    rw [judged]
    rfl

theorem executeBlockingFrom_done (judged : p.judge n (p.attempt n dice.throw.1 op s).1 = .done result) :
    p.executeBlockingFrom op n s dice = ⟨result, (p.attempt n dice.throw.1 op s).2, dice.throw.2, 0, []⟩ := by
  rw [executeBlockingFrom_eq, judged]

theorem executeBlockingFrom_again (judged : p.judge n (p.attempt n dice.throw.1 op s).1 = .again e next) :
    p.executeBlockingFrom op n s dice =
      (p.executeBlockingFrom op next (p.attempt n dice.throw.1 op s).2 dice.throw.2.throw.2).after
        ⟨p.name, next, p.retry.wait dice.throw.2.throw.1, e⟩ := by
  rw [executeBlockingFrom_eq, judged]

end Unfolding

/-- What holds of an attempt that ends the execution, and of one that is followed by another of which it
holds, holds of every attempt: retries run out. -/
theorem attempts_induct (p : Policy) (op : σ → Except Error α × σ) {motive : UInt32 → σ → Dice → Prop}
    (done : ∀ n s (dice : Dice) result, p.judge n (p.attempt n dice.throw.1 op s).1 = .done result → motive n s dice)
    (again : ∀ n s (dice : Dice) e next, p.judge n (p.attempt n dice.throw.1 op s).1 = .again e next →
      motive next (p.attempt n dice.throw.1 op s).2 dice.throw.2.throw.2 → motive n s dice)
    (n : UInt32) (s : σ) (dice : Dice) : motive n s dice := by
  cases judged : p.judge n (p.attempt n dice.throw.1 op s).1 with
  | done result => exact done n s dice result judged
  | again e next =>
    have fewer := judge_again judged
    exact again n s dice e next judged (attempts_induct p op done again next _ _)
termination_by p.retry.count.toNat - n.toNat
decreasing_by omega

/-- Nobody cancels the one, nobody can cancel the other: with the same dice they are the same but for the time. -/
theorem executeFrom_none (p : Policy) (op : σ → Except Error α × σ) (n : UInt32) (s : σ) (dice : Dice) (time : Nat) :
    p.executeFrom op none n s dice time =
      let x := p.executeBlockingFrom op n s dice
      { x with time := time + x.waited x.notes.length } := by
  induction n, s, dice using attempts_induct p op generalizing time with
  | done n s dice result judged =>
    rw [executeFrom_done none judged, executeBlockingFrom_done judged]
    rfl
  | again n s dice e next judged ih =>
    rw [executeFrom_again judged (by simp), executeBlockingFrom_again judged, ih]
    dsimp only [Execution.after]
    simp only [Execution.waited, List.length_cons, List.take_succ_cons, List.map_cons, List.sum_cons]
    rw [Nat.add_assoc]

/-- Time passes in the waits only. -/
theorem executeFrom_time (p : Policy) (op : σ → Except Error α × σ) (n : UInt32) (s : σ) (dice : Dice) (time : Nat) :
    (p.executeFrom op none n s dice time).time =
      time + (p.executeFrom op none n s dice time).waited (p.executeFrom op none n s dice time).notes.length := by
  rw [executeFrom_none]
  rfl

theorem runs_executeBlockingFrom (p : Policy) (op : σ → Except Error α × σ) (n : UInt32) (s : σ) (dice : Dice) :
    ∃ trials, p.Runs op n s trials (p.executeBlockingFrom op n s dice) := by
  induction n, s, dice using attempts_induct p op with
  | done n s dice result judged =>
    obtain ⟨trial, tries, same⟩ := p.tries_attempt op n dice.throw.1 s
    rw [executeBlockingFrom_done judged]
    exact ⟨[trial], .last tries (same ▸ judged)⟩
  | again n s dice e next judged ih =>
    obtain ⟨trial, tries, same⟩ := p.tries_attempt op n dice.throw.1 s
    obtain ⟨trials, rest⟩ := ih
    rw [executeBlockingFrom_again judged]
    exact ⟨trial :: trials, .again tries (same ▸ judged) rest⟩

/-- Runs take no notice of the time. -/
theorem Runs.at_time {n : UInt32} {s : σ} {trials : List (Trial α)} {x : Execution σ α} (run : p.Runs op n s trials x)
    (time : Nat) : p.Runs op n s trials { x with time } := by
  cases run with
  | last tries judged => exact .last tries judged
  | again tries judged rest => exact .again tries judged rest

theorem runs_executeBlocking (p : Policy) (op : σ → Except Error α × σ) (s : σ) (dice : Dice) :
    ∃ trials, p.Runs op 0 s trials (p.executeBlocking op s dice) := p.runs_executeBlockingFrom op 0 s dice

theorem runs_execute (p : Policy) (op : σ → Except Error α × σ) (s : σ) (dice : Dice) :
    ∃ trials, p.Runs op 0 s trials (p.execute op none s dice) := by
  obtain ⟨trials, run⟩ := p.runs_executeBlocking op s dice
  unfold execute
  rw [executeFrom_none]
  exact ⟨trials, run.at_time _⟩

/-! ## The course of an execution -/

/-- How an execution went from attempt `n` on, with `last` after the attempts in `init`. -/
structure Course (p : Policy) (n : UInt32) (init : List (Trial α)) (last : Trial α) (x : Execution σ α) : Prop where
  retried : ∀ trial ∈ init, p.settles (trial.result p.name) = false
  waits : x.notes.length = init.length
  within : n.toNat + init.length ≤ p.retry.count.toNat
  /-- No fault is made up in the last attempt there is. -/
  spared : last.isCall = false → n.toNat + init.length < p.retry.count.toNat
  ends : p.settles (last.result p.name) = true ∧ x.result = last.result p.name ∨
    ∃ e, last.result p.name = .error e ∧ p.settles (last.result p.name) = false ∧
      n.toNat + init.length = p.retry.count.toNat ∧ x.result = .error (.retriesExhausted p.name (p.retry.count + 1) e)

namespace Runs

variable {n : UInt32} {s : σ} {trials : List (Trial α)} {x : Execution σ α}

theorem course (run : p.Runs op n s trials x) (few : n.toNat ≤ p.retry.count.toNat) :
    ∃ init last, trials = init ++ [last] ∧ p.Course n init last x := by
  induction run with
  | @last n s s' trial result dice time tries judged =>
    refine ⟨[], trial, rfl, nofun, rfl, few, ?_, ?_⟩
    · intro struck
      cases tries with
      | struck throw hit => exact lt_of_strikes hit
      | called throw _ => cases struck
    · cases settled : p.settles (trial.result p.name) with
      | true =>
        rw [judge_settled settled] at judged
        cases judged
        exact Or.inl ⟨rfl, rfl⟩
      | false =>
        obtain ⟨e, failed, ⟨left, again⟩ | ⟨none, exhausted⟩⟩ := judge_unsettled settled n
        · rw [again] at judged
          cases judged
        · -- the last retry was this one
          have none : ¬n.toNat < p.retry.count.toNat := none
          have last : n.toNat = p.retry.count.toNat := by omega
          rw [exhausted] at judged
          cases judged
          exact Or.inr ⟨e, failed, rfl, last, by rw [UInt32.toNat_inj.mp last]⟩
  | @again n next s s' trial trials e throw rest dice time tries judged _ ih =>
    obtain ⟨left, succ⟩ := judge_again judged
    obtain ⟨init, last, rfl, course⟩ := ih (by omega)
    have within := course.within
    refine ⟨trial :: init, last, rfl, ?_, ?_, ?_, ?_, ?_⟩
    · intro t ht
      rcases List.mem_cons.mp ht with rfl | ht
      · exact (judge_again_error judged).1
      · exact course.retried t ht
    · rw [List.length_cons, List.length_cons, course.waits]
    · rw [List.length_cons]
      omega
    · intro struck
      have := course.spared struck
      rw [List.length_cons]
      omega
    · rcases course.ends with settled | ⟨e, failed, unsettled, all, exhausted⟩
      · exact Or.inl settled
      · exact Or.inr ⟨e, failed, unsettled, by rw [List.length_cons]; omega, exhausted⟩

end Runs

/-- What a retry note says of the attempt `trial` before it, the one before attempt `next`. -/
structure Announces (p : Policy) (next : Nat) (trial : Trial α) (note : RetryNote) : Prop where
  policy : note.policy = p.name
  attempt : note.attempt.toNat = next
  error : trial.result p.name = .error note.error
  wait : ∃ throw, note.wait = p.retry.wait throw

/-- There is a note for every wait, and it tells of the attempt before. -/
theorem Runs.notes {n : UInt32} {s : σ} {trials : List (Trial α)} {x : Execution σ α} (run : p.Runs op n s trials x)
    {k : Nat} {note : RetryNote} (hk : x.notes[k]? = some note) :
    ∃ trial, trials[k]? = some trial ∧ p.Announces (n.toNat + k + 1) trial note := by
  induction run generalizing k with
  | last _ _ => cases hk
  | @again n next s s' trial trials e throw rest dice time _ judged _ ih =>
    obtain ⟨_, succ⟩ := judge_again judged
    cases k with
    | zero =>
      cases hk
      exact ⟨trial, rfl, rfl, succ, (judge_again_error judged).2, throw, rfl⟩
    | succ k =>
      obtain ⟨later, at_k, notes⟩ := ih hk
      have index : next.toNat + k + 1 = n.toNat + (k + 1) + 1 := by omega
      exact ⟨later, at_k, index ▸ notes⟩

/-! ## Calls -/

namespace Runs

variable {o : Nat → Except Error α} {n : UInt32} {calls : Nat} {trials : List (Trial α)} {x : Execution Nat α}

/-- The state counts the calls. -/
theorem state_eq (run : p.Runs (scripted o) n calls trials x) : x.state = calls + trials.countP (·.isCall) := by
  induction run with
  | last tries _ =>
    cases tries with
    | struck throw _ => rfl
    | called throw _ => rfl
  | again tries _ _ ih =>
    rw [ih]
    cases tries with
    | struck throw _ => rfl
    | called throw _ =>
      show _ + 1 + _ = _ + _
      rw [List.countP_cons_of_pos rfl]
      omega

/-- A call in the last attempt was the last call, and had the outcome of its number. -/
theorem last_outcome (run : p.Runs (scripted o) n calls trials x) {r : Except Error α}
    (last : trials.getLast? = some (.called r)) : calls < x.state ∧ r = o (x.state - 1) := by
  induction run with
  | last tries _ =>
    cases tries with
    | struck throw _ => cases last
    | called throw _ =>
      cases last
      exact ⟨Nat.lt_succ_self _, rfl⟩
  | @again n next calls calls' trial trials e throw rest dice time tries _ later ih =>
    have more : calls ≤ calls' := by
      cases tries with
      | struck throw _ => exact Nat.le_refl _
      | called throw _ => exact Nat.le_succ _
    have last : trials.getLast? = some (.called r) := by
      cases trials with
      | nil => cases later
      | cons t ts => rwa [List.getLast?_cons_cons] at last
    obtain ⟨called, outcome⟩ := ih last
    exact ⟨Nat.lt_of_le_of_lt more called, outcome⟩

end Runs

end Policy

end ClaimQueue
