/-
  ClaimQueue.Proofs.Work.Finishing — a worker that is left alone finishes its message.

  From the return of its handler to its next look at the queue a worker waits for nobody: its
  calls are not cancelled, and each ends after the retries of its policy (`Call.ends`). So it
  gets through if nothing happens but its own steps and time that passes (`GetsThrough`).
-/

import ClaimQueue.Proofs.Work.Phases

namespace ClaimQueue

def Scene.waitUntil (s : Scene) (time : Nat) : Scene := { s with site := { s.site with time } }

namespace Worker

/-- The worker makes steps, at `times`, until it looks for another message, and nobody does anything but let time
pass. -/
inductive Alone : Worker → Scene → List Instant → Worker → Scene → Prop
  | rest (w : Worker) (s : Scene) : Alone w s [] w s
  | step {w w' : Worker} {s s' : Scene} {times : List Instant} : w.stage ≠ .looking →
      Alone (w.step s).1 (w.step s).2 times w' s' → Alone w s (s.site.now :: times) w' s'
  | waits {w w' : Worker} {s s' : Scene} {times : List Instant} (time : Nat) : s.time ≤ time →
      Alone w (s.waitUntil time) times w' s' → Alone w s times w' s'

/-- Is the worker through with its message in the end, if others leave it alone? -/
def GetsThrough (w : Worker) (s : Scene) : Prop := ∃ times w' s', Alone w s times w' s' ∧ w'.stage = .looking

variable {w : Worker} {s : Scene}

theorem GetsThrough.step (busy : w.stage ≠ .looking) (through : GetsThrough (w.step s).1 (w.step s).2) :
    GetsThrough w s := by
  obtain ⟨times, w', s', alone, looking⟩ := through
  exact ⟨_, w', s', .step busy alone, looking⟩

theorem GetsThrough.waits (time : Nat) (later : s.time ≤ time) (through : GetsThrough w (s.waitUntil time)) :
    GetsThrough w s := by
  obtain ⟨times, w', s', alone, looking⟩ := through
  exact ⟨_, w', s', .waits time later alone, looking⟩

theorem getsThrough_looking (looking : w.stage = .looking) : GetsThrough w s := ⟨[], w, s, .rest w s, looking⟩

/-- A worker in a call gets through if it does when the call is done. -/
theorem getsThrough_call {r : Request} (stage : Call r.Reply → Stage) (busy : ∀ call, stage call ≠ .looking)
    (steps : ∀ (w : Worker) (s : Scene) (call : Call r.Reply), call.result? = none → w.stage = stage call →
      ∃ scopes, (w.step s).1.stage = stage (call.step r false scopes s.site).1 ∧
        (w.step s).2.site = (call.step r false scopes s.site).2)
    (done : ∀ (w : Worker) (s : Scene) (result : Except Error r.Reply), w.stage = stage (.done result) →
      GetsThrough w s)
    {call : Call r.Reply} (staged : w.stage = stage call) : GetsThrough w s := by
  let P : Call r.Reply → Site → Prop := fun call site =>
    ∀ (w : Worker) (s : Scene), s.site = site → w.stage = stage call → GetsThrough w s
  refine Call.ends (P := P) ?_ ?_ ?_ call s.site w s rfl staged
  · exact fun result _ w s _ staged => done w s result staged
  · rintro call _ time later through w s rfl staged
    exact .waits time later (through w _ rfl staged)
  · rintro call _ undone through w s rfl staged
    obtain ⟨scopes, next, site⟩ := steps w s call undone staged
    exact .step (staged ▸ busy call) (through scopes _ _ site next)

theorem getsThrough_purging {m : Message} {change : Change} {call : Call Bool}
    (purging : w.stage = .purging m change call) : GetsThrough w s := by
  let r : Request := .delete m.id
  refine getsThrough_call (r := r) (.purging m change) (by simp) ?_ ?_ purging
  · rintro ⟨index, id, idle, emptyStreak, fatalStreak, stage⟩ s call undone rfl
    cases call with
    | done result => cases undone
    | attempting n => exact ⟨_, rfl, rfl⟩
    | waiting n e wake => exact ⟨[], rfl, rfl⟩
  · intro w s result purging
    refine .step (by simp [purging]) (getsThrough_looking ?_)
    rw [Worker.step, purging]
    rfl

theorem getsThrough_recording {m : Message} {change : Change} {call : Call Message}
    (recording : w.stage = .recording m change call) : GetsThrough w s := by
  let r : Request := .updateStatus m.id change m.version
  refine getsThrough_call (r := r) (.recording m change) (by simp) ?_ ?_ recording
  · rintro ⟨index, id, idle, emptyStreak, fatalStreak, stage⟩ s call undone rfl
    cases call with
    | done result => cases undone
    | attempting n => exact ⟨_, rfl, rfl⟩
    | waiting n e wake => exact ⟨[], rfl, rfl⟩
  · intro w s result recording
    refine .step (by simp [recording]) ?_
    rw [Worker.step, recording]
    cases result with
    | error e => exact getsThrough_looking rfl
    | ok updated =>
      simp only [recorded]
      split
      · exact getsThrough_purging rfl
      · exact getsThrough_looking rfl

theorem getsThrough_settling {m : Message} {outcome : Outcome} (settling : w.stage = .settling m outcome) :
    GetsThrough w s := by
  refine .step (by simp [settling]) ?_
  rw [Worker.step, settling]
  dsimp only
  split
  · exact getsThrough_recording rfl
  · exact getsThrough_looking rfl

end Worker

end ClaimQueue
