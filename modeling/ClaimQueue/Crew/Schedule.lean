/-
  ClaimQueue.Crew.Schedule — who moves when, on one thread.

  Tasks that can move stand in a queue and move until they have to wait; waiting tasks line
  up again as soon as a step of another task, or the time, lets them. Whoever uses the
  queue takes turns with the tasks: an errand runs until it has to wait, then the tasks
  run until all wait. Time stands still while anything can move, and then jumps to the
  next alarm; the errand looks first whether it was its own.
-/

import ClaimQueue.Crew.Basic

namespace ClaimQueue

/-- Something a user of the queue does and waits for. -/
structure Errand (σ ρ : Type) where
  step : σ → Engine → σ × Engine
  isReady : σ → Engine → Bool
  alarm? : σ → Option Nat
  result? : σ → Option ρ

namespace Errand

variable {σ ρ : Type}

/-- An errand that needs the site alone. -/
def onSite (step : σ → Site → σ × Site) (isReady : σ → Nat → Bool) (alarm? : σ → Option Nat)
    (result? : σ → Option ρ) : Errand σ ρ where
  step x e := let (x, site) := step x e.site; (x, { e with site })
  isReady x e := isReady x e.site.time
  alarm? := alarm?
  result? := result?

/-- An errand at the desk of crew `i`. -/
def atDesk (i : Nat) (step : σ → Scene → σ × Scene) (isReady : σ → Pool → Nat → Bool) (alarm? : σ → Option Nat)
    (result? : σ → Option ρ) : Errand σ ρ where
  step x e := e.atDesk i x (step x)
  isReady x e := (e.crews[i]?).any fun c => isReady x c.desk.pool e.site.time
  alarm? := alarm?
  result? := result?

end Errand

/-- An engine with its schedule. -/
structure Plant where
  engine : Engine
  current : Option Task := none
  ready : List Task := []
  waiting : List Task := []

namespace Plant

/-- Take over an engine after a step: who can move now lines up, then the runners that are
new. -/
def settle (p : Plant) (e : Engine) : Plant :=
  let fresh := e.crews.zipIdx.flatMap fun (c, i) =>
    let known := ((p.engine.crews[i]?).map (·.runners.length)).getD 0
    (List.range' known (c.runners.length - known)).map fun n => Task.mk i (.runner n)
  { p with
    engine := e
    ready := p.ready ++ p.waiting.filter e.isReady ++ fresh
    waiting := p.waiting.filter fun t => !e.isReady t }

def isIdle (p : Plant) : Bool := p.current.isNone && p.ready.isEmpty

/-- One step of the schedule. -/
def turn (p : Plant) : Plant :=
  match p.current with
  | some t =>
    if p.engine.isReady t then p.settle (p.engine.move t)
    else { p with current := none, waiting := if p.engine.isOver t then p.waiting else p.waiting ++ [t] }
  | none =>
    match p.ready with
    | t :: rest => { p with current := some t, ready := rest }
    | [] => p

def earlier? (a b : Option Nat) : Option Nat :=
  match a, b with
  | some a, some b => some (min a b)
  | a, none => a
  | none, b => b

/-- The next alarm of a waiting task. -/
def alarm? (p : Plant) : Option Nat := p.waiting.foldl (fun a t => earlier? a (p.engine.alarm? t)) none

def jump (p : Plant) (time : Nat) : Plant :=
  p.settle { p.engine with site := { p.engine.site with time := max p.engine.site.time time } }

variable {σ ρ : Type}

/-- Run an errand to its end; `mine` if it is its turn. None if it never ends. -/
def drive (errand : Errand σ ρ) : Nat → Bool → σ → Plant → Option ρ × Plant
  | 0, _, _, p => (none, p)
  | fuel + 1, true, x, p =>
    match errand.result? x with
    | some result => (some result, p)
    | none =>
      if errand.isReady x p.engine then
        let (x, e) := errand.step x p.engine
        drive errand fuel true x (p.settle e)
      else drive errand fuel false x p
  | fuel + 1, false, x, p =>
    if !p.isIdle then drive errand fuel false x p.turn
    else if errand.isReady x p.engine then drive errand fuel true x p
    else
      match earlier? p.alarm? (errand.alarm? x) with
      | some time => drive errand fuel true x (p.jump time)
      | none => (none, p)

/-- Steps after which an errand counts as endless. -/
def patience : Nat := 1_000_000_000_000

def perform (p : Plant) (errand : Errand σ ρ) (x : σ) : Option ρ × Plant := drive errand patience true x p

end Plant

end ClaimQueue
