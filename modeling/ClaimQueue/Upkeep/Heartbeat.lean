/-
  ClaimQueue.Upkeep.Heartbeat — keeping claims alive and taking back dead ones.

  A refresh submits one job per claim on the book and looks at the reports as they come in;
  a claim that turns out lost leaves the book, and its handler is cancelled. A reclaim takes
  back every silent claim in the store; those on the book are revoked. A pass is a refresh,
  then a reclaim.
-/

import ClaimQueue.Work.Desk

namespace ClaimQueue

/-! ## Refreshing -/

inductive Refresh where
  | starting
  | submitting (job : Job) (submit : Submit) (rest : List Job) (count : Nat)
  /-- Waits for `left` reports. -/
  | collecting (left refreshed : Nat) (lost : List MessageId)
  | done (refreshed : Nat) (lost : List MessageId)

namespace Refresh

def isReady (p : Pool) : Refresh → Bool
  | .collecting left _ _ => left == 0 || !p.reports.isEmpty
  | _ => true

def result? : Refresh → Option (Nat × List MessageId)
  | .done refreshed lost => some (refreshed, lost)
  | _ => none

/-- Go on with the jobs still to be submitted. -/
def submit (jobs : List Job) (count : Nat) : Refresh :=
  match jobs with
  | [] => .collecting count 0 []
  | job :: rest => .submitting job .announcing rest (count + 1)

/-- Look at one report. -/
def settle (s : Scene) (r : Report) (left refreshed : Nat) (lost : List MessageId) : Refresh × Scene :=
  match r.result with
  | .ok () => (.collecting left (refreshed + 1) lost, s)
  | .error (.lostClaim ..) =>
    let (removed, claims) := s.desk.claims.remove r.job.id r.job.holding.worker
    let tokens := if removed.isSome then s.desk.tokens.cancel r.job.holding.token else s.desk.tokens
    let s := (s.setClaims claims).setTokens tokens
    (.collecting left refreshed (lost ++ [r.job.id]), s.note (.claimLost s.queue r.job.id r.job.holding.worker))
  | .error e => (.collecting left refreshed lost, s.note (.refreshFailed s.queue r.job.id e))

def step (s : Scene) : Refresh → Refresh × Scene
  | .starting =>
    let jobs := s.desk.claims.entries.map fun (id, holding) => Job.mk id holding
    (if jobs.isEmpty then .done 0 [] else submit jobs 0, s)
  | .submitting _ (.done start) rest count =>
    (submit rest count, if start then s.setPool s.desk.pool.hire else s)
  | .submitting job stage rest count =>
    let (stage, pool) := stage.step s.desk.pool job
    (.submitting job stage rest count, s.setPool pool)
  | .collecting 0 refreshed lost => (.done refreshed lost, s.note (.refreshed s.queue refreshed lost.length))
  | .collecting (left + 1) refreshed lost =>
    match s.desk.pool.reports with
    | [] => (.collecting (left + 1) refreshed lost, s)
    | r :: reports => settle (s.setPool { s.desk.pool with reports }) r left refreshed lost
  | .done refreshed lost => (.done refreshed lost, s)

end Refresh

/-! ## Reclaiming -/

inductive Reclaim where
  | scanning (call : Call (List MessageId))
  /-- About to revoke the claims `rest`. -/
  | revoking (reclaimed rest : List MessageId)
  | done (result : Except Error (List MessageId))

namespace Reclaim

def start : Reclaim := .scanning .start

def isReady (time : Nat) : Reclaim → Bool
  | .scanning call => call.isReady false time
  | _ => true

def alarm? : Reclaim → Option Nat
  | .scanning call => call.alarm?
  | _ => none

def result? : Reclaim → Option (Except Error (List MessageId))
  | .done result => some result
  | _ => none

/-- Revoke the claim on one message. -/
def revoke (s : Scene) (id : MessageId) : Scene :=
  match s.desk.claims.revoke id with
  | (some holding, claims) =>
    ((s.setClaims claims).setTokens (s.desk.tokens.cancel holding.token)).note (.claimRevoked s.queue id)
  | (none, _) => s

def step (s : Scene) : Reclaim → Reclaim × Scene
  | .scanning (.done (.ok reclaimed)) =>
    (if reclaimed.isEmpty then .done (.ok []) else .revoking reclaimed reclaimed, s)
  | .scanning (.done (.error e)) => (.done (.error e), s)
  | .scanning call =>
    let (call, s) := s.advance (.reclaimDead s.desk.config.heartbeat.time s.desk.config.heartbeat.lookback) false [] call
    (.scanning call, s)
  | .revoking reclaimed (id :: rest) => (.revoking reclaimed rest, revoke s id)
  | .revoking reclaimed [] => (.done (.ok reclaimed), s.note (.reclaimed s.queue reclaimed.length))
  | .done result => (.done result, s)

end Reclaim

/-! ## Passes -/

structure Pulse where
  refreshed : Nat
  lost : List MessageId
  reclaimed : List MessageId

inductive Pass where
  | refreshing (refresh : Refresh)
  | reclaiming (refreshed : Nat) (lost : List MessageId) (reclaim : Reclaim)
  | done (result : Except Error Pulse)

namespace Pass

def start : Pass := .refreshing .starting

def isReady (p : Pool) (time : Nat) : Pass → Bool
  | .refreshing refresh => refresh.isReady p
  | .reclaiming _ _ reclaim => reclaim.isReady time
  | .done _ => true

def alarm? : Pass → Option Nat
  | .reclaiming _ _ reclaim => reclaim.alarm?
  | _ => none

def result? : Pass → Option (Except Error Pulse)
  | .done result => some result
  | _ => none

def step (s : Scene) : Pass → Pass × Scene
  | .refreshing (.done refreshed lost) => (.reclaiming refreshed lost .start, s)
  | .refreshing refresh =>
    let (refresh, s) := refresh.step s
    (.refreshing refresh, s)
  | .reclaiming refreshed lost (.done result) => (.done (result.map fun ids => ⟨refreshed, lost, ids⟩), s)
  | .reclaiming refreshed lost reclaim =>
    let (reclaim, s) := reclaim.step s
    (.reclaiming refreshed lost reclaim, s)
  | .done result => (.done result, s)

end Pass

end ClaimQueue
