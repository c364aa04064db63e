/-
  ClaimQueue.Store.Database — a database whose pool refuses connections.

  A request first checks its arguments, then asks the pool for a connection; what the pool
  reports is either transient or a database error (`DatabaseFault.toError`). Bringing the
  tables up to date reports its faults as its own.
-/

import ClaimQueue.Store.Request

namespace ClaimQueue

/-- Server codes that another try can mend; those of class 08 are connection faults. -/
def transientCodes : List String := ["40001", "40P01", "55P03", "57014", "53300"]

def DatabaseFault.isTransient : DatabaseFault → Bool
  | .server (some code) _ => transientCodes.contains code || code.startsWith "08"
  | .io _ => true
  | .poolTimedOut => true
  | _ => false

def DatabaseFault.toError (f : DatabaseFault) : Error :=
  if f.isTransient then .transient f.message else .database f

namespace Request

/-- What a request checks before it asks for a connection. -/
def check (now : Instant) : Request → Except Error Unit
  | .updateStatus _ change _ => change.check
  | .reclaimDead dead _ =>
    match now.sub? dead with
    | some _ => .ok ()
    | none => .error (.config ("duration out of range: " ++ dead.toText))
  | _ => .ok ()

/-- The error of a request whose connection is refused. -/
def refused (fault : DatabaseFault) (now : Instant) (r : Request) : Error :=
  match r.check now with
  | .error e => e
  | .ok () =>
    match r with
    | .create => .migration (.execute fault)
    | _ => fault.toError

end Request

end ClaimQueue
