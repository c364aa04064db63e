/-
  ClaimQueue.Log.Telemetry — where the log of a process goes.

  With an endpoint, the log is exported there, else written out. A process has one
  subscriber: a second set-up fails, after the exporters were built.
-/

import ClaimQueue.Error

namespace ClaimQueue

structure Telemetry where
  service : String
  endpoint : Option String := none
  /-- What is logged, unless the environment says otherwise. -/
  level : String := "info"
  deriving DecidableEq, Repr

/-- What a process holds on to while it exports. -/
structure Exporting where
  endpoint : Option String
  deriving DecidableEq, Repr

inductive TelemetryFault where
  | exporter
  | subscribed
  deriving DecidableEq, Repr

namespace TelemetryFault

def message : TelemetryFault → String
  | .exporter => "failed to create OTLP span exporter"
  | .subscribed => "failed to init tracing subscriber: a global default trace dispatcher has already been set"

def toError (f : TelemetryFault) : Error := .other f.message

end TelemetryFault

namespace Telemetry

/-- Can the character stand in a URI? -/
def isUriChar (c : Char) : Bool := c.isAlphanum || "!#$%&'()*+,-./:;=?@[]_~".toList.contains c

/-- Is the text a URI that names a host? -/
def hasHost (uri : String) : Bool :=
  let authority := fun (s : List Char) => s.takeWhile fun c => c != '/' && c != '?' && c != '#'
  uri.toList.all isUriChar &&
    match uri.splitOn "://" with
    | scheme :: rest :: _ => !scheme.isEmpty && !(authority rest.toList).isEmpty
    | _ => !uri.isEmpty && authority uri.toList == uri.toList

/-- Set telemetry up, in a process that has a subscriber or not. -/
def init (t : Telemetry) (subscribed : Bool) : Except Error Exporting :=
  if t.endpoint.any fun e => !hasHost e then .error TelemetryFault.exporter.toError
  else if subscribed then .error TelemetryFault.subscribed.toError
  else .ok ⟨t.endpoint⟩

end Telemetry

/-- Nothing is exported. -/
def Exporting.off : Exporting := ⟨none⟩

def Exporting.isOn (e : Exporting) : Bool := e.endpoint.isSome

end ClaimQueue
