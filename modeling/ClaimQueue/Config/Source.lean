/-
  ClaimQueue.Config.Source — where settings come from: TOML text, files, the environment.

  The settings of a process are five variables; only the database has no default. The
  settings of a queue are a TOML file that one of the variables names, or the defaults.
  Files are those of one directory, by name.
-/

import ClaimQueue.Config.Form
import ClaimQueue.Toml.Document

namespace ClaimQueue

/-- The configuration in TOML text. -/
def QueueConfig.ofToml (text : String) : Except Error QueueConfig :=
  match (Toml.read? text).bind Form.queue? with
  | none => .error (.config "bad queue config")
  | some c => c.check.map fun _ => c

/-! ## Files -/

inductive FileFault where
  | missing
  | notDirectory
  | isDirectory
  | notText
  deriving DecidableEq, Repr

def FileFault.message : FileFault → String
  | .missing => "No such file or directory (os error 2)"
  | .notDirectory => "Not a directory (os error 20)"
  | .isDirectory => "Is a directory (os error 21)"
  | .notText => "stream did not contain valid UTF-8"

/-- The files of a directory without directories in it. -/
abbrev Files := List (String × List UInt8)

namespace Files

/-- The content of the file at a path: its parts are names, `.` or the empty part stay
where they are, and `..` leaves the directory. -/
def resolve (files : Files) (path : String) : Except FileFault (List UInt8) :=
  match path.splitOn "/" with
  | [""] => .error .missing
  | "" :: rest => if rest.all (·.isEmpty) then .error .isDirectory else .error .missing
  | parts =>
    match parts.dropWhile fun p => p == "." || p == "" with
    | [] => .error .isDirectory
    | ".." :: rest =>
      if rest.all fun p => p == ".." || p == "." || p == "" then .error .isDirectory else .error .missing
    | name :: rest =>
      match files.lookup name with
      | none => .error .missing
      | some bytes => if rest.isEmpty then .ok bytes else .error .notDirectory

def readText (files : Files) (path : String) : Except FileFault String := do
  let bytes ← files.resolve path
  match String.fromUTF8? ⟨bytes.toArray⟩ with
  | some text => .ok text
  | none => .error .notText

end Files

def QueueConfig.load (files : Files) (path : String) : Except Error QueueConfig :=
  match files.readText path with
  | .error f => .error (.config ("cannot read queue config " ++ path ++ ": " ++ f.message))
  | .ok text => QueueConfig.ofToml text

/-! ## Environment -/

/-- The settings of a process. -/
structure Settings where
  databaseUrl : String
  otelEndpoint : Option String
  logLevel : String
  queueName : String
  queueConfigPath : Option String
  deriving DecidableEq, Repr

namespace Settings

def ofEnv (var : String → Option String) : Except Error Settings :=
  match var "DATABASE_URL" with
  | none => .error (.config "required environment variable DATABASE_URL is not set")
  | some databaseUrl => .ok {
      databaseUrl
      otelEndpoint := var "OTEL_ENDPOINT"
      logLevel := (var "LOG_LEVEL").getD "info"
      queueName := (var "WORKQ_QUEUE").getD "workq"
      queueConfigPath := var "WORKQ_CONFIG" }

def queueConfig (s : Settings) (files : Files) : Except Error QueueConfig :=
  match s.queueConfigPath with
  | some path => QueueConfig.load files path
  | none => .ok {}

end Settings

end ClaimQueue
