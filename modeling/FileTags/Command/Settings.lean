/-
  Settings in front of a command.

  * `Settings` are the settings, and `takeSettings` takes them in the order in which they come
    first, so that one that ends the program does so before the ones after it;
  * `readSettings` reads them and gives what comes after them;
  * `Stop` says why a command line is not a command to run.
-/
import FileTags.Arguments
import FileTags.Database.Storage
import FileTags.LogLevel

namespace FileTags

open Arguments

/-! ## Settings -/

/-- What is set in front of a command. -/
structure Settings where
  /-- The least severe messages that are shown. -/
  level : LogLevel := .warning
  /-- Whether all messages have been asked for, even if fewer are shown in the end. -/
  debug : Bool := false
  /-- Whether records are written as JSON. -/
  json : Bool := false
  /-- The database to use, by its directory or by its root. -/
  database : Option Path := none
deriving DecidableEq, Inhabited

/-- Sets the level of messages. -/
def Settings.setLevel (s : Settings) (level : LogLevel) : Settings :=
  { s with level, debug := s.debug || level = .debug }

/-- The settings before anything is read. -/
def Settings.ofEnvironment (env : Environment) : Settings :=
  if env.verbose = some "1" then ({} : Settings).setLevel .debug else {}

/-- The options in front of a command. -/
inductive Setting where
  | verbose
  | logLevel
  | json
  | version
  | database
deriving DecidableEq

/-- How settings are written. -/
def settingFlags : List (Flag Setting) :=
  [⟨.verbose, some 'v', some "verbose", false⟩, ⟨.logLevel, some 'l', some "log-level", true⟩,
    ⟨.json, some 'j', some "json", false⟩, ⟨.version, none, some "version", false⟩,
    ⟨.database, some 'd', some "database", true⟩]

/-- Why a command line is not a command to run. -/
inductive Stop where
  | misused
  /-- The version is asked for. -/
  | version
deriving DecidableEq

/-- The path that a text denotes, if a file can have it. -/
def takePath (text : String) : Except Stop Path :=
  if (Path.ofString text).hasNull then .error .misused else .ok (Path.ofString text)

/-- One more setting, with the value that the arguments give it. -/
def Settings.take (s : Settings) (arguments : List (Argument Setting)) :
    Setting → Except Stop Settings
  | .verbose => .ok (s.setLevel .debug)
  | .json => .ok { s with json := true }
  | .version => .error .version
  | .logLevel =>
    match (last? .logLevel arguments).map LogLevel.ofName with
    | some (.ok level) => .ok (s.setLevel level)
    | _ => .error .misused
  | .database =>
    match (last? .database arguments).map takePath with
    | some (.ok path) => .ok { s with database := some path }
    | some (.error stop) => .error stop
    | none => .error .misused

/-- Settings one after the other; the settings as far as they have been taken are kept. -/
def Settings.takeAll (arguments : List (Argument Setting)) :
    List Setting → Settings → Settings × Except Stop Unit
  | [], s => (s, .ok ())
  | key :: rest, s =>
    match s.take arguments key with
    | .error stop => (s, .error stop)
    | .ok s => takeAll arguments rest s

/-- The settings that some arguments make; a database that is not among them comes from the
    settings from outside. -/
def takeSettings (env : Environment) (arguments : List (Argument Setting)) (s : Settings) :
    Settings × Except Stop Unit :=
  match s.takeAll arguments (keys arguments) with
  | (s, .error stop) => (s, .error stop)
  | (s, .ok ()) =>
    if given .database arguments then (s, .ok ())
    else match setting? env.database with
      | none => (s, .ok ())
      | some text =>
        match takePath text with
        | .error stop => (s, .error stop)
        | .ok path => ({ s with database := some path }, .ok ())

/-- Reads settings and gives what comes after them. -/
def readSettings (env : Environment) (texts : List String) (s : Settings) :
    Settings × Except Stop (List String) :=
  match scan settingFlags false none texts with
  | none => (s, .error .misused)
  | some arguments =>
    match takeSettings env arguments s with
    | (s, .error stop) => (s, .error stop)
    | (s, .ok ()) => (s, .ok (operands arguments))

end FileTags
