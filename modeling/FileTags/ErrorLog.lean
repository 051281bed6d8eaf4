/-
  The log of unforeseen errors.

  An error that nobody foresaw is written to a log in the database in use, or in the directory of
  the user if there is none.  Only its owner can read a log that is made for it.

  * `errorLogPath` is the path of the log;
  * `logError` adds an entry, as far as that is possible.
-/
import FileTags.Database.Locate
import FileTags.Database.Storage

namespace FileTags

open Text

/-- The name of the log in a database directory. -/
def errorLogName : Name := ⟨"errors.log", by decide⟩

/-- The name of the log in the directory of the user. -/
def homeLogName : Name := ⟨".sea-serpent-errors.log", by decide⟩

/-- The directory of the user, the top one if none is set; a tilde in front, which itself stands
    for a user's directory, names none. -/
def Environment.homePath? (env : Environment) : Option Path :=
  match dropEnd (· = '/') (env.home.getD "").toList with
  | [] => some .root
  | '~' :: _ => none
  | name => some (Path.ofString (String.ofList name))

/-- The path of the log in the directory of the user. -/
def homeLogPath (env : Environment) : Except Error Path :=
  env.homePath?.elim (.error .homeless) fun home => .ok (home.child homeLogName)

/-- The database directory in use: the one that is given, the one that the settings name, or the
    nearest one. -/
def databaseInUse (d : Disk) (env : Environment) (given : Option Path) :
    Except Error (Option Path) :=
  match given, setting? env.database with
  | some dir, _ => .ok (some dir)
  | none, some named => (databaseDir d (Path.ofString named)).map some
  | none, none =>
    match findDatabase d .here with
    | .ok dir => .ok (some dir)
    | .error (.databaseNotFound _) => .ok none
    | .error (.disk _) => .ok none
    | .error e => .error e

/-- The path of the log. -/
def errorLogPath (d : Disk) (env : Environment) (given : Option Path) : Except Error Path :=
  match databaseInUse d env given with
  | .error e => .error e
  | .ok none => homeLogPath env
  | .ok (some dir) =>
    match d.isDir dir with
    | .error e => .error (.ofDisk e)
    | .ok true => .ok (dir.child errorLogName)
    | .ok false => homeLogPath env

/-- The number of characters in the rule above an entry. -/
def ruleWidth : Nat := 60

/-- An entry: a rule, the time with the context, and the trace of the error. -/
def errorEntry (stamp context trace : String) : String :=
  "\n" ++ String.ofList (List.replicate ruleWidth '=') ++ "\n[" ++ stamp ++ "]" ++
    (if context.isEmpty then "" else " " ++ context) ++ "\n" ++ trace

/-- The disk with an entry in the log at a path, unless it cannot be written. -/
def writeEntry (d : Disk) (log : Path) (entry : String) : Except Error Disk :=
  if log.hasNull then .error .nullInPath
  else match d.makeDirs log.parent with
    | (d, .error _) => .ok d
    | (d, .ok ()) => .ok ((d.addText log Disk.privateMode entry).toOption.getD d)

/-- Adds an entry to the log; the answer is the path of the log. -/
def logError (d : Disk) (env : Environment) (given : Option Path)
    (stamp context trace : String) : Disk × Except Error Path :=
  match errorLogPath d env given with
  | .error e => (d, .error e)
  | .ok log =>
    match writeEntry d log (errorEntry stamp context trace) with
    | .error e => (d, .error e)
    | .ok d => (d, .ok log)

end FileTags
