/-
  What commands do.

  * `Effect` is what a command brings about: a changed disk, output and notices, and an error that
    nobody foresaw; `Effect.failed` says that something was not done;
  * `Command.perform` does what a command says.
-/
import FileTags.Command.Basic
import FileTags.Command.Work
import FileTags.Database.Cleanup
import FileTags.Report

namespace FileTags

open Text

/-- What a command works with. -/
structure Setup where
  env : Environment
  settings : Settings
  clock : Clock
  /-- The text of the input. -/
  input : String

/-- What a command brings about. -/
structure Effect where
  disk : Disk
  output : String := ""
  notices : List Notice := []
  /-- The files that have been renamed, with their new paths. -/
  renamed : List (Path × Path) := []
  /-- The error that nobody foresaw, if there is one. -/
  fault : Option Error := none

namespace Effect

/-- An error is told if a user may have brought it about. -/
def ofError (d : Disk) (notices : List Notice) (e : Error) : Effect :=
  if e.isExpected then { disk := d, notices := notices ++ [.failure e] }
  else { disk := d, notices, fault := some e }

/-- Whether something was not done. -/
def failed (effect : Effect) : Bool :=
  effect.fault.isSome || effect.notices.any Notice.isComplaint

end Effect

/-- The effect of some work so far. -/
def Work.effect {α : Type} (w : Work α) (fault : Option Error) : Effect :=
  { disk := w.disk, notices := w.notices, fault }

namespace Setup

/-! ## Databases and files -/

/-- Opens the database that the settings name, or else the nearest one. -/
def openDatabase (s : Setup) (d : Disk) : Disk × Except Error Database :=
  match s.settings.database with
  | none => Database.loadFrom d s.env .here true
  | some p =>
    match databaseDir d p with
    | .error e => (d, .error e)
    | .ok dir => Database.load d s.env dir none true

/-- What is done with the database, if it can be opened. -/
def withDatabase (s : Setup) (opened : Disk × Except Error Database) {α : Type}
    (act : Work α → Effect) : Effect :=
  match opened with
  | (d, .error e) => .ofError d [] e
  | (d, .ok db) => act (.start s.clock s.settings.debug d db)

/-- The paths that a command works on. -/
def selectFiles (s : Setup) (d : Disk) (files : FileArguments) : Except Error (List Path) :=
  (select d files.options (files.allPaths s.input)).mapError .ofDisk

/-- A task with all files of a command, and the effect of it. -/
def onFiles (s : Setup) (d : Disk) (files : FileArguments) {α : Type} (task : Task α)
    (finish : Work α → Option Error → Effect) : Effect :=
  match s.selectFiles d files with
  | .error e => .ofError d [] e
  | .ok [] => { disk := d, notices := [.nothingSelected] }
  | .ok paths =>
    s.withDatabase (s.openDatabase d) fun work =>
      match work.all s.clock s.settings.debug task paths with
      | (w, fault) => finish w fault

/-! ## Commands -/

/-- Makes a database in the current directory. -/
def init (s : Setup) (d : Disk) : Effect :=
  let opened := match d.absolute .here with
    | .error e => (d, .error (.ofDisk e))
    | .ok here => Database.create d s.env here true
  s.withDatabase opened fun (work : Work Unit) =>
    { work.effect none with output := echo "Created new database" }

/-- Cleans the database up. -/
def cleanup (s : Setup) (d : Disk) : Effect :=
  s.withDatabase (s.openDatabase d) fun (work : Work Unit) =>
    match work.db.cleanup work.disk with
    | (result, db) =>
      let disk := (db.save work.disk s.clock.plain).1
      let notices := work.notices ++ db.notices s.settings.debug
      match result with
      | .error e => { disk, notices, fault := some e }
      | .ok stats =>
        { disk
          output := echo (s!"Removed {stats.files} missing file(s) and " ++
            s!"{stats.tags} disallowed tag(s)")
          notices }

/-- A report as output; an empty one is no output. -/
def showReport (text : String) : String := if text.isEmpty then "" else echo text

/-- Searches the database. -/
def search (s : Setup) (d : Disk) (query : String) (options : SearchOptions) : Effect :=
  s.withDatabase (s.openDatabase d) fun (work : Work Unit) =>
    match work.db.searchText query with
    | .error e => .ofError work.disk work.notices e
    | .ok found =>
      let sorted := if options.sortKey.isEmpty then found else sortByAttribute options.sortKey found
      let taken := options.limit.elim sorted sorted.take
      let form := if options.json || s.settings.json then ReportForm.json
        else if options.descriptive then .descriptive else .plain
      let root := if options.absolute then some work.db.root else none
      { work.effect none with output := showReport (report form root taken) }

/-- The form in which files are described. -/
def infoForm (s : Setup) : ReportForm := if s.settings.json then .json else .descriptive

/-- Describes files, unless the work has been ended. -/
def info (s : Setup) (d : Disk) (files : FileArguments) : Effect :=
  s.onFiles d files Task.info fun w fault =>
    { w.effect fault with
      output := if fault.isNone then showReport (report s.infoForm none w.answers) else "" }

/-- Renames files by a template, and tells each new path. -/
def rename (s : Setup) (d : Disk) (template : String) (files : FileArguments) : Effect :=
  s.onFiles d files (Task.rename template) fun w fault =>
    { w.effect fault with
      output := String.join (w.answers.map fun (file, new) => echo s!"Moved {file} to {new}")
      renamed := w.answers }

end Setup

/-- Does what a command says. -/
def Command.perform (s : Setup) (d : Disk) : Command → Effect
  | .init => s.init d
  | .add tags files => s.onFiles d files (Task.add tags) Work.effect
  | .remove tags files => s.onFiles d files (Task.remove tags) Work.effect
  | .cleanup => s.cleanup d
  | .info files => s.info d files
  | .rename template files => s.rename d template files
  | .search query options => s.search d query options

end FileTags
