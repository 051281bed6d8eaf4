/-
  Work on files, one after the other.

  The index is stored and the journal is written after each file.  An error that a user may bring
  about is told, and the work goes on with the next file; any other error ends it.

  * `Task` is what is done with a file: `Task.add`, `Task.remove`, `Task.info` and `Task.rename`;
  * `Work.all` does it with some files, and gives the error that has ended the work if one has.
-/
import FileTags.Command.Notice
import FileTags.Database.Move

namespace FileTags

/-- The time, as the logs write it. -/
structure Clock where
  /-- The day and the second. -/
  plain : String
  /-- With parts of a second and the time zone. -/
  exact : String

/-- What is done with a file. -/
abbrev Task (α : Type) := Disk → Database → Path → Disk × Database.Outcome α

/-- Work in progress. -/
structure Work (α : Type) where
  disk : Disk
  db : Database
  /-- What the files worked on so far have answered. -/
  answers : List α
  notices : List Notice

namespace Work

variable {α : Type}

/-- Work on an opened database. -/
def start (clock : Clock) (debug : Bool) (d : Disk) (db : Database) : Work α :=
  let (disk, saved) := db.save d clock.plain
  ⟨disk, saved, [], db.notices debug⟩

/-- The work after one file, and the error of the file. -/
def one (clock : Clock) (debug : Bool) (task : Task α) (w : Work α) (file : Path) :
    Work α × Option Error :=
  match task w.disk w.db file with
  | (d, result, db) =>
    let (disk, saved) := db.save d clock.plain
    let notices := w.notices ++ db.notices debug
    match result with
    | .ok a => (⟨disk, saved, w.answers ++ [a], notices⟩, none)
    | .error e => (⟨disk, saved, w.answers, notices⟩, some e)

/-- The work with one more notice. -/
def tell (w : Work α) (n : Notice) : Work α := { w with notices := w.notices ++ [n] }

/-- The work after some files, and the error that has ended it. -/
def all (clock : Clock) (debug : Bool) (task : Task α) :
    Work α → List Path → Work α × Option Error
  | w, [] => (w, none)
  | w, file :: files =>
    match w.one clock debug task file with
    | (w, none) => all clock debug task w files
    | (w, some e) =>
      if e.isExpected then all clock debug task (w.tell (.failure e)) files else (w, some e)

end Work

/-! ## Tasks -/

namespace Task

/-- Writes the tags that some texts stand for. -/
def add : List String → Task Unit
  | [], d, db, _ => (d, .ok (), db)
  | raw :: rest, d, db, file =>
    match db.add d file raw with
    | (.error e, db) => (d, .error e, db)
    | (.ok _, db) => add rest d db file

/-- Removes the tags that some texts stand for. -/
def remove : List String → Task Unit
  | [], d, db, _ => (d, .ok (), db)
  | raw :: rest, d, db, file =>
    match db.remove d file raw with
    | (.error e, db) => (d, .error e, db)
    | (.ok _, db) => remove rest d db file

/-- Looks a file up. -/
def info : Task Record := fun d db file => (d, db.info d file, db)

/-- Renames a file by a template, and gives its old and new path. -/
def rename (template : String) : Task (Path × Path) := fun d db file =>
  match db.info d file with
  | .error e => (d, .error e, db)
  | .ok r =>
    match Template.renamedPath file r template with
    | .error e => (d, .error (.template e), db)
    | .ok new =>
      match db.move d file.toString new with
      | (d, .error e, db) => (d, .error e, db)
      | (d, .ok _, db) => (d, .ok (file, new), db)

end Task

end FileTags
