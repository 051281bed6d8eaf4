/-
  Databases in use.

  A database is opened from its directory, with its configuration and its index.  What is done
  with it is recorded in a journal, which goes to the log of operations, a file of the directory.
  Both the index and the log stay in the files in which they were when the database was opened.

  Two things are taken for granted about a database in use.  Nothing but its own `Database.move`
  takes its data file away from where it was opened: any other call is made while it is there, and
  then a change to the index can be stored.  The log stays below `logLimit`, where the program
  would begin a new one and keep only the latest of the old ones.

  * `Database.create` makes a new database in a directory, `Database.load` and `Database.openAt`
    open one;
  * `Database.save` stores the index and writes the journal to the log.
-/
import FileTags.Config.File
import FileTags.Database.Locate
import FileTags.Database.Storage
import FileTags.Journal

namespace FileTags

/-- What a log is written to. -/
inductive LogSink where
  | file (inode : Inode)
  /-- A device, which keeps nothing. -/
  | device
deriving DecidableEq

/-- A database in use. -/
structure Database where
  /-- The resolved path of its directory. -/
  path : Path
  config : Config
  index : Index
  /-- The file that the index is stored in. -/
  dataFile : Option DataFile
  /-- The log of operations, if there is one. -/
  log : Option LogSink
  /-- What has not been written to the log yet. -/
  journal : List Event
deriving DecidableEq

/-- The name of the log of operations. -/
def logName : Name := ⟨"ops.log", by decide⟩

namespace Database

/-- The directory that holds the database directory. -/
def root (db : Database) : Path := db.path.parent

/-- The number of the file that the index is stored in. -/
def dataInode (db : Database) : Option Inode := db.dataFile.map (·.inode)

/-- The path of a file that the database knows. -/
def absolutePath (db : Database) (file : Path) : Path := db.root.join file

/-- The database with one more event in its journal. -/
def record (db : Database) (e : Event) : Database := { db with journal := db.journal ++ [e] }

/-! ## Opening -/

/-- Opens the log of operations of a database directory. -/
def openLog (d : Disk) (dir : Path) : Disk × Except DiskError LogSink :=
  match d.addText (dir.child logName) Disk.publicMode "" with
  | .error e => (d, .error e)
  | .ok d =>
    match d.stat (dir.child logName) with
    | .error e => (d, .error e)
    | .ok (.file inode _ _) => (d, .ok (.file inode))
    | .ok _ => (d, .ok .device)

/-- A database with its configuration and index, and a log if `logged` asks for one. -/
def attach (d : Disk) (dir : Path) (config : Config) (data : OpenIndex) (logged : Bool) :
    Disk × Except Error Database :=
  match d.resolve dir with
  | .error e => (d, .error (.ofResolve e))
  | .ok path =>
    let db : Database := ⟨path, config, data.index, data.file, none, []⟩
    if !logged then (d, .ok db)
    else match openLog d path with
      | (d, .ok log) => (d, .ok { db with log := some log })
      | (d, .error _) => (d, .ok (db.record (.unlogged (path.child logName))))

/-- Makes a database in a directory that has none. -/
def create (d : Disk) (env : Environment) (dir : Path) (logged : Bool) :
    Disk × Except Error Database :=
  let target := dir.child databaseName
  match d.isDir dir, containsDatabase d dir with
  | .error e, _ => (d, .error (.ofDisk e))
  | .ok false, _ => (d, .error (.databaseExists dir))
  | .ok true, .error e => (d, .error e)
  | .ok true, .ok true => (d, .error (.databaseExists dir))
  | .ok true, .ok false =>
    match d.makeDir target with
    | .error .nullCharacter => (d, .error .nullInPath)
    | .error _ => (d, .error (.cannotCreate target))
    | .ok d =>
      match saveConfig d target {} with
      | (d, .error e) => (d, .error e)
      | (d, .ok _) =>
        match openStorage d env target none true with
        | (d, .error e) => (d, .error e)
        | (d, .ok data) => attach d target {} data logged

/-- Opens the database in a directory, with its configuration and the index in a storage. -/
def read (d : Disk) (env : Environment) (dir : Path) (storage : Option String) (logged : Bool) :
    Disk × Except Error Database :=
  match loadConfig d dir with
  | .error e => (d, .error e)
  | .ok config =>
    match openStorage d env dir storage false with
    | (d, .error e) => (d, .error e)
    | (d, .ok data) => attach d dir config data logged

/-- Opens the database in a directory, which must be there. -/
def load (d : Disk) (env : Environment) (dir : Path) (storage : Option String) (logged : Bool) :
    Disk × Except Error Database :=
  match d.isDir dir with
  | .error e => (d, .error (.ofDisk e))
  | .ok false => (d, .error (.databaseNotFound dir))
  | .ok true => read d env dir storage logged

/-- Opens the database in the directory that a path resolves to. -/
def openAt (d : Disk) (env : Environment) (dir : Path) (logged : Bool) :
    Disk × Except Error Database :=
  match d.resolve dir with
  | .error e => (d, .error (.ofResolve e))
  | .ok path => read d env path none logged

/-- Opens the database of a directory or of the nearest one above it. -/
def loadFrom (d : Disk) (env : Environment) (start : Path) (logged : Bool) :
    Disk × Except Error Database :=
  match findDatabase d start with
  | .error e => (d, .error e)
  | .ok dir => load d env dir none logged

/-! ## Saving -/

/-- The lines of some events, each after the time `stamp`. -/
def logText (stamp : String) (events : List Event) : String :=
  String.join (events.map fun e => stamp ++ " " ++ e.line)

/-- The disk with a text added to a log. -/
def writeLog (d : Disk) (text : String) : LogSink → Disk
  | .file inode => d.alter inode (.append text)
  | .device => d

/-- The disk with the index stored and the journal written to the log, and the database without
    its journal. -/
def save (d : Disk) (stamp : String) (db : Database) : Disk × Database :=
  let d := storeIndex d db.dataFile db.index
  (db.log.elim d (writeLog d (logText stamp db.journal)), { db with journal := [] })

end Database

end FileTags
