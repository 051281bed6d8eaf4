/-
  Tagging files and finding them again.

  Files are tagged by what they resolve to.  The configuration decides which tags are written for
  a text; the tags that a text stands for can always be removed.

  * `Database.add` and `Database.remove` write and remove the tags that a text stands for;
  * `Database.info` is the record of a file, `Database.search` the records that match, by path.
-/
import FileTags.Database.Basic

namespace FileTags.Database

/-- A call that may fail and leaves a database behind. -/
abbrev Outcome (α : Type) := Except Error α × Database

/-! ## Tags of one file -/

/-- Writes a tag of a file. -/
def write (db : Database) (file : Path) (t : Tag) : Database :=
  { db with index := db.index.add file t }.record (.added t file)

/-- Deletes a tag of a file. -/
def delete (db : Database) (file : Path) (t : Tag) : Database :=
  { db with index := db.index.remove file t }.record (.removed t file)

/-- Writes the tags that a text stands for, as far as they are allowed, and gives those. -/
def add (d : Disk) (db : Database) (file : Path) (raw : String) : Outcome (List Tag) :=
  match relativePath d db.root file with
  | .error e => (.error e, db)
  | .ok known =>
    let tags := db.config.tagsToAdd raw
    if tags.isEmpty then (.ok tags, db.record (.refused raw))
    else (.ok tags, tags.foldl (write · known ·) db)

/-- Removes the tags that a text stands for, and gives those. -/
def remove (d : Disk) (db : Database) (file : Path) (raw : String) : Outcome (List Tag) :=
  match relativePath d db.root file with
  | .error e => (.error e, db)
  | .ok known =>
    let tags := db.config.tagsToRemove raw
    (.ok tags, tags.foldl (delete · known ·) db)

/-! ## Reading -/

/-- The record of a file. -/
def info (d : Disk) (db : Database) (file : Path) : Except Error Record :=
  match relativePath d db.root file with
  | .error e => .error e
  | .ok known => (db.index.get known).mapError fun e => .fileNotInDatabase e.path

/-- Records in the order of the components of their paths. -/
def sortByPath (records : List Record) : List Record :=
  records.mergeSort fun a b => a.path.order b.path

/-- The records that match an expression, in the order of the components of their paths. -/
def search (db : Database) (e : Query.Expr) : List Record := sortByPath (db.index.search e)

/-- The records that match a query. -/
def searchText (db : Database) (query : String) : Except Error (List Record) :=
  match Query.parse query with
  | .error e => .error (.query e)
  | .ok e => .ok (db.search e)

end FileTags.Database
