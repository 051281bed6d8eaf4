/-
  Moving a file on the disk with its tags.

  The file that a path resolves to is renamed; of the new path only the directory is resolved,
  since renaming replaces what has the new name.  The index follows once the file has moved, unless
  it can no longer be stored: the file that has moved, or the one that has been replaced, may be
  the data file itself, to which a link in the database directory leads.

  * `Database.move` moves a file and gives the path by which it is known from then on;
  * `Database.moveTarget` is the place it goes to, and `Database.refusal?` says why the index cannot
    follow.
-/
import FileTags.Database.Tagging

namespace FileTags.Database

/-- The place that a new path stands for: its directory is resolved, its name is not. -/
def moveTarget (d : Disk) (new : Path) : Except Error Path :=
  match d.resolve new.parent with
  | .error e => .error (.ofResolve e)
  | .ok dir => .ok (new.name?.elim dir dir.child)

/-- The places that a file moves from and to, as paths that the database knows. -/
def movePlan (d : Disk) (db : Database) (source new : Path) : Except Error (Path × Path) :=
  match relativePath d db.root source with
  | .error e => .error e
  | .ok old =>
    match db.index.get old with
    | .error e => .error (.fileNotInDatabase e.path)
    | .ok _ =>
      match moveTarget d new with
      | .error e => .error e
      | .ok target =>
        match target.relativeTo? db.root with
        | none => .error (.pathOutside target db.root)
        | some known => .ok (old, known)

/-- Why the index cannot follow a file that has moved, which changes it unless the path is the
    same. -/
def refusal? (d : Disk) (db : Database) (old known : Path) : Option Error :=
  if old = known then none else storeError? d db.dataFile

/-- Moves the file at the path that a text denotes. -/
def move (d : Disk) (db : Database) (source : String) (new : Path) : Disk × Outcome Path :=
  match movePlan d db (Path.ofString source) new with
  | .error e => (d, .error e, db)
  | .ok (old, known) =>
    match d.rename (db.absolutePath old) (db.absolutePath known) with
    | .error .nullCharacter => (d, .error .nullInPath, db)
    | .error _ => (d, .error (.cannotMove source new), db)
    | .ok d =>
      match db.index.move old known with
      | .error e => (d, .error (.fileNotInDatabase e.path), db)
      | .ok index =>
        match refusal? d db old known with
        | some e => (d, .error e, db)
        | none => (d, .ok known, { db with index }.record (.moved old known))

end FileTags.Database
