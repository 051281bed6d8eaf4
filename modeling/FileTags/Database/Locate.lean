/-
  Where databases are.

  A database lives in a directory `.sea-serpent`, and the directory that holds it is its root.
  Every file below the root is known by its resolved path from there.

  * `findDatabase` finds the database directory in a directory or in the nearest one above it;
  * `relativePath` is the path by which a file is known: a link and what it leads to have the
    same, and all that lies elsewhere has none.
-/
import FileTags.Error

namespace FileTags

/-- The name of a database directory. -/
def databaseName : Name := ⟨".sea-serpent", by decide⟩

/-- Whether a directory holds a database directory. -/
def containsDatabase (d : Disk) (dir : Path) : Except Error Bool :=
  (d.isDir (dir.child databaseName)).mapError .ofDisk

/-- The first of a directory, with the names `reversed`, and those above it that holds a database
    directory; `start` is where the search began. -/
def findFrom (d : Disk) (start : Path) : List Name → Except Error Path
  | [] =>
    match containsDatabase d .root with
    | .error e => .error e
    | .ok true => .ok (Path.root.child databaseName)
    | .ok false => .error (.databaseNotFound start)
  | n :: above =>
    let dir := Path.ofLocation (n :: above).reverse
    match containsDatabase d dir with
    | .error e => .error e
    | .ok true => .ok (dir.child databaseName)
    | .ok false => findFrom d start above

/-- The database directory in a directory or in the nearest one above it. -/
def findDatabase (d : Disk) (start : Path) : Except Error Path :=
  match d.resolve start with
  | .error e => .error (.ofResolve e)
  | .ok dir => findFrom d dir dir.names.reverse

/-- A path to a database directory, for a path to it or to its root. -/
def databaseDir (d : Disk) (p : Path) : Except Error Path :=
  if p.name? = some databaseName then .ok p
  else (containsDatabase d p).map fun found => if found then p.child databaseName else p

/-- The path by which an existing file is known in a database. -/
def relativePath (d : Disk) (root file : Path) : Except Error Path :=
  match d.resolveStrict file with
  | .error (.disk .nullCharacter) => .error .nullInPath
  | .error _ => .error (.pathNotFound file)
  | .ok resolved =>
    match resolved.relativeTo? root with
    | some p => .ok p
    | none => .error (.pathOutside resolved root)

end FileTags
