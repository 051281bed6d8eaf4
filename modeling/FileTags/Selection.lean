/-
  The files that a command works on.

  Paths are given by hand, one a line, or both.  A path may stand for all that is below it, files
  or directories may be left out, and each path is taken once.

  * `walk` lists a path and what is below it, each directory right before its contents and the
    entries of a directory by name; links are listed and not followed, but the disk must be able to
    tell of each path whether it leads to a directory;
  * `select` lists the paths that are selected, in the order in which they are first named.
-/
import FileTags.Disk.Lookup
import FileTags.PathList

namespace FileTags

/-! ## What is below a path -/

/-- Whether a name stands before or beside another one. -/
def beforeByName (a b : Name × List Path) : Bool := decide (a.1.text ≤ b.1.text)

mutual

/-- A path and what is below it, where it leads to a node; the disk is asked about each path. -/
def below (d : Disk) (p : Path) : Node → Except DiskError (List Path)
  | .dir es =>
    match d.isDir p, belowEntries d p es with
    | .error e, _ => .error e
    | .ok false, _ => .ok [p]
    | .ok true, .error e => .error e
    | .ok true, .ok found => .ok (p :: (found.mergeSort beforeByName).flatMap (·.2))
  | _ => (d.isDir p).map fun _ => [p]

/-- What is at and below the entries of a directory, by their names. -/
def belowEntries (d : Disk) (p : Path) :
    List (Name × Node) → Except DiskError (List (Name × List Path))
  | [] => .ok []
  | (n, node) :: es =>
    match below d (p.child n) node, belowEntries d p es with
    | .error e, _ => .error e
    | .ok _, .error e => .error e
    | .ok paths, .ok found => .ok ((n, paths) :: found)

end

/-- A path and everything below it; what a link leads to is not below it. -/
def walk (d : Disk) (start : Path) : Except DiskError (List Path) :=
  match d.isDir start, d.isLink start with
  | .error e, _ => .error e
  | .ok false, _ => .ok [start]
  | .ok true, .error e => .error e
  | .ok true, .ok true => .ok [start]
  | .ok true, .ok false =>
    match d.stat start with
    | .error e => .error e
    | .ok node => below d start node

/-! ## Selecting -/

/-- Which kinds of paths are selected. -/
inductive KindFilter where
  | all
  | files
  | folders
deriving DecidableEq

/-- Whether a path is of a kind that is selected; what leads nowhere is no directory. -/
def KindFilter.accepts (d : Disk) : KindFilter → Path → Except DiskError Bool
  | all, _ => .ok true
  | files, p => (d.isDir p).map not
  | folders, p => d.isDir p

/-- The paths that are accepted, each once, without those in `seen`. -/
def acceptedOnce (accepts : Path → Except DiskError Bool) :
    List Path → List Path → Except DiskError (List Path)
  | _, [] => .ok []
  | seen, p :: ps =>
    if p ∈ seen then acceptedOnce accepts seen ps
    else match accepts p with
      | .error e => .error e
      | .ok false => acceptedOnce accepts seen ps
      | .ok true => (acceptedOnce accepts (p :: seen) ps).map (p :: ·)

/-- How paths are selected. -/
structure SelectOptions where
  recursive : Bool := false
  filter : KindFilter := .all
deriving DecidableEq, Inhabited

/-- The paths that some given paths stand for. -/
def expandPaths (d : Disk) (recursive : Bool) (paths : List Path) :
    Except DiskError (List Path) :=
  if recursive then (paths.mapM (walk d)).map List.flatten else .ok paths

/-- The paths that are selected. -/
def select (d : Disk) (options : SelectOptions) (paths : List Path) :
    Except DiskError (List Path) :=
  match expandPaths d options.recursive paths with
  | .error e => .error e
  | .ok expanded => acceptedOnce (options.filter.accepts d) [] expanded

end FileTags
