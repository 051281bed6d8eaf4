/-
  Finding what a path leads to.

  A path is walked from the top, or from the current directory, one step at a time.  A link on
  the way is replaced by the path it holds, and so is a link at the end unless the link itself is
  asked for.  At most `linkLimit` links are followed.

  The current directory may have been removed.  It is empty from then on, and nothing can be made
  in it, but a step up from it still leads to the directory that it was in.

  What the model of a disk, and of the program on it, takes for granted: everybody may read, write
  and search everything, whatever the permission bits say; there is memory and room on the disk
  enough, and no recursion is too deep; all names and texts are made of characters, without halves
  of surrogate pairs and without bytes that are none; nobody else changes the disk meanwhile.

  * `Disk` is a tree with a current directory;
  * `Disk.lookup` finds the spot of a path, there or just missing in its directory;
  * `Disk.stat` and `Disk.lstat` give the node of a path, `isDir`, `isFile` and `present` ask for
    it and take a path that leads nowhere as a no.
-/
import FileTags.Disk.Node

namespace FileTags

open Text

/-- A directory that may have been removed: on the way down to it from `base`, which is there, are
    so many directories that have been removed. -/
structure Whereabouts where
  base : Location
  removed : Nat := 0
deriving DecidableEq

/-- A tree of files and the current directory. -/
structure Disk where
  top : Node
  current : Whereabouts
  /-- The number of the next file that is made. -/
  nextInode : Inode
deriving DecidableEq

/-- Why a path cannot be used. -/
inductive DiskError where
  | notFound
  | notDirectory
  | isDirectory
  | alreadyExists
  | notEmpty
  | busy
  | invalid
  | tooManyLinks
  | nameTooLong
  /-- A null character cannot stand in a path. -/
  | nullCharacter
deriving DecidableEq

/-- The errors that say no more than that there is nothing at a path. -/
def DiskError.isMiss : DiskError → Bool
  | .notFound => true
  | .notDirectory => true
  | .tooManyLinks => true
  | .nullCharacter => true
  | _ => false

/-! ## Steps -/

/-- One step on a tree. -/
inductive Step where
  | self
  | up
  | down (n : Name)
deriving DecidableEq

namespace Step

/-- The step that a component of a path stands for. -/
def ofName (n : Name) : Step := if n = Name.up then up else down n

/-- The step that a piece of a path stands for, be it empty or a dot. -/
def ofChars (cs : List Char) : Step := (Name.ofChars? cs).elim self ofName

end Step

/-- The steps of a path. -/
def Path.steps (p : Path) : List Step := p.names.map Step.ofName

/-- The steps of a link; a slash at the end asks for a directory. -/
def linkSteps (target : String) : List Step := (splitOn '/' target.toList).map Step.ofChars

/-- Whether a link starts at the top. -/
def linkIsAbsolute (target : String) : Bool := target.toList.head? = some '/'

/-- A link that holds a name leads one step down. -/
theorem linkSteps_name {n : Name} (ne : n ≠ Name.up) : linkSteps n.text = [.down n] := by
  rw [linkSteps, splitOn_of_not_mem n.isName.2.2]
  simp [Step.ofChars, Step.ofName, ne]

theorem not_linkIsAbsolute_name {n : Name} : linkIsAbsolute n.text = false := by
  refine decide_eq_false fun head => n.isName.2.2 ?_
  exact List.mem_of_mem_head? head

/-! ## Walking -/

/-- Where some steps lead. -/
inductive Arrival where
  | found (loc : Location)
  /-- The last step misses, in an existing directory. -/
  | absent (dir : Location) (n : Name)
  | failed (e : DiskError)
  /-- A link in a directory stands before the rest of the steps. -/
  | link (dir : Location) (target : String) (rest : List Step)
deriving DecidableEq

/-- The number of bytes that a name may have. -/
def nameLimit : Nat := 255

/-- The number of bytes that a path may have. -/
def pathLimit : Nat := 4095

/-- The number of links that are followed for one path. -/
def linkLimit : Nat := 40

/-- Walks from a location to the first link that has to be followed; `follow` says whether that
    includes a link at the end. -/
def descend (top : Node) (follow : Bool) : Location → List Step → Arrival
  | loc, [] => .found loc
  | loc, .self :: rest => descend top follow loc rest
  | loc, .up :: rest => descend top follow loc.dropLast rest
  | loc, .down n :: rest =>
    if nameLimit < n.byteSize then .failed .nameTooLong
    else match top.at? (loc ++ [n]) with
      | none => if rest.isEmpty then .absent loc n else .failed .notFound
      | some (.dir _) => descend top follow (loc ++ [n]) rest
      | some (.link target) =>
        if rest.isEmpty && !follow then .found (loc ++ [n]) else .link loc target rest
      | some _ => if rest.isEmpty then .found (loc ++ [n]) else .failed .notDirectory

/-- The spot of a path: a node, the name that its directory misses, or a directory that has been
    removed. -/
inductive Spot where
  | found (loc : Location)
  | absent (dir : Location) (n : Name)
  | removed (dir : Whereabouts)
deriving DecidableEq

/-- Steps from below so many removed directories, as far as these matter: how many of them are still
    above in the end, and the steps that are left. -/
def climb : Nat → List Step → Except DiskError (Nat × List Step)
  | 0, steps => .ok (0, steps)
  | removed + 1, [] => .ok (removed + 1, [])
  | removed + 1, .self :: rest => climb (removed + 1) rest
  | removed + 1, .up :: rest => climb removed rest
  | _ + 1, .down n :: _ => .error (if nameLimit < n.byteSize then .nameTooLong else .notFound)

/-- Walks from a location and follows so many links. -/
def travel (top : Node) (follow : Bool) : Nat → Location → List Step → Except DiskError Spot
  | budget, loc, steps =>
    match descend top follow loc steps with
    | .found loc => .ok (.found loc)
    | .absent dir n => .ok (.absent dir n)
    | .failed e => .error e
    | .link dir target rest =>
      match budget with
      | 0 => .error .tooManyLinks
      | budget + 1 =>
        travel top follow budget (if linkIsAbsolute target then [] else dir)
          (linkSteps target ++ rest)

/-- Whether a path holds a null character. -/
def Path.hasNull (p : Path) : Bool := p.names.any ('\x00' ∈ ·.text.toList)

namespace Disk

/-- The directory that a path starts from. -/
def start (d : Disk) (p : Path) : Whereabouts := if p.isAbsolute then ⟨[], 0⟩ else d.current

/-- The spot of a path. -/
def lookup (d : Disk) (follow : Bool) (p : Path) : Except DiskError Spot :=
  if p.hasNull then .error .nullCharacter
  else if pathLimit < p.toString.utf8ByteSize then .error .nameTooLong
  else
    let from_ := d.start p
    match climb from_.removed p.steps with
    | .error e => .error e
    | .ok (0, steps) => travel d.top follow linkLimit from_.base steps
    | .ok (removed, _) => .ok (.removed ⟨from_.base, removed⟩)

/-- The location of a path that leads to what is still there. -/
def locate (d : Disk) (follow : Bool) (p : Path) : Except DiskError Location :=
  match d.lookup follow p with
  | .error e => .error e
  | .ok (.found loc) => .ok loc
  | .ok _ => .error .notFound

/-- The node that a path leads to. -/
def node (d : Disk) (follow : Bool) (p : Path) : Except DiskError Node :=
  match d.lookup follow p with
  | .error e => .error e
  | .ok (.absent _ _) => .error .notFound
  | .ok (.removed _) => .ok (.dir [])
  | .ok (.found loc) =>
    match d.top.at? loc with
    | none => .error .notFound
    | some node => .ok node

/-- The node that a path leads to, all links followed. -/
def stat (d : Disk) (p : Path) : Except DiskError Node := d.node true p

/-- The node that a path leads to, which may be a link. -/
def lstat (d : Disk) (p : Path) : Except DiskError Node := d.node false p

/-! ## Questions -/

/-- Whether a path leads to a node of a kind, all links followed. -/
def leadsTo (d : Disk) (kind : Node → Bool) (p : Path) : Except DiskError Bool :=
  match d.stat p with
  | .ok node => .ok (kind node)
  | .error e => if e.isMiss then .ok false else .error e

/-- Whether a path leads to a directory. -/
def isDir (d : Disk) (p : Path) : Except DiskError Bool := d.leadsTo Node.isDir p

/-- Whether a path leads to a file. -/
def isFile (d : Disk) (p : Path) : Except DiskError Bool := d.leadsTo Node.isFile p

/-- Whether a path leads anywhere. -/
def present (d : Disk) (p : Path) : Except DiskError Bool := d.leadsTo (fun _ => true) p

/-- Whether there is a link at a path. -/
def isLink (d : Disk) (p : Path) : Except DiskError Bool :=
  match d.lstat p with
  | .ok node => .ok node.isLink
  | .error e => if e.isMiss then .ok false else .error e

end Disk

end FileTags
