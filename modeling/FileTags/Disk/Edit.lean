/-
  Changing what is on a disk.

  Every change either happens as a whole or not at all; only `makeDirs`, which makes a directory
  after the ones above it, and `remove`, which empties a directory before it goes, can stop half way.

  * `makeDir`, `makeDirs`, `makeLink` and `setContent` make something at a path, `addText` adds
    to a file, `remove` deletes a file, a link, or a directory with all in it;
  * `alter` changes a file that is open, wherever it has been moved to;
  * `rename` moves a node to another place, where it replaces a file or an empty directory; two
    names of one file both stay, and what is written under one of them is read under the other;
  * `enter` changes the current directory, which otherwise stays the same directory however it is
    renamed.
-/
import FileTags.Disk.Lookup

namespace FileTags

/-- A file's content with a text at the end. -/
def Content.append (text : String) : Content → Content
  | .bytes data => .bytes (data ++ text.toUTF8)
  | .index version ix => .index version ix

/-! ## Directories that are kept track of -/

/-- A location after what is at `old` has moved to `new`. -/
def relocate (old new loc : Location) : Location :=
  if old.isPrefixOf loc then new ++ loc.drop old.length else loc

namespace Whereabouts

/-- A directory after all that is below a location has been removed. -/
def emptied (loc : Location) (w : Whereabouts) : Whereabouts :=
  if loc.isPrefixOf w.base then ⟨loc, w.removed + (w.base.length - loc.length)⟩ else w

/-- A directory after what is at a location has been removed. -/
def without (loc : Location) (w : Whereabouts) : Whereabouts :=
  if loc.isPrefixOf w.base then w.emptied loc.dropLast else w

/-- A directory after what is at `old` has moved to `new`, in the place of what was there. -/
def moved (old new : Location) (w : Whereabouts) : Whereabouts :=
  { w.without new with base := relocate old new (w.without new).base }

end Whereabouts

namespace Disk

/-- The permission bits of a file that everybody may read. -/
def publicMode : Nat := 0o644

/-- The permission bits of a file that only its owner may read. -/
def privateMode : Nat := 0o600

/-- The disk with a node at a location. -/
def place (d : Disk) (loc : Location) (new : Node) : Disk := { d with top := Node.put new loc d.top }

/-- The disk with a new file at a location. -/
def placeFile (d : Disk) (loc : Location) (content : Content) (mode : Nat) : Disk :=
  { d.place loc (.file d.nextInode content mode) with nextInode := d.nextInode.next }

/-! ## Making -/

/-- Puts a node at a path where nothing is, not even a link. -/
def make (d : Disk) (p : Path) (new : Node) : Except DiskError Disk :=
  match d.lookup false p with
  | .error e => .error e
  | .ok (.absent dir n) => .ok (d.place (dir ++ [n]) new)
  | .ok _ => .error .alreadyExists

/-- Makes a directory. -/
def makeDir (d : Disk) (p : Path) : Except DiskError Disk := d.make p (.dir [])

/-- Makes a link. -/
def makeLink (d : Disk) (p : Path) (target : String) : Except DiskError Disk :=
  if target.isEmpty then .error .notFound else d.make p (.link target)

/-- The error of a directory that could not be made, unless it is there. -/
def orPresent (d : Disk) (p : Path) (e : DiskError) : Except DiskError Unit :=
  match d.isDir p with
  | .error e => .error e
  | .ok true => .ok ()
  | .ok false => .error e

/-- Makes the directory with the names `reversed`, the last one first, and those above it that are
    missing; one that is there is left alone. -/
def makeDirsAt (anchor : Anchor) : List Name → Disk → Disk × Except DiskError Unit
  | reversed, d =>
    let p : Path := ⟨anchor, reversed.reverse⟩
    match d.makeDir p with
    | .ok d => (d, .ok ())
    | .error .notFound =>
      match reversed with
      | [] => (d, .error .notFound)
      | _ :: above =>
        match makeDirsAt anchor above d with
        | (d, .error e) => (d, .error e)
        | (d, .ok ()) =>
          match d.makeDir p with
          | .ok d => (d, .ok ())
          | .error .notFound => (d, .error .notFound)
          | .error e => (d, d.orPresent p e)
    | .error e => (d, d.orPresent p e)

/-- Makes a directory and those above it that are missing. -/
def makeDirs (d : Disk) (p : Path) : Disk × Except DiskError Unit :=
  makeDirsAt p.anchor p.names.reverse d

/-! ## Files -/

/-- The disk with a change to the content of a file, if that has not been deleted. -/
def alter (d : Disk) (inode : Inode) (change : Content → Content) : Disk :=
  { d with top := d.top.alter inode change }

/-- The disk with a change to the file at a path, all links followed; a file that is missing is
    made first, with the given permission bits. -/
def update (d : Disk) (p : Path) (mode : Nat) (change : Content → Content) :
    Except DiskError Disk :=
  match d.lookup true p with
  | .error e => .error e
  | .ok (.absent dir n) => .ok (d.placeFile (dir ++ [n]) (change .empty) mode)
  | .ok (.removed _) => .error .isDirectory
  | .ok (.found loc) =>
    match d.top.at? loc with
    | some (.file inode content _) =>
      .ok (if change content = content then d else d.alter inode change)
    | some .device => .ok d
    | some (.dir _) => .error .isDirectory
    | some (.link _) => .error .tooManyLinks
    | none => .error .notFound

/-- Writes a file. -/
def setContent (d : Disk) (p : Path) (content : Content) : Except DiskError Disk :=
  d.update p publicMode fun _ => content

/-- Adds a text to a file. -/
def addText (d : Disk) (p : Path) (mode : Nat) (text : String) : Except DiskError Disk :=
  d.update p mode (Content.append text)

/-- The content of a file. -/
def contentOf (d : Disk) (p : Path) : Except DiskError Content :=
  match d.stat p with
  | .error e => .error e
  | .ok (.file _ content _) => .ok content
  | .ok .device => .ok .empty
  | .ok (.dir _) => .error .isDirectory
  | .ok (.link _) => .error .tooManyLinks

/-! ## Moving and removing -/

/-- Deletes what is at a path: a file, a link, or a directory with all in it. A directory that the
    path does not name is emptied, but cannot be deleted. -/
def remove (d : Disk) (p : Path) : Disk × Except DiskError Unit :=
  match d.locate false p with
  | .error e => (d, .error e)
  | .ok loc =>
    if p.name?.all (· = Name.up) then
      ({ d.place loc (.dir []) with current := d.current.emptied loc }, .error .invalid)
    else ({ d with top := d.top.erase loc, current := d.current.without loc }, .ok ())

/-- The directory of a path and its last name, which must be a name of its own. -/
def entryOf (d : Disk) (p : Path) : Except DiskError (Location × Option Name) :=
  match d.locate true p.parent with
  | .error e => .error e
  | .ok dir =>
    if ((d.top.at? dir).map Node.isDir).getD false then
      .ok (dir, p.name?.filter (· ≠ Name.up))
    else .error .notDirectory

/-- Whether a node can take the place of another one. -/
def replaceError? (old : Node) : Option Node → Option DiskError
  | none => none
  | some (.dir es) =>
    if !old.isDir then some .isDirectory else if es.isEmpty then none else some .notEmpty
  | some _ => if old.isDir then some .notDirectory else none

/-- A move leaves a node where it is: at the location that it is moved to, or under two names of
    one file. -/
def Rests (d : Disk) (node : Node) (old new : Location) : Prop :=
  old = new ∨ (d.top.at? new).any node.sameFile

instance {d : Disk} {node : Node} {old new : Location} : Decidable (d.Rests node old new) :=
  inferInstanceAs (Decidable (_ ∨ _))

/-- Moves the node at a location to another location. -/
def moveNode (d : Disk) (old new : Location) : Except DiskError Disk :=
  match d.top.at? old with
  | none => .error .notFound
  | some node =>
    if d.Rests node old new then .ok d
    else match replaceError? node (d.top.at? new) with
      | some e => .error e
      | none =>
        .ok { d with
          top := Node.put node new (d.top.erase old)
          current := d.current.moved old new }

/-- Renames what is at a path: the last names of both paths stay unresolved. -/
def rename (d : Disk) (source target : Path) : Except DiskError Disk :=
  if source.hasNull || target.hasNull then .error .nullCharacter
  else if pathLimit < source.toString.utf8ByteSize ∨ pathLimit < target.toString.utf8ByteSize then
    .error .nameTooLong
  else match d.entryOf source, d.entryOf target with
    | .error e, _ => .error e
    | _, .error e => .error e
    | .ok (sourceDir, some n), .ok (targetDir, some m) =>
      if nameLimit < n.byteSize ∨ nameLimit < m.byteSize then .error .nameTooLong
      else if (sourceDir ++ [n]).isPrefixOf targetDir then .error .invalid
      else if (targetDir ++ [m]).isPrefixOf sourceDir then .error .notEmpty
      else d.moveNode (sourceDir ++ [n]) (targetDir ++ [m])
    | _, _ => .error .busy

/-- Changes the current directory. -/
def enter (d : Disk) (p : Path) : Except DiskError Disk :=
  match d.lookup true p with
  | .error e => .error e
  | .ok (.absent _ _) => .error .notFound
  | .ok (.removed w) => .ok { d with current := w }
  | .ok (.found loc) =>
    if ((d.top.at? loc).map Node.isDir).getD false then .ok { d with current := ⟨loc, 0⟩ }
    else .error .notDirectory

end Disk

end FileTags
