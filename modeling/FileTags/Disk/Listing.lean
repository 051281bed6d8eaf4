/-
  The files of a tree.

  * `Node.files` lists the files of a tree with their locations;
  * `Node.changes` lists those that are new or hold something else than in another tree;
  * `Disk.ofTree` is a disk with a tree, whose files get numbers.
-/
import FileTags.Disk.Lookup

namespace FileTags

/-- A file of a tree. -/
structure FileEntry where
  location : Location
  content : Content
  mode : Nat
deriving DecidableEq

namespace Node

mutual

/-- The files at and below a location. -/
def filesAt (loc : Location) : Node → List FileEntry
  | file _ content mode => [⟨loc, content, mode⟩]
  | dir es => entryFiles loc es
  | _ => []

/-- The files of some entries. -/
def entryFiles (loc : Location) : List (Name × Node) → List FileEntry
  | [] => []
  | (n, node) :: es => node.filesAt (loc ++ [n]) ++ entryFiles loc es

end

/-- The files of a tree. -/
def files (node : Node) : List FileEntry := node.filesAt []

/-- Whether a tree has a file with a content at its location. -/
def hasFile (node : Node) (f : FileEntry) : Bool :=
  match node.at? f.location with
  | some (file _ content _) => content = f.content
  | _ => false

/-- The files of a tree that are new or hold something else than in the tree `old`. -/
def changes (old new : Node) : List FileEntry := new.files.filter (!old.hasFile ·)

/-! ## Numbering -/

mutual

/-- A tree whose files have the numbers from `next` on, and the number after these. -/
def renumber (next : Inode) : Node → Node × Inode
  | file _ content mode => (file next content mode, next.next)
  | dir es => let (es, next) := renumberEntries next es; (dir es, next)
  | node => (node, next)

/-- Entries whose files have the numbers from `next` on, and the number after these. -/
def renumberEntries (next : Inode) : List (Name × Node) → List (Name × Node) × Inode
  | [] => ([], next)
  | (n, node) :: es =>
    let (node, next) := node.renumber next
    let (es, next) := renumberEntries next es
    ((n, node) :: es, next)

end

end Node

/-- A disk with a tree and the location of its current directory. -/
def Disk.ofTree (tree : Node) (current : Location) : Disk :=
  let (top, nextInode) := tree.renumber ⟨0⟩
  { top, current := ⟨current, 0⟩, nextInode }

end FileTags
