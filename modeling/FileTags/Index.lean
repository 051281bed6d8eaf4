/-
  The index of a database: which files carry which tags and attributes.

  The index is three tables.  A row for a file gives its path a number, rows for tags and
  attributes refer to that number, so that a file is renamed by changing one row.  Numbers are
  given once and never again.  A file is in the index as long as it carries something: removing
  its last tag or attribute removes its row, and removing its row removes all that refers to it.

  * `Index.add` and `Index.remove` write and delete a tag of a file; writing what is there and
    deleting what is not change nothing;
  * `Index.removeFile` and `Index.move` forget and rename a file;
  * `Index.get?`, `Index.all` and `Index.search` give the records of files.
-/
import FileTags.Query.Expr
import FileTags.Tag

namespace FileTags

/-- The tags of a record, words first. -/
def Record.carried (r : Record) : List Tag :=
  r.sortedTags.map Tag.bare ++ r.attributes.map fun (key, value) => Tag.pair key value

/-- The number that joins the rows of a file. -/
abbrev FileId := Nat

/-- The tables of an index. -/
structure Index where
  files : List (FileId × Path)
  tags : List (FileId × String)
  attributes : List (FileId × String × String)
  /-- The number of the next file. -/
  next : FileId
deriving DecidableEq

/-- The only fault of a path: the index has no file there. -/
structure UnknownFile where
  path : Path
deriving DecidableEq

protected def UnknownFile.message (e : UnknownFile) : String :=
  s!"Can't find file {e.path} in database"

namespace Index

/-- The index without files. -/
def empty : Index := ⟨[], [], [], 1⟩

instance : Inhabited Index := ⟨empty⟩

/-! ## Rows -/

/-- A table with a row in it. -/
def insertRow {α : Type} [DecidableEq α] (row : α) (rows : List α) : List α :=
  if row ∈ rows then rows else rows ++ [row]

/-- The number of the file at a path. -/
def id? (ix : Index) (p : Path) : Option FileId :=
  (ix.files.find? (decide <| ·.2 = p)).map (·.1)

/-- The number of the file at a path, which gets a row if it has none. -/
def enter (ix : Index) (p : Path) : FileId × Index :=
  match ix.id? p with
  | some id => (id, ix)
  | none => (ix.next, { ix with files := ix.files ++ [(ix.next, p)], next := ix.next + 1 })

/-- Whether rows for tags or attributes refer to a file. -/
def carries (ix : Index) (id : FileId) : Bool :=
  ix.tags.any (·.1 == id) || ix.attributes.any (·.1 == id)

/-- The index without the row of a file that carries nothing. -/
def prune (ix : Index) (id : FileId) : Index :=
  if ix.carries id then ix else { ix with files := ix.files.filter (·.1 ≠ id) }

/-- The index without the row of a file and without all that refers to it. -/
def erase (ix : Index) (id : FileId) : Index :=
  { ix with
    files := ix.files.filter (·.1 ≠ id)
    tags := ix.tags.filter (·.1 ≠ id)
    attributes := ix.attributes.filter (·.1 ≠ id) }

/-! ## Writing -/

/-- Writes a word for a file. -/
def addTag (ix : Index) (p : Path) (word : String) : Index :=
  let (id, ix) := ix.enter p
  { ix with tags := insertRow (id, word) ix.tags }

/-- Writes an attribute of a file. -/
def addAttribute (ix : Index) (p : Path) (key value : String) : Index :=
  let (id, ix) := ix.enter p
  { ix with attributes := insertRow (id, key, value) ix.attributes }

/-- Deletes a word of a file. -/
def removeTag (ix : Index) (p : Path) (word : String) : Index :=
  match ix.id? p with
  | none => ix
  | some id => { ix with tags := ix.tags.filter (· ≠ (id, word)) }.prune id

/-- Deletes an attribute of a file. -/
def removeAttribute (ix : Index) (p : Path) (key value : String) : Index :=
  match ix.id? p with
  | none => ix
  | some id => { ix with attributes := ix.attributes.filter (· ≠ (id, key, value)) }.prune id

/-- Writes a tag of a file. -/
def add (ix : Index) (p : Path) : Tag → Index
  | .bare word => ix.addTag p word
  | .pair key value => ix.addAttribute p key value

/-- Deletes a tag of a file. -/
def remove (ix : Index) (p : Path) : Tag → Index
  | .bare word => ix.removeTag p word
  | .pair key value => ix.removeAttribute p key value

/-- Forgets a file, and says whether it was there. -/
def removeFile (ix : Index) (p : Path) : Bool × Index :=
  match ix.id? p with
  | none => (false, ix)
  | some id => (true, ix.erase id)

/-- The index without the file at a path. -/
def discard (ix : Index) (p : Path) : Index := (ix.removeFile p).2

/-- Renames a file; what was known about another file at the new path is forgotten. -/
def move (ix : Index) (old new : Path) : Except UnknownFile Index :=
  match ix.id? old with
  | none => .error ⟨old⟩
  | some id =>
    if old = new then .ok ix
    else
      let ix := ix.discard new
      .ok { ix with files := ix.files.map fun row => if row.1 = id then (id, new) else row }

/-! ## Reading -/

/-- The record of a file with a number, at a path. -/
def record (ix : Index) (id : FileId) (p : Path) : Record where
  path := p
  tags := sortTexts ((ix.tags.filter (·.1 == id)).map (·.2))
  attributes := sortPairs ((ix.attributes.filter (·.1 == id)).map (·.2))

/-- The record of the file at a path. -/
def get? (ix : Index) (p : Path) : Option Record := (ix.id? p).map (ix.record · p)

/-- The record of the file at a path, or the fault that there is none. -/
def get (ix : Index) (p : Path) : Except UnknownFile Record :=
  match ix.get? p with
  | some r => .ok r
  | none => .error ⟨p⟩

/-- Whether the index has a file at a path. -/
def contains (ix : Index) (p : Path) : Bool := (ix.id? p).isSome

/-- The rows for files in the order of the texts of their paths. -/
def sortedFiles (ix : Index) : List (FileId × Path) :=
  ix.files.mergeSort fun a b => decide (a.2.toString ≤ b.2.toString)

/-- All records, in the order of the texts of their paths. -/
def all (ix : Index) : List Record := ix.sortedFiles.map fun (id, p) => ix.record id p

/-- The number of files. -/
def count (ix : Index) : Nat := ix.files.length

/-- The records that match an expression, in the order of the texts of their paths. -/
def search (ix : Index) (e : Query.Expr) : List Record := Query.filterRecords e ix.all

end Index

end FileTags
