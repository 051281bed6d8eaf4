/-
  Where an index is stored.

  The index of a database is in a file of its directory.  A file of at most one byte holds the
  empty index; a file of more bytes holds none.  As long as an index is open, it is stored in the
  file that it was read from.  A change to it is refused once that file has been moved or replaced.

  The program takes a storage by its name from those that are registered with it.  None is
  registered here, so that the local one is the only one.  What that keeps beside the data file
  while it writes is left out: nothing else is taken to have the name of the data file with
  `-journal` or `-wal` at its end.

  * `Environment` holds the settings that come from outside;
  * `openIndex` reads the index of a file, which is made if it is missing;
  * `openStorage` opens the index of a database directory in the storage that is asked for;
  * `DataFile` is the file of an open index, `DataFile.inPlace` says whether it is where it was
    opened, and `storeError?` why a change to the index cannot be stored;
  * `storeIndex` stores an index that is open.
-/
import FileTags.Disk.Edit
import FileTags.Error

namespace FileTags

/-- The settings that come from outside. -/
structure Environment where
  /-- The database to use. -/
  database : Option String := none
  /-- The name of the storage. -/
  storage : Option String := none
  /-- The directory of the user. -/
  home : Option String := none
  /-- What is set to `1` asks for all messages. -/
  verbose : Option String := none
deriving DecidableEq, Inhabited

/-- A setting that is not empty. -/
def setting? (value : Option String) : Option String := value.filter (!·.isEmpty)

/-- The name of the file that holds an index. -/
def dataName : Name := ⟨"data.sqlite", by decide⟩

/-- The number of bytes in the path of a file that can hold an index. -/
def dataPathLimit : Nat := 504

/-- Whether a file that holds no index may be given one: it has no bytes, or a single one, which
    some systems put into a file that they open. -/
def isBlankFile (data : ByteArray) : Bool := data.size ≤ 1

/-- The name of an index that is kept in memory. -/
def memoryName : String := ":memory:"

/-- The file of an open index. -/
structure DataFile where
  /-- What messages call it. -/
  name : String
  /-- The path at which it was opened, resolved. -/
  path : Path
  inode : Inode
deriving DecidableEq

/-- Whether a file is where it was opened. -/
def DataFile.inPlace (file : DataFile) (d : Disk) : Bool :=
  match d.stat file.path with
  | .ok (.file inode _ _) => inode = file.inode
  | _ => false

/-- An index that is open. -/
structure OpenIndex where
  index : Index
  /-- The file that it is stored in, unless it is kept in memory. -/
  file : Option DataFile := none

/-- An index in a file, which the disk holds in the newest layout from then on. -/
def OpenIndex.inFile (d : Disk) (file : DataFile) (index : Index) : Disk × OpenIndex :=
  (d.alter file.inode fun _ => .index newestLayout index, ⟨index, some file⟩)

/-- The index that a file holds; messages call the file by a name. -/
def indexOf (name : String) : Content → Except Error Index
  | .bytes data => if isBlankFile data then .ok .empty else .error (.notADatabase name)
  | .index version index =>
    if newestLayout < version then .error (.newerLayout name version) else .ok index

/-- Opens the index in the file at a resolved path, which is made if it is missing; messages call
    the file by a name. -/
def openResolved (d : Disk) (name : String) (file : Path) : Disk × Except Error OpenIndex :=
  if dataPathLimit < file.toString.utf8ByteSize then (d, .error (.cannotOpen name))
  else match d.lookup true file with
    | .ok (.absent dir n) =>
      let (disk, opened) :=
        OpenIndex.inFile (d.placeFile (dir ++ [n]) .empty Disk.publicMode)
          ⟨name, file, d.nextInode⟩ .empty
      (disk, .ok opened)
    | .ok (.found loc) =>
      match d.top.at? loc with
      | some (.file inode content _) =>
        match indexOf name content with
        | .error e => (d, .error e)
        | .ok index =>
          let (disk, opened) := OpenIndex.inFile d ⟨name, file, inode⟩ index
          (disk, .ok opened)
      | some .device => (d, .error (.cannotRead name))
      | _ => (d, .error (.cannotOpen name))
    | _ => (d, .error (.cannotOpen name))

/-- Opens the index that a name stands for: the one in a file, or a new one in memory. -/
def openIndex (d : Disk) (name : String) : Disk × Except Error OpenIndex :=
  let file := Path.ofString name
  if name.isEmpty ∨ name = memoryName then (d, .ok ⟨.empty, none⟩)
  else if file.hasNull then (d, .error .nullInPath)
  else match d.resolveMissing file with
    | .error _ => (d, .error (.cannotOpen name))
    | .ok resolved => openResolved d name resolved

/-- Opens the index of a database directory; unless `create` is set, its file must be there. -/
def openStorage (d : Disk) (env : Environment) (dir : Path) (storage : Option String)
    (create : Bool) : Disk × Except Error OpenIndex :=
  let name := ((setting? storage).or (setting? env.storage)).getD localStorage
  let file := dir.child dataName
  if name ≠ localStorage then (d, .error (.unknownStorage name))
  else if create then openIndex d file.toString
  else match d.isFile file with
    | .error e => (d, .error (.ofDisk e))
    | .ok false => (d, .error (.dataFileNotFound file))
    | .ok true => openIndex d file.toString

/-- The content of a file with another index, if it holds one. -/
def Content.withIndex (index : Index) : Content → Content
  | .index version _ => .index version index
  | content => content

/-- The disk with an index stored in a file, as long as that holds one. -/
def storeIndex (d : Disk) (file : Option DataFile) (index : Index) : Disk :=
  file.elim d fun f => d.alter f.inode (.withIndex index)

/-- Why a change to an open index cannot be stored. -/
def storeError? (d : Disk) (file : Option DataFile) : Option Error :=
  (file.filter (!·.inPlace d)).map fun f => .cannotWrite f.name

theorem storeError?_eq_some_iff {d : Disk} {file : Option DataFile} {e : Error} :
    storeError? d file = some e ↔
      ∃ f, file = some f ∧ f.inPlace d = false ∧ e = .cannotWrite f.name := by
  rw [storeError?, Option.map_eq_some_iff]
  constructor
  · rintro ⟨f, moved, rfl⟩
    obtain ⟨rfl, away⟩ := Option.filter_eq_some_iff.1 moved
    exact ⟨f, rfl, by simpa using away, rfl⟩
  · rintro ⟨f, rfl, away, rfl⟩
    exact ⟨f, Option.filter_eq_some_iff.2 ⟨rfl, by simpa using away⟩, rfl⟩

end FileTags
