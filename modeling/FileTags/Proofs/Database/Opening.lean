/-
  Opening a database stores its index.

  The index of a database is stored in its data file, in the newest layout, as soon as it is opened.
  Opening the log may write to a file, but not over an index.

  * `OpenIndex.Stored` says that an open index is in its file, `openStorage_stored` that it is so
    when a database directory has been opened;
  * `Database.stores_of_attach`: opening the log leaves it there;
  * `Setup.stores_of_openDatabase`: so does opening the database of a command.
-/
import FileTags.Command.Perform
import FileTags.Proofs.Database.Creating
import FileTags.Proofs.Database.Saving
import FileTags.Proofs.Order

namespace FileTags

open Disk Node

/-! ## Files that hold an index -/

section
variable {d d' : Disk} {p : Path} {loc : Location} {inode : Inode} {mode mode' : Nat}
  {version : Int} {index : Index} {text : String}

/-- A file stays where it is when a node is put somewhere else. -/
theorem Disk.leaf_place {l : Location} {node new : Node}
    (there : d.top.at? loc = some node) (leaf : node.isDir = false)
    (free : ∀ es, d.top.at? l ≠ some (.dir es)) (ne : l ≠ loc) :
    (d.place l new).top.at? loc = some node := by
  refine leaf_put there leaf fun below => ?_
  obtain ⟨es, dir⟩ := dir_above below ne (by rw [there]; rfl)
  exact free es dir

/-- A file stays where it is when something comes where nothing was. -/
theorem Disk.leaf_place_vacant {l : Location} {node new : Node}
    (there : d.top.at? loc = some node) (leaf : node.isDir = false)
    (vacant : d.top.face? l = none) : (d.place l new).top.at? loc = some node := by
  have absent : d.top.at? l = none := by simpa [face?] using vacant
  refine leaf_place there leaf (fun es dir => ?_) fun same => ?_
  · rw [absent] at dir
    cases dir
  · rw [same, there] at absent
    cases absent

theorem Content.append_empty (content : Content) : content.append "" = content := by
  cases content with
  | bytes data => exact congrArg Content.bytes ByteArray.append_empty
  | index version ix => rfl

/-- Every file stays where the empty text is added to one. -/
theorem Disk.at?_addText_empty {content : Content} (grounded : d.Grounded)
    (added : d.addText p mode "" = .ok d')
    (there : d.top.at? loc = some (.file inode content mode')) :
    d'.top.at? loc = some (.file inode content mode') := by
  rcases update_cases added with
    ⟨dir, n, missed, rfl⟩ | ⟨l, inode', content', mode'', -, -, rfl⟩ | ⟨-, rfl⟩
  · exact leaf_place_vacant there rfl (grounded.absent missed).2
  · rw [if_pos (Content.append_empty content')]
    exact there
  · exact there

end

/-! ## Opening an index -/

/-- An open index is in its file. -/
def OpenIndex.Stored (data : OpenIndex) (d : Disk) : Prop :=
  ∃ loc file mode, data.file = some file ∧
    d.top.at? loc = some (.file file.inode (.index newestLayout data.index) mode)

section
variable {d d' : Disk} {env : Environment} {dir file : Path} {name : String}
  {storage : Option String} {create : Bool} {data : OpenIndex}

theorem OpenIndex.inFile_stored {loc : Location} {data : DataFile} {content : Content}
    {mode : Nat} (there : d.top.at? loc = some (.file data.inode content mode)) (index : Index) :
    (OpenIndex.inFile d data index).2.Stored (OpenIndex.inFile d data index).1 := by
  refine ⟨loc, data, mode, rfl, ?_⟩
  have changed : (d.alter data.inode fun _ => .index newestLayout index).top.at? loc = _ :=
    at?_alter data.inode _ d.top loc
  rw [there, Option.map_some, Node.alter, if_pos rfl] at changed
  exact changed

theorem openResolved_stored (grounded : d.Grounded)
    (opened : openResolved d name file = (d', .ok data)) : data.Stored d' := by
  rw [openResolved] at opened
  split at opened
  · cases opened
  split at opened
  next dir n missed =>
    cases opened
    exact OpenIndex.inFile_stored (at?_put (grounded.absent missed).1) .empty
  next loc found =>
    split at opened
    next there =>
      split at opened
      · cases opened
      · cases opened
        exact OpenIndex.inFile_stored there _
    · cases opened
    · cases opened
  next => cases opened

theorem openIndex_stored (grounded : d.Grounded) (named : ¬ (name.isEmpty ∨ name = memoryName))
    (opened : openIndex d name = (d', .ok data)) : data.Stored d' := by
  rw [openIndex, if_neg named] at opened
  split at opened
  · cases opened
  split at opened
  · cases opened
  · exact openResolved_stored grounded opened

/-- The name of a data file is not the one of the memory. -/
theorem dataFile_named (dir : Path) :
    ¬ ((dir.child dataName).toString.isEmpty ∨ (dir.child dataName).toString = memoryName) := by
  have last : (dir.child dataName).names.getLast? = some dataName := List.getLast?_concat
  rintro (empty | memory)
  · rw [← Path.ofString_toString (dir.child dataName), String.isEmpty_iff.1 empty] at last
    revert last
    decide +kernel
  · rw [← Path.ofString_toString (dir.child dataName), memory] at last
    revert last
    decide +kernel

/-- **An index that is opened is stored.** -/
theorem openStorage_stored (grounded : d.Grounded)
    (opened : openStorage d env dir storage create = (d', .ok data)) : data.Stored d' := by
  rw [openStorage] at opened
  split at opened
  · cases opened
  split at opened
  · exact openIndex_stored grounded (dataFile_named dir) opened
  split at opened
  · cases opened
  · cases opened
  · exact openIndex_stored grounded (dataFile_named dir) opened

end

/-! ## Opening a database -/

namespace Database

variable {d d' : Disk} {env : Environment} {dir : Path} {storage : Option String} {logged : Bool}
  {db : Database}

/-- Opening the log leaves every file where it is. -/
theorem at?_openLog {loc : Location} {inode : Inode} {mode : Nat} {content : Content}
    {log : Except DiskError LogSink} (grounded : d.Grounded)
    (there : d.top.at? loc = some (.file inode content mode))
    (opened : openLog d dir = (d', log)) :
    d'.top.at? loc = some (.file inode content mode) := by
  rw [openLog] at opened
  split at opened
  · cases opened
    exact there
  next added =>
    have kept := at?_addText_empty grounded added there
    split at opened <;> (cases opened; exact kept)

/-- Opening a database leaves every file where it is, once its index is open. -/
theorem at?_attach {config : Config} {data : OpenIndex} {loc : Location} {inode : Inode}
    {mode : Nat} {content : Content} {opened : Except Error Database} (grounded : d.Grounded)
    (there : d.top.at? loc = some (.file inode content mode))
    (ended : attach d dir config data logged = (d', opened)) :
    d'.top.at? loc = some (.file inode content mode) := by
  rw [attach] at ended
  split at ended
  · cases ended
    exact there
  dsimp only at ended
  split at ended
  · cases ended
    exact there
  split at ended
  next log =>
    cases ended
    exact at?_openLog grounded there log
  next log =>
    cases ended
    exact at?_openLog grounded there log

theorem attach_eq_ok {config : Config} {data : OpenIndex}
    (opened : attach d dir config data logged = (d', .ok db)) :
    d.resolve dir = .ok db.path ∧ db.config = config ∧ db.index = data.index ∧
      db.dataFile = data.file := by
  rw [attach] at opened
  split at opened
  · cases opened
  next path found =>
    dsimp only at opened
    split at opened
    · cases opened
      exact ⟨found, rfl, rfl, rfl⟩
    split at opened <;> (cases opened; exact ⟨found, rfl, rfl, rfl⟩)

theorem stores_of_attach {config : Config} {data : OpenIndex} (grounded : d.Grounded)
    (stored : data.Stored d) (opened : attach d dir config data logged = (d', .ok db)) :
    ∃ loc, db.Stores d' loc db.index := by
  obtain ⟨loc, file, mode, same, there⟩ := stored
  obtain ⟨-, -, index, dataFile⟩ := attach_eq_ok opened
  refine ⟨loc, file, mode, dataFile.trans same, ?_⟩
  rw [index]
  exact at?_attach grounded there opened

theorem stores_of_load (grounded : d.Grounded)
    (opened : load d env dir storage logged = (d', .ok db)) :
    ∃ loc, db.Stores d' loc db.index := by
  rw [load] at opened
  split at opened
  · cases opened
  · cases opened
  rw [read] at opened
  split at opened
  · cases opened
  split at opened
  · cases opened
  next found =>
    have filed := filed_openStorage grounded found
    exact stores_of_attach (filed.grounded grounded) (openStorage_stored grounded found) opened

end Database

/-- **A database that is opened is stored.** -/
theorem Setup.stores_of_openDatabase {s : Setup} {d d' : Disk} {db : Database}
    (grounded : d.Grounded) (opened : s.openDatabase d = (d', .ok db)) :
    ∃ loc, db.Stores d' loc db.index := by
  rw [openDatabase] at opened
  split at opened
  · rw [Database.loadFrom] at opened
    split at opened
    · cases opened
    · exact Database.stores_of_load grounded opened
  · split at opened
    · cases opened
    · exact Database.stores_of_load grounded opened

end FileTags
