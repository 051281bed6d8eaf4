/-
  What saving changes on a disk.

  Storing the index and writing the log change what two files hold, and nothing else.

  * `Database.shape_save`, `Database.current_save` and `Database.coherent_save`: the tree keeps its
    shape, and all names of a file still lead to the same;
  * `Database.at?_save`, `Database.at?_save_data` and `Database.at?_save_log`: other files are as
    they were, the data file holds the index, and the log grows by the journal;
  * `Database.Stores` says that the data file holds an index, `Database.Stores.save` that saving
    stores the one of the database.
-/
import FileTags.Database.Basic
import FileTags.Proofs.Disk.Trees

namespace FileTags

open Node

namespace Database

variable {d : Disk} {db : Database} {stamp : String} {loc : Location} {inode : Inode}
  {content : Content} {mode : Nat} {version : Int} {index : Index} {file : DataFile}

/-! ## Storing the index -/

theorem current_storeIndex (file : Option DataFile) :
    (storeIndex d file index).current = d.current := by
  cases file <;> rfl

theorem shape_storeIndex (file : Option DataFile) :
    (storeIndex d file index).top.shape = d.top.shape := by
  cases file with
  | none => rfl
  | some file => exact shape_alter file.inode _ d.top

theorem at?_storeIndex (index : Index)
    (there : d.top.at? loc = some (.file inode content mode))
    (file : Option DataFile) : (storeIndex d file index).top.at? loc =
      some (.file inode (if file.map (·.inode) = some inode then content.withIndex index
        else content) mode) := by
  cases file with
  | none => simpa [storeIndex] using there
  | some file =>
    have changed : (storeIndex d (some file) index).top.at? loc = _ :=
      at?_alter file.inode (Content.withIndex index) d.top loc
    rw [changed, there, Option.map_some, alter]
    simp [eq_comm]

/-! ## Writing the log -/

theorem current_writeLog {text : String} (sink : LogSink) :
    (writeLog d text sink).current = d.current := by
  cases sink <;> rfl

theorem shape_writeLog {text : String} (sink : LogSink) :
    (writeLog d text sink).top.shape = d.top.shape := by
  cases sink with
  | file inode => exact shape_alter inode _ d.top
  | device => rfl

theorem at?_writeLog {text : String} (there : d.top.at? loc = some (.file inode content mode))
    (sink : LogSink) : (writeLog d text sink).top.at? loc =
      some (.file inode (if sink = .file inode then content.append text else content) mode) := by
  cases sink with
  | device => simpa [writeLog] using there
  | file inode' =>
    have changed : (writeLog d text (.file inode')).top.at? loc = _ :=
      at?_alter inode' (Content.append text) d.top loc
    rw [changed, there, Option.map_some, alter]
    simp [eq_comm]

/-! ## Saving -/

theorem save_fst : (db.save d stamp).1 =
    db.log.elim (storeIndex d db.dataFile db.index)
      (writeLog (storeIndex d db.dataFile db.index) (logText stamp db.journal)) := rfl

theorem current_save : (db.save d stamp).1.current = d.current := by
  rw [save_fst]
  cases db.log with
  | none => exact current_storeIndex _
  | some sink => exact (current_writeLog sink).trans (current_storeIndex _)

theorem shape_save : (db.save d stamp).1.top.shape = d.top.shape := by
  rw [save_fst]
  cases db.log with
  | none => exact shape_storeIndex _
  | some sink => exact (shape_writeLog sink).trans (shape_storeIndex _)

theorem coherent_save (coherent : d.top.Coherent) : (db.save d stamp).1.top.Coherent := by
  have stored : (storeIndex d db.dataFile db.index).top.Coherent := by
    cases db.dataFile with
    | none => exact coherent
    | some file => exact coherent.alter file.inode _
  rw [save_fst]
  cases db.log with
  | none => exact stored
  | some sink =>
    cases sink with
    | file inode => exact stored.alter inode _
    | device => exact stored

/-- A file that is neither the data file nor the log is as it was. -/
theorem at?_save (there : d.top.at? loc = some (.file inode content mode))
    (data : db.dataInode ≠ some inode) (log : db.log ≠ some (.file inode)) :
    (db.save d stamp).1.top.at? loc = some (.file inode content mode) := by
  have stored := at?_storeIndex db.index there db.dataFile
  rw [← dataInode, if_neg data] at stored
  rw [save_fst]
  cases sink : db.log with
  | none => exact stored
  | some sink' =>
    have other : sink' ≠ .file inode := fun same => log (sink.trans (congrArg some same))
    rw [Option.elim_some, at?_writeLog stored, if_neg other]

/-- The data file holds the index. -/
theorem at?_save_data
    (there : d.top.at? loc = some (.file file.inode (.index version index) mode))
    (data : db.dataFile = some file) :
    (db.save d stamp).1.top.at? loc = some (.file file.inode (.index version db.index) mode) := by
  have same : db.dataInode = some file.inode := by rw [dataInode, data, Option.map_some]
  have stored := at?_storeIndex db.index there db.dataFile
  rw [← dataInode, if_pos same] at stored
  rw [save_fst]
  cases db.log with
  | none => exact stored
  | some sink =>
    rw [Option.elim_some, at?_writeLog stored]
    -- What is written to a log is lost where an index is held.
    split <;> rfl

/-- The data file of a database is at a location and holds an index. -/
def Stores (db : Database) (d : Disk) (loc : Location) (index : Index) : Prop :=
  ∃ file mode, db.dataFile = some file ∧
    d.top.at? loc = some (.file file.inode (.index newestLayout index) mode)

/-- **After saving**, the data file holds the index. -/
theorem Stores.save {now : Database} (stores : db.Stores d loc index)
    (data : now.dataFile = db.dataFile) : db.Stores (now.save d stamp).1 loc now.index := by
  obtain ⟨file, mode, same, there⟩ := stores
  exact ⟨file, mode, same, at?_save_data there (data.trans same)⟩

end Database

end FileTags
