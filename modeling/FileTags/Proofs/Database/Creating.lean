/-
  Databases that cannot be created.

  A database is created in steps: its directory is made first, then its configuration is written
  and its index is opened.  Nothing is taken back when a later step fails.

  * `filed_openStorage`, `Database.filed_attach`: the later steps only make files;
  * `Database.Creatable` says that the first step succeeds;
  * `Database.create_failed`: a creation that fails has left all as it was if the first step was
    refused; otherwise its directory stays, and no database can be created there any more.
-/
import FileTags.Database.Basic
import FileTags.Proofs.Config.Files

namespace FileTags

open Disk

section
variable {d d' : Disk} {env : Environment} {dir : Path} {name : String} {storage : Option String}

/-! ## Opening an index -/

theorem filed_openResolved {file : Path} {opened : Except Error OpenIndex} (grounded : d.Grounded)
    (ended : openResolved d name file = (d', opened)) : d.Filed d' := by
  rw [openResolved] at ended
  split at ended
  · cases ended
    exact .refl
  split at ended
  next dir n missed =>
    cases ended
    have placed : d.Filed (d.placeFile (dir ++ [n]) .empty publicMode) :=
      filed_placeFile _ _ grounded missed
    exact placed.trans (filed_alter _ _)
  next loc found =>
    split at ended
    · split at ended
      · cases ended
        exact .refl
      · cases ended
        exact filed_alter _ _
    · cases ended
      exact .refl
    · cases ended
      exact .refl
  next =>
    cases ended
    exact .refl

theorem filed_openIndex {opened : Except Error OpenIndex} (grounded : d.Grounded)
    (ended : openIndex d name = (d', opened)) : d.Filed d' := by
  rw [openIndex] at ended
  split at ended
  · cases ended
    exact .refl
  split at ended
  · cases ended
    exact .refl
  split at ended
  · cases ended
    exact .refl
  · exact filed_openResolved grounded ended

/-- Opening an index makes no more than files. -/
theorem filed_openStorage {create : Bool} {opened : Except Error OpenIndex} (grounded : d.Grounded)
    (ended : openStorage d env dir storage create = (d', opened)) : d.Filed d' := by
  rw [openStorage] at ended
  split at ended
  · cases ended
    exact .refl
  split at ended
  · exact filed_openIndex grounded ended
  split at ended
  · cases ended
    exact .refl
  · cases ended
    exact .refl
  · exact filed_openIndex grounded ended

/-- An index cannot be opened in a storage that is not there. -/
theorem openStorage_unknown (named : env.storage = some name) (ne : name ≠ "")
    (unknown : name ≠ localStorage) (create : Bool) :
    openStorage d env dir none create = (d, .error (.unknownStorage name)) := by
  have filled : setting? (some name) = some name := by
    simp [setting?, Option.filter, ne]
  have asked : ((setting? none).or (setting? env.storage)).getD localStorage = name := by
    rw [named, filled]
    rfl
  rw [openStorage]
  simp only [asked, if_pos unknown]

end

namespace Database

variable {d d' made : Disk} {env : Environment} {dir : Path} {logged : Bool} {e : Error}

theorem filed_openLog {opened : Except DiskError LogSink} (grounded : d.Grounded)
    (ended : openLog d dir = (d', opened)) : d.Filed d' := by
  rw [openLog] at ended
  split at ended
  · cases ended
    exact .refl
  next written =>
    have filed := filed_update grounded written
    split at ended <;> (cases ended; exact filed)

theorem filed_attach {config : Config} {data : OpenIndex} {db : Except Error Database}
    (grounded : d.Grounded) (ended : attach d dir config data logged = (d', db)) : d.Filed d' := by
  rw [attach] at ended
  split at ended
  · cases ended
    exact .refl
  dsimp only at ended
  split at ended
  · cases ended
    exact .refl
  split at ended
  next opened =>
    cases ended
    exact filed_openLog grounded opened
  next opened =>
    cases ended
    exact filed_openLog grounded opened

/-! ## Creating -/

/-- The directory of a database can be made in a directory, which has none. -/
def Creatable (d : Disk) (dir : Path) : Prop :=
  d.isDir dir = .ok true ∧ containsDatabase d dir = .ok false ∧
    ∃ made, d.makeDir (dir.child databaseName) = .ok made

/-- Where no directory can be made, nothing happens. -/
theorem create_of_not_creatable (refused : ¬ Creatable d dir) (env : Environment) (logged : Bool) :
    ∃ e, create d env dir logged = (d, .error e) := by
  rw [create]
  split
  · exact ⟨_, rfl⟩
  · exact ⟨_, rfl⟩
  · exact ⟨_, rfl⟩
  · exact ⟨_, rfl⟩
  next there free =>
    split
    · exact ⟨_, rfl⟩
    · exact ⟨_, rfl⟩
    next made ready => exact absurd ⟨there, free, made, ready⟩ refused

/-- The steps of a creation once the database directory has been made. -/
def furnish (d : Disk) (env : Environment) (target : Path) (logged : Bool) :
    Disk × Except Error Database :=
  match saveConfig d target {} with
  | (d, .error e) => (d, .error e)
  | (d, .ok _) =>
    match openStorage d env target none true with
    | (d, .error e) => (d, .error e)
    | (d, .ok data) => attach d target {} data logged

theorem create_eq_furnish (there : d.isDir dir = .ok true)
    (free : containsDatabase d dir = .ok false)
    (ready : d.makeDir (dir.child databaseName) = .ok made) :
    create d env dir logged = furnish made env (dir.child databaseName) logged := by
  rw [create, there, free]
  simp only [ready]
  rfl

/-- Once the directory has been made, nothing is taken away. -/
theorem grown_furnish {target : Path} {db : Except Error Database} (grounded : d.Grounded)
    (ended : furnish d env target logged = (d', db)) : d.Grown d' := by
  rw [furnish] at ended
  split at ended
  next saved =>
    cases ended
    exact grown_saveConfig grounded saved
  next saved =>
    have first := grown_saveConfig grounded saved
    have grounded₁ := first.grounded grounded
    split at ended
    next opened =>
      cases ended
      exact first.trans (filed_openStorage grounded₁ opened).toGrown
    next opened =>
      have second := filed_openStorage grounded₁ opened
      have third := filed_attach (second.grounded grounded₁) ended
      exact first.trans (second.toGrown.trans third.toGrown)

/-- Where there is a database directory, none can be created. -/
theorem create_of_contains (there : d.isDir dir = .ok true)
    (taken : d.isDir (dir.child databaseName) = .ok true) (env : Environment) (logged : Bool) :
    create d env dir logged = (d, .error (.databaseExists dir)) := by
  have contains : containsDatabase d dir = .ok true := by
    rw [containsDatabase, taken]
    rfl
  rw [create, there, contains]

/-- An empty disk. -/
def emptyDisk : Disk := ⟨.dir [], ⟨[], 0⟩, ⟨0⟩⟩

/-- **A creation that fails** has changed nothing if the database directory could not be made. If
    it has been made, it stays, and no database can be created there any more. With a storage that
    is not there, every creation fails. -/
theorem create_failed (grounded : d.Grounded) (env : Environment) (dir : Path) (logged : Bool) :
    (¬ Creatable d dir → ∃ e, create d env dir logged = (d, .error e)) ∧
    (Creatable d dir → ∀ d' e, create d env dir logged = (d', .error e) →
      d.lstat (dir.child databaseName) = .error .notFound ∧
      d'.isDir (dir.child databaseName) = .ok true ∧
      ∀ env' logged', create d' env' dir logged' = (d', .error (.databaseExists dir))) ∧
    ∀ name, env.storage = some name → name ≠ "" → name ≠ localStorage →
      ∃ d' e, create d env dir logged = (d', .error e) := by
  refine ⟨fun refused => create_of_not_creatable refused env logged, ?_, ?_⟩
  · rintro ⟨there, free, made, ready⟩ d' e failed
    -- Wherever it failed after that, the disk has only grown since.
    rw [create_eq_furnish there free ready] at failed
    have first := grown_make grounded ready
    have grown := grown_furnish (first.grounded grounded) failed
    have taken := grown.isDir (isDir_of_makeDir grounded ready)
    have stays := (first.trans grown).isDir there
    obtain ⟨loc, n, missed, -⟩ := make_eq_ok_iff.1 ready
    have lstat : d.lstat (dir.child databaseName) = .error .notFound := by
      rw [Disk.lstat, node, missed]
    exact ⟨lstat, taken, create_of_contains stays taken⟩
  · intro name named ne unknown
    by_cases creatable : Creatable d dir
    · obtain ⟨there, free, made, ready⟩ := creatable
      rw [create_eq_furnish there free ready, furnish]
      split
      · exact ⟨_, _, rfl⟩
      · rw [openStorage_unknown named ne unknown]
        exact ⟨_, _, rfl⟩
    · obtain ⟨e, failed⟩ := create_of_not_creatable creatable env logged
      exact ⟨d, e, failed⟩

/-- A storage that is not there leaves a directory in the way. -/
theorem create_failed_unknown :
    emptyDisk.Grounded ∧ Creatable emptyDisk .here ∧
    ∃ d' e, create emptyDisk { storage := some "nope" } .here true = (d', .error e) ∧
      d'.isDir (Path.here.child databaseName) = .ok true ∧
      ∀ env logged, create d' env .here logged = (d', .error (.databaseExists .here)) := by
  have grounded : emptyDisk.Grounded := rfl
  have creatable : Creatable emptyDisk .here := by
    refine ⟨by decide +kernel, by decide +kernel, ?_⟩
    exact ⟨emptyDisk.place [databaseName] (.dir []), by decide +kernel⟩
  obtain ⟨-, stays, unknown⟩ := create_failed grounded { storage := some "nope" } .here true
  obtain ⟨d', e, failed⟩ := unknown "nope" rfl (by decide) (by decide)
  exact ⟨grounded, creatable, d', e, failed, (stays creatable d' e failed).2⟩

/-- With the cause gone, a database can be neither created nor loaded. Without the attempt that
    failed it can be created. -/
theorem create_leaves_directory :
    let failed := create emptyDisk { storage := some "nope" } .here true
    failed.2 = .error (.unknownStorage "nope") ∧
    emptyDisk.lstat (Path.here.child databaseName) = .error .notFound ∧
    failed.1.isDir (Path.here.child databaseName) = .ok true ∧
    (create failed.1 {} .here true).2 = .error (.databaseExists .here) ∧
    (load failed.1 {} (Path.here.child databaseName) none true).2 =
      .error (.dataFileNotFound ((Path.here.child databaseName).child dataName)) ∧
    (create emptyDisk {} .here true).2.isOk = true := by
  decide +kernel

end Database

end FileTags
