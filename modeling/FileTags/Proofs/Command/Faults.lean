/-
  Errors that nobody foresaw, and where they are logged.

  An error that ends a command is logged in the database that the command has opened.  Which one
  that is, is asked again when the error has come: the path that the settings name is looked up
  again, or the search is made again, and if there is no database any more, the log is the one in
  the directory of the user.

  * `Setup.Opens` says that a command has opened a database, `Setup.Undisturbed` that the database
    is still found;
  * `Setup.logFault_of_undisturbed`: an error is logged in the database then;
  * `Setup.filed_perform`: no command but a renaming makes more than files;
  * `run_fault`: where the error of a command line is logged.
-/
import FileTags.Proofs.Command.Tagging
import FileTags.Proofs.Database.Keeping

namespace FileTags

open Disk

/-! ## The database of a command -/

namespace Setup

/-- The directory of the database that the settings name, or else of the nearest one. -/
def databasePath (s : Setup) (d : Disk) : Except Error Path :=
  match s.settings.database with
  | none => findDatabase d .here
  | some p => databaseDir d p

/-- A command has opened the database in a directory: it has made it, or it has loaded it, after
    choosing its files if it works on files. -/
inductive Opens (s : Setup) (d : Disk) (dir : Path) (ready : Disk) (db : Database) :
    Command → Prop
  | made {here : Path} (path : d.absolute .here = .ok here) (inside : dir = here.child databaseName)
      (created : Database.create d s.env here true = (ready, .ok db)) : Opens s d dir ready db .init
  | loaded {command : Command} (other : command ≠ .init)
      (selected : ∀ files, command.files? = some files →
        ∃ p ps, s.selectFiles d files = .ok (p :: ps))
      (path : s.databasePath d = .ok dir)
      (opened : Database.load d s.env dir none true = (ready, .ok db)) :
      Opens s d dir ready db command

/-- The database in a directory is still found: it is where it was, and if the settings do not name
    it, at and above the current directory are the same databases as before. -/
structure Undisturbed (s : Setup) (d d' : Disk) (dir : Path) : Prop where
  stays : Stays d d' dir
  above : s.settings.database = none → SameAbove d d'

variable {s : Setup} {d d' ready : Disk} {dir p : Path} {db : Database} {command : Command}
  {e : Error}

theorem openDatabase_eq (s : Setup) (d : Disk) : s.openDatabase d =
    match s.databasePath d with
    | .error e => (d, .error e)
    | .ok dir => Database.load d s.env dir none true := by
  rw [openDatabase, databasePath]
  cases s.settings.database <;> rfl

theorem openDatabase_of_load (path : s.databasePath d = .ok dir)
    (opened : Database.load d s.env dir none true = (ready, .ok db)) :
    s.openDatabase d = (ready, .ok db) := by
  rw [openDatabase_eq, path]
  exact opened

theorem exists_opens (other : command ≠ .init)
    (selected : ∀ files, command.files? = some files →
      ∃ p ps, s.selectFiles d files = .ok (p :: ps))
    (path : s.databasePath d = .ok dir)
    (loads : (Database.load d s.env dir none true).2.isOk = true) :
    ∃ ready db, s.Opens d dir ready db command := by
  cases opened : Database.load d s.env dir none true with
  | mk ready result =>
    rw [opened] at loads
    cases result with
    | error e => cases loads
    | ok db => exact ⟨ready, db, .loaded other selected path opened⟩

/-! ## The place of the log -/

/-- The database in use is the one that has been opened. -/
theorem databaseInUse_of_undisturbed
    (outside : s.settings.database = none → setting? s.env.database = none)
    (path : s.databasePath d = .ok dir) (u : s.Undisturbed d d' dir) :
    ∃ given, s.givenDatabase d' = .ok given ∧ databaseInUse d' s.env given = .ok (some dir) := by
  rw [databasePath] at path
  rw [givenDatabase]
  cases named : s.settings.database with
  | none =>
    simp only [named] at path
    have found : findDatabase d' .here = .ok dir :=
      findDatabase_of_sameAbove (u.above named) path
    refine ⟨none, rfl, ?_⟩
    unfold databaseInUse
    simp only [outside named, found]
  | some p =>
    simp only [named] at path
    have same : databaseDir d' p = .ok dir := databaseDir_of_stays u.stays path
    refine ⟨some dir, ?_, rfl⟩
    simp only [same]
    rfl

/-- A log in a directory has a path that can be written. -/
theorem hasNull_errorLog (there : d.isDir dir = .ok true) :
    (dir.child errorLogName).hasNull = false := by
  obtain ⟨node, found, -⟩ := isDir_iff.1 there
  have clean : dir.hasNull = false := by
    rcases lookup_of_node found with ⟨loc, looked, -⟩ | ⟨w, looked, -⟩
    · exact (usable_of_lookup looked).1
    · exact (usable_of_lookup looked).1
  have name : '\x00' ∉ errorLogName.text.toList := by decide
  rw [Path.hasNull_child, clean]
  simpa using name

theorem exists_writeEntry {log : Path} (null : log.hasNull = false) (entry : String) :
    ∃ d', writeEntry d log entry = .ok d' := by
  rw [writeEntry, if_neg (by rw [null]; exact Bool.false_ne_true)]
  split
  · exact ⟨_, rfl⟩
  · exact ⟨_, rfl⟩

/-- No database is in use where the search for one is refused. -/
theorem databaseInUse_of_refused {env : Environment} {e : DiskError}
    (outside : setting? env.database = none)
    (refused : findDatabase d .here = .error (.disk e)) :
    databaseInUse d env none = .ok none := by
  unfold databaseInUse
  simp only [outside, refused]

theorem logFault_of_path {given : Option Path} {log : Path}
    (named : s.givenDatabase d = .ok given) (place : errorLogPath d s.env given = .ok log)
    (null : log.hasNull = false) (e : Error) : (s.logFault d e).2 = .ok log := by
  obtain ⟨d', written⟩ := exists_writeEntry (d := d) null
    (errorEntry s.clock.exact runContext (e.message ++ "\n"))
  rw [logFault, named]
  simp only [logError, place]
  rw [written]

/-- **An error is logged in the database**, if that is undisturbed. -/
theorem logFault_of_undisturbed
    (outside : s.settings.database = none → setting? s.env.database = none)
    (path : s.databasePath d = .ok dir) (u : s.Undisturbed d d' dir) (e : Error) :
    (s.logFault d' e).2 = .ok (dir.child errorLogName) := by
  obtain ⟨given, named, inUse⟩ := databaseInUse_of_undisturbed outside path u
  have place : errorLogPath d' s.env given = .ok (dir.child errorLogName) := by
    rw [errorLogPath, inUse]
    simp only [u.stays.isDir]
  exact logFault_of_path named place (hasNull_errorLog u.stays.isDir) e

end Setup

/-! ## What commands leave of a disk -/

/-- A task leaves the disk alone. -/
def Task.Still {α : Type} (task : Task α) : Prop := ∀ d db file, (task d db file).1 = d

theorem Tagging.still (c : Tagging) (raws : List String) : Task.Still (c.task raws) := by
  intro d db file
  induction raws generalizing db with
  | nil => cases c <;> rfl
  | cons raw raws ih =>
    rw [task_cons]
    split
    · rfl
    · exact ih _

theorem Task.still_info : Task.Still Task.info := fun _ _ _ => rfl

namespace Work

variable {α : Type} {clock : Clock} {debug : Bool} {task : Task α} {files : List Path}

theorem filed_one (still : task.Still) (w : Work α) (file : Path) :
    w.disk.Filed (w.one clock debug task file).1.disk := by
  have same := still w.disk w.db file
  rw [one]
  split
  next d result db worked =>
    rw [worked] at same
    obtain rfl : d = w.disk := same
    cases result with
    | ok a => exact Database.filed_save _ db clock.plain
    | error e => exact Database.filed_save _ db clock.plain

/-- Work that leaves the disk alone makes no more than files. -/
theorem filed_all (still : task.Still) (w : Work α) (files : List Path) :
    w.disk.Filed (w.all clock debug task files).1.disk := by
  induction files generalizing w with
  | nil => exact .refl
  | cons file files ih =>
    have first : w.disk.Filed (w.one clock debug task file).1.disk := filed_one still w file
    rw [all]
    split
    next worked =>
      rw [worked] at first
      exact first.trans (ih _)
    next worked =>
      rw [worked] at first
      split
      · exact first.trans (ih (tell _ _))
      · exact first

end Work

namespace Setup

variable {s : Setup} {d d' ready : Disk} {dir p : Path} {db : Database} {command : Command}
  {e : Error}

theorem disk_ofError (d : Disk) (notices : List Notice) (e : Error) :
    (Effect.ofError d notices e).disk = d := by
  rw [Effect.ofError]
  split <;> rfl

theorem filed_start {α : Type} (s : Setup) (ready : Disk) (db : Database) :
    ready.Filed (Work.start s.clock s.settings.debug ready db : Work α).disk :=
  Database.filed_save ready db s.clock.plain

theorem filed_onFiles {α : Type} {files : FileArguments} {ps : List Path} {task : Task α}
    {finish : Work α → Option Error → Effect} (opened : s.openDatabase d = (ready, .ok db))
    (selected : s.selectFiles d files = .ok (p :: ps)) (still : task.Still)
    (ends : ∀ w fault, (finish w fault).disk = w.disk) :
    ready.Filed (s.onFiles d files task finish).disk := by
  rw [onFiles, selected]
  simp only [opened, withDatabase]
  rw [ends]
  exact (filed_start s ready db).trans (Work.filed_all still _ _)

/-- **No command but a renaming** makes more than files, once it has loaded its database. -/
theorem filed_perform (opened : s.openDatabase d = (ready, .ok db)) (other : command ≠ .init)
    (selected : ∀ files, command.files? = some files →
      ∃ p ps, s.selectFiles d files = .ok (p :: ps))
    (keeps : ∀ template files, command ≠ .rename template files) :
    ready.Filed (command.perform s d).disk := by
  cases command with
  | init => exact absurd rfl other
  | add raws files =>
    obtain ⟨p, ps, chosen⟩ := selected files rfl
    exact filed_onFiles opened chosen (Tagging.add.still raws) fun _ _ => rfl
  | remove raws files =>
    obtain ⟨p, ps, chosen⟩ := selected files rfl
    exact filed_onFiles opened chosen (Tagging.remove.still raws) fun _ _ => rfl
  | cleanup =>
    show ready.Filed (s.cleanup d).disk
    rw [cleanup, opened]
    simp only [withDatabase]
    have begun : ready.Filed (Work.start s.clock s.settings.debug ready db : Work Unit).disk :=
      filed_start s ready db
    split
    · exact begun.trans (Database.filed_save _ _ s.clock.plain)
    · exact begun.trans (Database.filed_save _ _ s.clock.plain)
  | info files =>
    obtain ⟨p, ps, chosen⟩ := selected files rfl
    exact filed_onFiles opened chosen Task.still_info fun _ _ => rfl
  | rename template files => exact absurd rfl (keeps template files)
  | search query options =>
    show ready.Filed (s.search d query options).disk
    rw [search, opened]
    simp only [withDatabase]
    have begun : ready.Filed (Work.start s.clock s.settings.debug ready db : Work Unit).disk :=
      filed_start s ready db
    split
    · rw [disk_ofError]
      exact begun
    · exact begun

/-- A command that makes a database ends without an error once it is made. -/
theorem fault_init {here : Path} (path : d.absolute .here = .ok here)
    (created : Database.create d s.env here true = (ready, .ok db)) : (s.init d).fault = none := by
  rw [init, path]
  simp only [created, withDatabase]
  rfl

/-- **A database that has been loaded** is undisturbed, where only files have come. -/
theorem undisturbed_of_filed (sound : d.Sound) (path : s.databasePath d = .ok dir)
    (there : d.isDir dir = .ok true) (filed : d.Filed d') : s.Undisturbed d d' dir := by
  refine ⟨filed.stays there, fun unnamed => ?_⟩
  rw [databasePath, unnamed] at path
  have found : findDatabase d .here = .ok dir := path
  rw [findDatabase] at found
  split at found
  · cases found
  next resolved => exact filed.sameAbove sound resolved

end Setup

/-! ## Command lines -/

/-- A command line has ended in failure, with an error and the place of its log told last. -/
def EndsInLog (ended : Disk × Except Error Result) (e : Error) (log : Path) : Prop :=
  ∃ result, ended.2 = .ok result ∧ result.ending.status = 1 ∧
    [.failure e, .logged log] <:+ result.notices

theorem endsInLog_of_logFault {s : Setup} {effect : Effect} {e : Error} {log : Path}
    (fault : effect.fault = some e) (logged : (s.logFault effect.disk e).2 = .ok log) :
    EndsInLog (s.finish effect) e log := by
  rw [Setup.finish, fault]
  cases done : s.logFault effect.disk e with
  | mk d' answer =>
    obtain rfl : answer = .ok log := by rwa [done] at logged
    refine ⟨⟨s.settings, effect.output, effect.notices ++ [.failure e, .logged log],
      effect.renamed, .failed⟩, by simp only [done], rfl, ?_⟩
    exact List.suffix_append effect.notices _

/-- The place of the log is told once. -/
theorem EndsInLog.unique {ended : Disk × Except Error Result} {e e' : Error} {log log' : Path}
    (ends : EndsInLog ended e log) (ends' : EndsInLog ended e' log') : log = log' := by
  obtain ⟨result, same, -, before, told⟩ := ends
  obtain ⟨result', same', -, before', told'⟩ := ends'
  obtain rfl := Except.ok.inj (same.symm.trans same')
  have last : result.notices.getLast? = some (.logged log) := by simp [← told]
  have last' : result.notices.getLast? = some (.logged log') := by simp [← told']
  exact Notice.logged.inj (Option.some.inj (last.symm.trans last'))

theorem run_of_asked {env : Environment} {arguments : List String} {command : Command} (d : Disk)
    (clock : Clock) (input : String)
    (asked : (Request.ofArguments env arguments).command = .ok command) :
    run d env clock arguments input =
      (Setup.ofArguments env clock arguments input).finish
        (command.perform (Setup.ofArguments env clock arguments input) d) := by
  rw [run, Request.run, asked]
  rfl

/-- **An error that nobody foresaw** is logged in the database that the command has opened, not in
    the directory of the user, and the exit status is one, if the database is undisturbed when the
    error has come, whatever else has happened to the disk.  Only renaming can disturb it. -/
theorem run_fault {d ready : Disk} {dir : Path} {db : Database} {command : Command} {e : Error}
    (sound : d.Sound) (env : Environment) (clock : Clock) (arguments : List String)
    (input : String) (asked : (Request.ofArguments env arguments).command = .ok command)
    (opened : (Setup.ofArguments env clock arguments input).Opens d dir ready db command)
    (fault : (command.perform (Setup.ofArguments env clock arguments input) d).fault = some e) :
    let s := Setup.ofArguments env clock arguments input
    let effect := command.perform s d
    let log := dir.child errorLogName
    run d env clock arguments input = s.finish effect ∧
    (∀ d', s.Undisturbed d d' dir → EndsInLog (s.finish { effect with disk := d' }) e log) ∧
    (s.Undisturbed d effect.disk dir → EndsInLog (run d env clock arguments input) e log) ∧
    ((∀ template files, command ≠ .rename template files) →
      s.Undisturbed d effect.disk dir ∧ EndsInLog (run d env clock arguments input) e log) ∧
    command ≠ .init ∧ homeLogPath env ≠ .ok log := by
  intro s effect log
  have ran : run d env clock arguments input = s.finish effect :=
    run_of_asked d clock input asked
  cases opened with
  | made path inside created =>
    rw [show effect.fault = none from Setup.fault_init path created] at fault
    cases fault
  | loaded other selected path opened =>
    have logged : ∀ d', s.Undisturbed d d' dir →
        EndsInLog (s.finish { effect with disk := d' }) e log := by
      intro d' undisturbed
      have logged := Setup.logFault_of_undisturbed (Request.setting?_database asked) path
        undisturbed e
      exact endsInLog_of_logFault fault logged
    have here : s.Undisturbed d effect.disk dir →
        EndsInLog (run d env clock arguments input) e log := by
      intro undisturbed
      rw [ran]
      exact logged effect.disk undisturbed
    refine ⟨ran, logged, here, fun keeps => ?_, other, fun home => ?_⟩
    · have loaded := Database.filed_load sound.grounded opened
      have performed := Setup.filed_perform (Setup.openDatabase_of_load path opened) other selected
        keeps
      have undisturbed := Setup.undisturbed_of_filed sound path (Database.isDir_of_load opened)
        (loaded.trans performed)
      exact ⟨undisturbed, here undisturbed⟩
    · rw [homeLogPath] at home
      cases user : env.homePath? with
      | none =>
        rw [user] at home
        cases home
      | some path =>
        rw [user] at home
        have names : homeLogName = errorLogName := (Path.child_inj (Except.ok.inj home)).2
        revert names
        decide

/-- A file with a null character in its name, which comes from the input, ends the command.  The
    current directory has a database and is set from outside; the one above it is named. -/
theorem run_fault_nested :
    let r : Name := ⟨"r", by decide⟩
    let a : Name := ⟨"a", by decide⟩
    let database : Node := .dir [(dataName, .file ⟨0⟩ .empty 0)]
    let d : Disk := ⟨.dir [(r, .dir [(databaseName, database),
      (a, .dir [(databaseName, .dir [])])])], ⟨[r, a], 0⟩, ⟨1⟩⟩
    let env : Environment := { database := some "/r/a" }
    let arguments := ["-d", "..", "add", "-t", "x", "--stdin"]
    let s := Setup.ofArguments env ⟨"", ""⟩ arguments "f\x00"
    let effect := (Command.add ["x"] ⟨[], {}, true⟩).perform s d
    let dir : Path := .ofString "../.sea-serpent"
    d.Sound ∧ effect.fault = some .nullInPath ∧ s.Undisturbed d effect.disk dir ∧
      EndsInLog (run d env ⟨"", ""⟩ arguments "f\x00") .nullInPath
        (.ofString "../.sea-serpent/errors.log") := by
  intro r a database d env arguments s effect dir
  have sound : d.Sound := ⟨rfl, rfl⟩
  have asked : (Request.ofArguments env arguments).command =
      .ok (.add ["x"] ⟨[], {}, true⟩) := by decide +kernel
  have path : s.databasePath d = .ok dir := by decide +kernel
  have fault : effect.fault = some .nullInPath := by decide +kernel
  obtain ⟨ready, db, opens⟩ : ∃ ready db, s.Opens d dir ready db (.add ["x"] ⟨[], {}, true⟩) := by
    refine Setup.exists_opens nofun (fun files works => ?_) path (by decide +kernel)
    cases works
    exact ⟨.ofString "f\x00", [], by decide +kernel⟩
  obtain ⟨-, -, -, kept, -⟩ := run_fault sound env ⟨"", ""⟩ arguments "f\x00" asked opens fault
  obtain ⟨undisturbed, ends⟩ := kept nofun
  exact ⟨sound, fault, undisturbed, ends⟩

/-! ## Databases that are not found again -/

namespace Renaming

/-- The index of a directory with a letter's number, and of a file `f` with a number beyond the code
    points. -/
def lostIndex (directory : String) : Index :=
  (Index.empty.add (.ofString directory) (.pair "n" "65")).add (.ofString "f") (.pair "n" "1114112")

/-- A database directory with that index, the file, and other entries. -/
def lostTop (directory : String) (entries : List (Name × Node)) : Node :=
  .dir ((databaseName, .dir [(dataName, .file ⟨0⟩ (.index newestLayout (lostIndex directory)) 0),
    (logName, .file ⟨1⟩ .empty 0)]) :: (⟨"f", by decide⟩, .file ⟨2⟩ .empty 0) :: entries)

/-- What comes from outside: the directory of the user. -/
def lostEnvironment : Environment := { home := some "/h" }

/-- Renames a directory and a file to the characters with their numbers. -/
def lostCommand (template directory file : String) : Command :=
  .rename template ⟨[.ofString directory, .ofString file], {}, false⟩

/-- The error that comes of the file. -/
def lostError : Error := .template (.overflow .codePoint)

/-- What the command works with. -/
def lostSetup (arguments : List String) : Setup :=
  Setup.ofArguments lostEnvironment ⟨"", ""⟩ arguments ""

/-- What the command brings about. -/
def lostEffect (d : Disk) (arguments : List String) (command : Command) : Effect :=
  command.perform (lostSetup arguments) d

/-- A database is open when an error comes, its directory has all the entries that it had, and at
    and above the current directory are the same databases.  Yet the error is logged in the
    directory of the user. -/
structure Lost (d : Disk) (arguments : List String) (command : Command) (dir : Path) : Prop where
  sound : d.Sound
  asked : (Request.ofArguments lostEnvironment arguments).command = .ok command
  opened : ∃ ready db, (lostSetup arguments).Opens d dir ready db command
  fault : (lostEffect d arguments command).fault = some lostError
  there : d.lookup true dir = .ok (.found [databaseName])
  kept : ((lostEffect d arguments command).disk.top.at? [databaseName]).map Node.shape =
    (d.top.at? [databaseName]).map Node.shape
  above : ∃ p p', d.resolve .here = .ok p ∧
    (lostEffect d arguments command).disk.resolve .here = .ok p' ∧
    databasesAbove (lostEffect d arguments command).disk p' = databasesAbove d p
  ends : EndsInLog (run d lostEnvironment ⟨"", ""⟩ arguments "") lostError
    (.ofString "/h/.sea-serpent-errors.log")

theorem opens_of_names {d : Disk} {arguments : List String} {template directory file : String}
    {dir : Path}
    (selected : (lostSetup arguments).selectFiles d
      ⟨[.ofString directory, .ofString file], {}, false⟩ =
        .ok [.ofString directory, .ofString file])
    (path : (lostSetup arguments).databasePath d = .ok dir)
    (loads : (Database.load d lostEnvironment dir none true).2.isOk = true) :
    ∃ ready db, (lostSetup arguments).Opens d dir ready db
      (lostCommand template directory file) := by
  refine Setup.exists_opens nofun (fun files works => ?_) path loads
  cases works
  exact ⟨.ofString directory, [.ofString file], selected⟩

theorem ends_of_logFault {d : Disk} {arguments : List String} {command : Command} {log : Path}
    (asked : (Request.ofArguments lostEnvironment arguments).command = .ok command)
    (fault : (lostEffect d arguments command).fault = some lostError)
    (logged : ((lostSetup arguments).logFault (lostEffect d arguments command).disk lostError).2 =
      .ok log) :
    EndsInLog (run d lostEnvironment ⟨"", ""⟩ arguments "") lostError log := by
  rw [run_of_asked d ⟨"", ""⟩ "" asked]
  exact endsInLog_of_logFault fault logged

/-! ### The path of the database leads nowhere -/

/-- A database, a directory and a file in the current directory. -/
def throughDisk : Disk := ⟨lostTop "sub" [(⟨"sub", by decide⟩, .dir [])], ⟨[], 0⟩, ⟨3⟩⟩

/-- The database is named by a path through the directory that is renamed. -/
def throughArguments : List String :=
  ["-d", "sub/..", "rename", "--template", "{n:c}", "sub", "f"]

def throughCommand : Command := lostCommand "{n:c}" "sub" "f"

theorem lost_through :
    Lost throughDisk throughArguments throughCommand (.ofString "sub/../.sea-serpent") where
  sound := ⟨rfl, rfl⟩
  asked := by decide +kernel
  opened := opens_of_names (by decide +kernel) (by decide +kernel) (by decide +kernel)
  fault := by decide +kernel
  there := by decide +kernel
  kept := by decide +kernel
  above := by
    refine ⟨.root, .root, by decide +kernel, by decide +kernel, ?_⟩
    rw [databasesAbove_root (by decide +kernel), databasesAbove_root (by decide +kernel)]
  ends := by
    have asked : (Request.ofArguments lostEnvironment throughArguments).command =
        .ok throughCommand := by decide +kernel
    exact ends_of_logFault asked (by decide +kernel) (by decide +kernel)

/-! ### The search is refused -/

/-- A directory in which the name of a database is that of a link to a name that is too long. -/
def closedName : Name := ⟨"s", by decide⟩

/-- A database, a current directory with nothing in it, and the directory with the link. -/
def belowDisk : Disk :=
  ⟨lostTop "w" [(⟨"w", by decide⟩, .dir []),
    (closedName, .dir [(databaseName, .link (String.ofList (List.replicate 300 'n')))])],
    ⟨[⟨"w", by decide⟩], 0⟩, ⟨3⟩⟩

/-- The current directory is renamed into the directory with the link. -/
def belowArguments : List String := ["rename", "--template", "s/{n:c}", "/w", "/f"]

def belowCommand : Command := lostCommand "s/{n:c}" "/w" "/f"

/-- The disk after that. -/
def belowAfter : Disk := (lostEffect belowDisk belowArguments belowCommand).disk

/-- The current directory after that. -/
def belowHere : Path := (Path.root.child closedName).child ⟨"A", by decide⟩

theorem resolve_belowAfter : belowAfter.resolve .here = .ok belowHere := by decide +kernel

theorem untold_belowAfter : Untold belowAfter (Path.root.child closedName) := by
  obtain ⟨long, text, above, ne⟩ := exists_long_name
  have dir : belowAfter.top.face? [closedName] = some .dir := by decide +kernel
  have leads : belowAfter.Leads (Path.root.child closedName) [closedName] :=
    .down (.root (face_of_face? dir (List.cons_ne_nil closedName []))) (by decide) dir nofun
  have fits : ((Path.root.child closedName).child databaseName).Fits :=
    ⟨by decide, by decide +kernel, by decide⟩
  have there : belowAfter.top.face? [closedName, databaseName] = some (.link long.text) := by
    rw [text]
    decide +kernel
  exact leads.stat_long_link (by decide) dir fits there ne above

theorem databasesAbove_belowAfter : databasesAbove belowAfter belowHere = {.root} := by
  rw [belowHere, databasesAbove_child (by decide +kernel),
    databasesAbove_child fun has => has.told untold_belowAfter,
    databasesAbove_root (by decide +kernel)]

theorem findDatabase_belowAfter :
    findDatabase belowAfter .here = .error (.disk .nameTooLong) := by
  have above : (Path.root.child closedName).Covers belowHere := Path.covers_child _ _
  have top : Path.root ∈ databasesAbove belowAfter belowHere := by
    rw [databasesAbove_belowAfter]
    exact rfl
  have nearest : Nearest belowAfter belowHere .root := by
    refine ⟨top.1, top.2, fun b _ below ne there => ne ?_⟩
    have among : b ∈ databasesAbove belowAfter belowHere := ⟨below, there⟩
    rwa [databasesAbove_belowAfter] at among
  exact (findDatabase_of_nearest resolve_belowAfter nearest).2 fun told =>
    told _ (Path.covers_child .root closedName) above untold_belowAfter

theorem errorLogPath_belowAfter : errorLogPath belowAfter lostEnvironment none =
    .ok (.ofString "/h/.sea-serpent-errors.log") := by
  have home : homeLogPath lostEnvironment = .ok (.ofString "/h/.sea-serpent-errors.log") := by
    decide +kernel
  rw [errorLogPath, Setup.databaseInUse_of_refused rfl findDatabase_belowAfter]
  exact home

theorem lost_below :
    Lost belowDisk belowArguments belowCommand (.ofString "/.sea-serpent") where
  sound := ⟨rfl, rfl⟩
  asked := by decide +kernel
  opened := opens_of_names (by decide +kernel) (by decide +kernel) (by decide +kernel)
  fault := by decide +kernel
  there := by decide +kernel
  kept := by decide +kernel
  above := by
    refine ⟨.ofString "/w", belowHere, by decide +kernel, resolve_belowAfter, ?_⟩
    have here : Path.ofString "/w" = Path.root.child ⟨"w", by decide⟩ := by decide +kernel
    rw [show databasesAbove (lostEffect belowDisk belowArguments belowCommand).disk belowHere = _
      from databasesAbove_belowAfter, here, databasesAbove_child (by decide +kernel),
      databasesAbove_root (by decide +kernel)]
  ends := by
    have named : (lostSetup belowArguments).givenDatabase belowAfter = .ok none := rfl
    exact ends_of_logFault (by decide +kernel) (by decide +kernel)
      (Setup.logFault_of_path named errorLogPath_belowAfter (by decide +kernel) lostError)

end Renaming

open Renaming in
/-- **A database in use is not found again** if the path that names it leads nowhere any more, nor
    if a search for it is refused on a way that it did not go before. -/
theorem run_fault_elsewhere :
    (Lost throughDisk throughArguments throughCommand (.ofString "sub/../.sea-serpent") ∧
      ¬ EndsInLog (run throughDisk lostEnvironment ⟨"", ""⟩ throughArguments "") lostError
        (.ofString "sub/../.sea-serpent/errors.log")) ∧
    Lost belowDisk belowArguments belowCommand (.ofString "/.sea-serpent") ∧
      ¬ EndsInLog (run belowDisk lostEnvironment ⟨"", ""⟩ belowArguments "") lostError
        (.ofString "/.sea-serpent/errors.log") := by
  refine ⟨⟨lost_through, fun ends => ?_⟩, lost_below, fun ends => ?_⟩
  · have same := ends.unique lost_through.ends
    revert same
    decide +kernel
  · have same := ends.unique lost_below.ends
    revert same
    decide +kernel

end FileTags
