/-
  What a database that has just been made holds.

  The directory of a new database is empty at first.  The default configuration is saved in it, and
  an index without files is opened in it, by the resolved path of its file.  All of that is found
  again by the path with which the database was made.

  * `saveConfig_vacant`, `openStorage_vacant`: what saving a configuration and opening an index do
    in a directory that has neither;
  * `Founded` says what such a directory holds, and `Founded.keep` that it does so as long as no
    file is changed;
  * `founded_of_furnish`, `founded_of_create`: a directory has been founded when a database has been
    created;
  * `load_founded`: a database that is loaded from it has no files and the default configuration.
-/
import FileTags.Proofs.Database.Opening
import FileTags.Proofs.Disk.Entries
import FileTags.Proofs.Disk.Heading

namespace FileTags

open Node Disk

namespace Disk

variable {d d' : Disk} {p dir : Path} {loc l : Location} {n m : Name} {follow : Bool} {spot : Spot}
  {f : Face} {node : Node} {inode : Inode}

/-! ## Directories that have been made -/

/-- What is found stays where it is on a disk that grows. -/
theorem Grown.found (grown : d.Grown d') (found : d.lookup follow p = .ok (.found loc))
    (there : d.top.face? loc = some f) : d'.lookup follow p = .ok (.found loc) := by
  obtain ⟨node, at_, -⟩ := Option.map_eq_some_iff.1 there
  have looked : d.node follow p = .ok node := by
    rw [Disk.node, found]
    simp only [at_]
  exact (lookup_within grown.within (start_congr grown.current) looked).trans found

theorem stat_of_found (found : d.lookup true p = .ok (.found loc))
    (at_ : d.top.at? loc = some node) : d.stat p = .ok node := by
  rw [stat, Disk.node, found]
  simp only [at_]

/-- A path that is accepted leads to a node, or to nothing. -/
theorem lstat_of_lookup (looked : d.lookup follow p = .ok spot) :
    d.lstat p = .error .notFound ∨ ∃ node, d.lstat p = .ok node := by
  have spots : ∃ spot, d.lookup false p = .ok spot := by
    rcases lookup_follow d p with same | ⟨l, found⟩
    · cases follow with
      | false => exact ⟨spot, looked⟩
      | true => exact ⟨spot, same.trans looked⟩
    · exact ⟨_, found⟩
  obtain ⟨spot, looked⟩ := spots
  rw [lstat, Disk.node, looked]
  cases spot with
  | absent dir n => exact .inl rfl
  | removed w => exact .inr ⟨_, rfl⟩
  | found l =>
    dsimp only
    cases d.top.at? l with
    | none => exact .inl rfl
    | some node => exact .inr ⟨node, rfl⟩

/-- A removed directory has no entries. -/
theorem climb_removed {k j : Nat} {steps rest : List Step}
    (climbed : climb k steps = .ok (j + 1, rest)) :
    ∃ e, climb k (steps ++ [.down n]) = .error e := by
  induction steps generalizing k with
  | nil =>
    cases k with
    | zero =>
      rw [climb] at climbed
      cases climbed
    | succ k => exact ⟨_, rfl⟩
  | cons step steps ih =>
    cases k with
    | zero =>
      rw [climb] at climbed
      cases climbed
    | succ k =>
      cases step with
      | self => exact ih climbed
      | up => exact ih climbed
      | down m => cases climbed

/-- An entry can be missed only in a directory that is there. -/
theorem found_of_absent_child (isDir : d.isDir p = .ok true) (ne : n ≠ Name.up)
    (missed : d.lookup follow (p.child n) = .ok (.absent l m)) :
    ∃ loc, d.lookup true p = .ok (.found loc) ∧ d.top.face? loc = some .dir := by
  obtain ⟨node, found, face⟩ := isDir_iff.1 isDir
  rcases lookup_of_node found with ⟨loc, found, at_⟩ | ⟨w, removed, -⟩
  · exact ⟨loc, found, face ▸ face?_of_at? at_⟩
  · obtain ⟨steps, climbed, -⟩ := travel_of_absent_lookup missed
    rw [start_child, Path.steps_child ne] at climbed
    obtain ⟨-, -, ⟨rest, -, walked⟩ | ⟨k, rest, ended, -⟩⟩ := lookup_cases removed
    · exact absurd walked travel_ne_removed
    · obtain ⟨e, failed⟩ := climb_removed (n := n) ended
      rw [failed] at climbed
      cases climbed

/-- **A directory that is made** is empty, and is found where it was missed. -/
theorem found_of_makeDir (sound : d.Sound) (isDir : d.isDir p = .ok true) (ne : n ≠ Name.up)
    (made : d.makeDir (p.child n) = .ok d') :
    ∃ loc, d.lookup true p = .ok (.found loc) ∧ d.top.face? loc = some .dir ∧
      d'.lookup true (p.child n) = .ok (.found (loc ++ [n])) ∧
      d'.top.at? (loc ++ [n]) = some (.dir []) := by
  obtain ⟨l, m, missed, rfl⟩ := make_eq_ok_iff.1 made
  obtain ⟨loc, found, there⟩ := found_of_absent_child isDir ne missed
  obtain ⟨rfl, rfl⟩ := eq_of_absent_child found there ne missed
  have at_ : (d.place (l ++ [m]) (.dir [])).top.at? (l ++ [m]) = some (.dir []) := at?_put there
  have missed := lookup_true_of_absent missed
  have grown : d.Grown (d.place (l ++ [m]) (.dir [])) := grown_put sound.grounded missed rfl rfl
  exact ⟨l, found, there, lookup_come grown (face?_of_at? at_) Face.dir_ne_link missed, at_⟩

/-! ## Files that have been made -/

section
variable (content : Content) (mode : Nat)

theorem Sound.placeFile (sound : d.Sound) (missed : d.lookup follow p = .ok (.absent loc n)) :
    (d.placeFile (loc ++ [n]) content mode).Sound := by
  have proper : (Node.file d.nextInode content mode).isProper = true := rfl
  exact sound.place missed proper rfl rfl

theorem at?_placeFile (there : d.top.face? loc = some .dir) :
    (d.placeFile (loc ++ [n]) content mode).top.at? (loc ++ [n]) =
      some (.file d.nextInode content mode) := at?_put there

end

end Disk

/-! ## What is put in a new directory -/

section
variable {d d' : Disk} {env : Environment} {dir file : Path} {loc : Location} {c : Config}
  {data : OpenIndex}

theorem face?_entry_of_empty {top : Node} (at_ : top.at? loc = some (.dir [])) (n : Name) :
    top.face? (loc ++ [n]) = none := by
  rw [face?, at?_concat, at_]
  rfl

/-- **Saving a configuration** in a directory that has none makes its file. -/
theorem saveConfig_vacant (found : d.lookup true dir = .ok (.found loc))
    (there : d.top.face? loc = some .dir) (vacant : d.top.face? (loc ++ [configName]) = none)
    (saved : saveConfig d dir c = (d', .ok file)) :
    d.lookup true (dir.child configName) = .ok (.absent loc configName) ∧
      d' = d.placeFile (loc ++ [configName]) (.ofString c.render) publicMode := by
  have isDir : d.isDir dir = .ok true := by
    obtain ⟨node, at_, face⟩ := Option.map_eq_some_iff.1 there
    exact isDir_iff.2 ⟨node, stat_of_found found at_, face⟩
  obtain ⟨rfl, made, ready, written⟩ := saveConfig_eq_ok saved
  rw [makeDirs_of_isDir isDir] at ready
  cases ready
  have missed : ∀ spot, d.lookup true (dir.child configName) = .ok spot →
      spot = .absent loc configName :=
    fun spot looked => lookup_vacant found there (by decide) vacant looked
  rcases update_cases written with
    ⟨l, n, absent, rfl⟩ | ⟨l, inode, content, mode, looked, -, -⟩ | ⟨lost, -⟩
  · cases missed _ absent
    exact ⟨absent, rfl⟩
  · cases missed _ looked
  · rcases lookup_of_node lost with ⟨l, looked, -⟩ | ⟨w, removed, -⟩
    · cases missed _ looked
    · cases missed _ removed

/-- **Opening an index** in a directory that has none makes its file, at its resolved path. -/
theorem openStorage_vacant (sound : d.Sound) (found : d.lookup true dir = .ok (.found loc))
    (there : d.top.face? loc = some .dir) (vacant : d.top.face? (loc ++ [dataName]) = none)
    (opened : openStorage d env dir none true = (d', .ok data)) :
    ∃ r, d.Traced dir r loc ∧ d.lookup false (r.child dataName) = .ok (.absent loc dataName) ∧
      (Path.ofLocation (loc ++ [dataName])).Fits ∧
      (Path.ofLocation (loc ++ [dataName])).toString.utf8ByteSize ≤ dataPathLimit ∧
      d.lookup true (.ofLocation (loc ++ [dataName])) = .ok (.absent loc dataName) ∧
      ∃ file : DataFile, file.inode = d.nextInode ∧
        (d', data) = OpenIndex.inFile (d.placeFile (loc ++ [dataName]) .empty publicMode) file
          .empty := by
  have ne : dataName ≠ Name.up := by decide
  have plain : ∀ target, d.top.face? (loc ++ [dataName]) ≠ some (.link target) := by
    rw [vacant]
    nofun
  rw [openStorage] at opened
  split at opened
  · cases opened
  rw [if_pos rfl, openIndex, if_neg (dataFile_named dir), Path.ofString_toString] at opened
  split at opened
  · cases opened
  split at opened
  · cases opened
  next resolved settled =>
  obtain ⟨r, traced, rfl, missed⟩ :=
    traced_of_resolvePast sound found there ne plain (fun e => of_decide_eq_true) settled
  rw [vacant] at missed
  rw [openResolved] at opened
  split at opened
  · cases opened
  next short =>
  -- The path of the file is one of names alone, so that its directory misses it as well.
  have leads : d.Leads (.ofLocation loc) loc := traced.heads.leads sound.top
  have absent : ∀ spot, d.lookup true (.ofLocation (loc ++ [dataName])) = .ok spot →
      (Path.ofLocation (loc ++ [dataName])).Fits ∧
        d.lookup true (.ofLocation (loc ++ [dataName])) = .ok (.absent loc dataName) := by
    intro spot looked
    have fits := leads.fits_child ne (lstat_of_lookup (p := (Path.ofLocation loc).child dataName)
      looked)
    have looked := leads.lookup_child ne there fits
    rw [vacant] at looked
    exact ⟨fits, lookup_true_of_absent looked⟩
  split at opened
  next l n looked =>
    obtain ⟨fits, missed'⟩ := absent _ looked
    cases looked.symm.trans missed'
    refine ⟨r, traced, missed, fits, Nat.le_of_not_lt short, missed', ?_⟩
    cases opened
    exact ⟨_, rfl, rfl⟩
  next l looked =>
    cases looked.symm.trans (absent _ looked).2
  next => cases opened

end

/-! ## What a new directory holds -/

/-- The storage that is asked for is the local one. -/
def Environment.IsLocal (env : Environment) (storage : Option String) : Prop :=
  ((setting? storage).or (setting? env.storage)).getD localStorage = localStorage

instance (env : Environment) (storage : Option String) : Decidable (env.IsLocal storage) :=
  inferInstanceAs (Decidable (_ = _))

/-- A directory at a location holds the default configuration and an index without files; it is
    found and resolved there by a path, which becomes `r` before it is seen from the top. -/
structure Founded (d : Disk) (dir r : Path) (loc : Location) : Prop where
  found : d.lookup true dir = .ok (.found loc)
  there : d.top.face? loc = some .dir
  traced : d.Traced dir r loc
  config : d.lookup true (dir.child configName) = .ok (.found (loc ++ [configName]))
  configFile : ∃ inode mode, d.top.at? (loc ++ [configName]) =
    some (.file inode (.ofString ({} : Config).render) mode)
  data : d.lookup false (r.child dataName) = .ok (.found (loc ++ [dataName]))
  dataFile : ∃ inode mode, d.top.at? (loc ++ [dataName]) =
    some (.file inode (.index newestLayout .empty) mode)
  fits : (Path.ofLocation (loc ++ [dataName])).Fits
  short : (Path.ofLocation (loc ++ [dataName])).toString.utf8ByteSize ≤ dataPathLimit

namespace Founded

variable {d d' : Disk} {env : Environment} {dir r : Path} {loc : Location} {storage : Option String}
  {logged : Bool}

/-- A directory stays as it has been founded on a disk that grows while its files are kept. -/
theorem keep (founded : Founded d dir r loc) (proper : d.top.isProper = true) (grown : d.Grown d')
    (kept : ∀ n inode content mode, d.top.at? (loc ++ [n]) = some (.file inode content mode) →
      d'.top.at? (loc ++ [n]) = some (.file inode content mode)) : Founded d' dir r loc := by
  obtain ⟨inode, mode, config⟩ := founded.configFile
  obtain ⟨inode', mode', data⟩ := founded.dataFile
  exact ⟨grown.found founded.found founded.there, grown.within _ _ founded.there,
    founded.traced.grown proper grown, grown.found founded.config (face?_of_at? config),
    ⟨inode, mode, kept _ _ _ _ config⟩, grown.found founded.data (face?_of_at? data),
    ⟨inode', mode', kept _ _ _ _ data⟩, founded.fits, founded.short⟩

theorem isDir (founded : Founded d dir r loc) : d.isDir dir = .ok true := by
  obtain ⟨node, at_, face⟩ := Option.map_eq_some_iff.1 founded.there
  exact isDir_iff.2 ⟨node, stat_of_found founded.found at_, face⟩

/-- The path of its location leads to it by names alone, within the limits. -/
theorem leads (founded : Founded d dir r loc) (top : d.top.face = .dir) :
    d.Leads (.ofLocation loc) loc ∧ (Path.ofLocation loc).Fits :=
  ⟨founded.traced.heads.leads top, Path.Fits.parent founded.fits⟩

theorem loadConfig (founded : Founded d dir r loc) : loadConfig d dir = .ok {} := by
  obtain ⟨inode, mode, config⟩ := founded.configFile
  have writable : ({} : Config).Writable := by
    intro n version
    cases version
    exact Config.hasNumeral_of_int64 (by decide) (by decide)
  have supported : ∀ n, ({} : Config).version = .number n → n ≤ Version.newest := by
    intro n version
    cases version
    exact le_refl _
  rw [loadConfig_of_stat (stat_of_found founded.config config),
    Config.ofContent_render _ writable List.nodup_nil, Config.ofTable_document supported]
  rfl

/-- The index without files is opened. -/
theorem openStorage (founded : Founded d dir r loc) (sound : d.Sound)
    (isLocal : env.IsLocal storage) :
    ∃ file, openStorage d env dir storage false =
      ((OpenIndex.inFile d file .empty).1, .ok (OpenIndex.inFile d file .empty).2) := by
  obtain ⟨inode, mode, data⟩ := founded.dataFile
  have face := face?_of_at? data
  have looked : d.lookup true (dir.child dataName) = .ok (.found (loc ++ [dataName])) :=
    lookup_sibling founded.found founded.there founded.config (by decide) (by decide) (by decide)
      (by decide) face Face.leaf_ne_link
  have isFile : d.isFile (dir.child dataName) = .ok true := by
    rw [Disk.isFile, leadsTo, stat_of_found looked data]
    rfl
  have null : (dir.child dataName).hasNull = false := (usable_of_lookup looked).1
  have resolved : d.resolveMissing (dir.child dataName) = .ok (.ofLocation (loc ++ [dataName])) :=
    (founded.traced.child (by decide) founded.data face Face.leaf_ne_link).resolvePast
  have leads : d.Leads (.ofLocation (loc ++ [dataName])) (loc ++ [dataName]) :=
    .down (founded.leads sound.top).1 (by decide) face Face.leaf_ne_link
  let file : DataFile := ⟨(dir.child dataName).toString, .ofLocation (loc ++ [dataName]), inode⟩
  have opened : openResolved d (dir.child dataName).toString (.ofLocation (loc ++ [dataName])) =
      ((OpenIndex.inFile d file .empty).1, .ok (OpenIndex.inFile d file .empty).2) := by
    rw [openResolved, if_neg (Nat.not_lt.2 founded.short), leads.lookup founded.fits]
    simp only [data, indexOf, Int.lt_irrefl, if_false]
    rfl
  refine ⟨file, ?_⟩
  have name : ((setting? storage).or (setting? env.storage)).getD localStorage = localStorage :=
    isLocal
  rw [FileTags.openStorage]
  simp only [name, ne_eq, not_true_eq_false, if_false, Bool.false_eq_true, isFile]
  rw [openIndex, if_neg (dataFile_named dir), Path.ofString_toString, null,
    if_neg Bool.false_ne_true, resolved]
  exact opened

end Founded

/-! ## Creating and loading -/

namespace Database

variable {d d' d'' : Disk} {env : Environment} {dir r : Path} {loc : Location}
  {storage : Option String} {logged : Bool} {db : Database} {config : Config} {data : OpenIndex}
  {path : Path}

theorem exists_attach (resolved : d.resolve dir = .ok path) (config : Config) (data : OpenIndex)
    (logged : Bool) : ∃ d' db, attach d dir config data logged = (d', .ok db) ∧
      db.path = path ∧ db.config = config ∧ db.index = data.index := by
  rw [attach, resolved]
  dsimp only
  split
  · exact ⟨_, _, rfl, rfl, rfl, rfl⟩
  split
  · exact ⟨_, _, rfl, rfl, rfl, rfl⟩
  · exact ⟨_, _, rfl, rfl, rfl, rfl⟩

theorem sound_openLog {log : Except DiskError LogSink} (sound : d.Sound)
    (opened : openLog d dir = (d', log)) : d'.Sound := by
  rw [openLog] at opened
  split at opened
  · cases opened
    exact sound
  next added =>
    have kept := sound.update added
    split at opened <;> (cases opened; exact kept)

theorem sound_attach {opened : Except Error Database} (sound : d.Sound)
    (ended : attach d dir config data logged = (d', opened)) : d'.Sound := by
  rw [attach] at ended
  split at ended
  · cases ended
    exact sound
  dsimp only at ended
  split at ended
  · cases ended
    exact sound
  split at ended
  next log =>
    cases ended
    exact sound_openLog sound log
  next log =>
    cases ended
    exact sound_openLog sound log

/-- **A database that is loaded** from a directory that has been founded has no files and the
    default configuration. -/
theorem load_founded (founded : Founded d dir r loc) (sound : d.Sound)
    (isLocal : env.IsLocal storage) (logged : Bool) :
    ∃ d' db, load d env dir storage logged = (d', .ok db) ∧
      db.path = .ofLocation loc ∧ db.config = {} ∧ db.index = .empty := by
  obtain ⟨file, opened⟩ := founded.openStorage sound isLocal
  have resolved : (OpenIndex.inFile d file .empty).1.resolve dir = .ok (.ofLocation loc) :=
    (founded.traced.grown sound.proper (filed_alter file.inode _).toGrown).resolve
      (sound.alter file.inode _).top
  rw [load, founded.isDir]
  dsimp only
  rw [read, founded.loadConfig]
  dsimp only
  rw [opened]
  exact exists_attach resolved {} _ logged

/-- A directory with the default configuration has been founded when its index has been opened. -/
theorem founded_of_openStorage {inode : Inode} {mode : Nat} (sound : d.Sound)
    (found : d.lookup true dir = .ok (.found loc)) (there : d.top.face? loc = some .dir)
    (vacant : d.top.face? (loc ++ [dataName]) = none)
    (looked : d.lookup true (dir.child configName) = .ok (.found (loc ++ [configName])))
    (config : d.top.at? (loc ++ [configName]) =
      some (.file inode (.ofString ({} : Config).render) mode)) (other : inode ≠ d.nextInode)
    (opened : openStorage d env dir none true = (d', .ok data)) :
    ∃ r, Founded d' dir r loc ∧ d'.Sound ∧ d.Grown d' ∧ data.index = .empty := by
  obtain ⟨r, traced, missed, fits, short, missed', file, new, same⟩ :=
    openStorage_vacant sound found there vacant opened
  obtain ⟨rfl, rfl⟩ := Prod.mk.inj same
  have placed := sound.placeFile .empty publicMode missed'
  have first := filed_placeFile .empty publicMode sound.grounded missed'
  have grown : d.Grown (OpenIndex.inFile (d.placeFile (loc ++ [dataName]) .empty publicMode)
      file .empty).1 := (first.trans (filed_alter file.inode _)).toGrown
  have data : (OpenIndex.inFile (d.placeFile (loc ++ [dataName]) .empty publicMode)
      file .empty).1.top.at? (loc ++ [dataName]) =
        some (.file d.nextInode (.index newestLayout .empty) publicMode) := by
    refine (at?_alter _ _ _ _).trans ?_
    rw [at?_placeFile .empty publicMode there, Option.map_some, Node.alter, if_pos new.symm]
  have configAt : (d.placeFile (loc ++ [dataName]) .empty publicMode).top.at?
      (loc ++ [configName]) = some (.file inode (.ofString ({} : Config).render) mode) :=
    leaf_place_vacant config rfl vacant
  have kept : (OpenIndex.inFile (d.placeFile (loc ++ [dataName]) .empty publicMode)
      file .empty).1.top.at? (loc ++ [configName]) =
        some (.file inode (.ofString ({} : Config).render) mode) := by
    refine (at?_alter _ _ _ _).trans ?_
    rw [configAt, Option.map_some, Node.alter, if_neg fun same => other (same.trans new)]
  refine ⟨r, ⟨grown.found found there, grown.within _ _ there, traced.grown sound.proper grown,
    grown.found looked (face?_of_at? config), ⟨_, _, kept⟩,
    lookup_come grown (face?_of_at? data) Face.leaf_ne_link missed, ⟨_, _, data⟩, fits, short⟩,
    placed.alter _ _, grown, rfl⟩

/-- **An empty directory that is furnished** has been founded then. -/
theorem founded_of_furnish (sound : d.Sound) (found : d.lookup true dir = .ok (.found loc))
    (at_ : d.top.at? loc = some (.dir [])) (furnished : furnish d env dir logged = (d', .ok db)) :
    ∃ r, Founded d' dir r loc ∧ d'.Sound ∧ d.Grown d' ∧ db.path = .ofLocation loc ∧
      db.config = {} ∧ db.index = .empty := by
  have there := face?_of_at? at_
  have vacant := face?_entry_of_empty at_
  rw [furnish] at furnished
  split at furnished
  · cases furnished
  next saved =>
  -- The configuration is saved in the empty directory.
  obtain ⟨missed, rfl⟩ := saveConfig_vacant found there (vacant _) saved
  have sound₁ := sound.placeFile (.ofString ({} : Config).render) publicMode missed
  have grown₁ :=
    (filed_placeFile (.ofString ({} : Config).render) publicMode sound.grounded missed).toGrown
  have config := at?_placeFile (n := configName) (.ofString ({} : Config).render) publicMode there
  have vacant₁ : (d.placeFile (loc ++ [configName]) (.ofString ({} : Config).render)
      publicMode).top.face? (loc ++ [dataName]) = none := by
    refine (face?_put at_).trans ?_
    rw [if_neg, vacant]
    rw [List.prefix_append_right_inj]
    decide
  split at furnished
  · cases furnished
  next opened =>
  -- Then the index is opened beside it.
  obtain ⟨r, founded₂, sound₂, grown₂, index⟩ := founded_of_openStorage sound₁
    (grown₁.found found there) (grown₁.within _ _ there) vacant₁
    (lookup_come grown₁ (face?_of_at? config) Face.leaf_ne_link missed) config
    (fun same => absurd (congrArg Inode.number same) (Nat.ne_of_lt (Nat.lt_succ_self _))) opened
  obtain ⟨resolved, config, same, -⟩ := attach_eq_ok furnished
  have path := Except.ok.inj (resolved.symm.trans (founded₂.traced.resolve sound₂.top))
  -- Opening the log changes no file.
  have grown₃ := (filed_attach sound₂.grounded furnished).toGrown
  have founded := founded₂.keep sound₂.proper grown₃ fun n inode content mode there =>
    at?_attach sound₂.grounded there furnished
  exact ⟨r, founded, sound_attach sound₂ furnished, grown₁.trans (grown₂.trans grown₃), path,
    config, same.trans index⟩

/-- **When a database has been created**, its directory has been founded in a directory that was
    there, and the path of that directory is resolved. -/
theorem founded_of_create (sound : d.Sound) (created : create d env dir logged = (d', .ok db)) :
    ∃ home r, Founded d' (dir.child databaseName) r (home ++ [databaseName]) ∧ d'.Sound ∧
      d'.isDir dir = .ok true ∧ d'.resolve dir = .ok (.ofLocation home) ∧
      db.path = .ofLocation (home ++ [databaseName]) ∧ db.config = {} ∧ db.index = .empty := by
  have ne : databaseName ≠ Name.up := by decide
  obtain ⟨there, free, made, ready⟩ : Creatable d dir := by
    by_contra refused
    obtain ⟨e, failed⟩ := create_of_not_creatable refused env logged
    rw [failed] at created
    cases created
  obtain ⟨home, homeFound, homeDir, found, at_⟩ := found_of_makeDir sound there ne ready
  rw [create_eq_furnish there free ready] at created
  obtain ⟨r, founded, sound', grown', path, config, index⟩ :=
    founded_of_furnish (sound.make rfl ready) found at_ created
  -- The directory of the new one is resolved on the way.
  have grown := (grown_make sound.grounded ready).trans grown'
  have strict : d'.resolvePast (fun _ => false) (dir.child databaseName) = _ :=
    founded.traced.resolvePast
  have plain : ∀ target, d'.top.face? (home ++ [databaseName]) ≠ some (.link target) := by
    rw [founded.there]
    nofun
  obtain ⟨r', traced, -, -⟩ := traced_of_resolvePast sound' (grown.found homeFound homeDir)
    (grown.within _ _ homeDir) ne plain (fun e passed => absurd passed Bool.false_ne_true) strict
  exact ⟨home, r, founded, sound', grown.isDir there, traced.resolve sound'.top, path, config,
    index⟩

end Database

end FileTags
