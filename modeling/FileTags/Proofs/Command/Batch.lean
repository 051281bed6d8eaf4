/-
  Files that are renamed in a row.

  Renaming moves a file with its record and replaces what has its new name.  Some files can be
  renamed one after the other if each is still found when it is its turn.

  * `Template.asksSurrogate` says that the text of a template is none that can be written;
  * `Renaming` is a file with what is known of it and the path that a template gives it, and
    `Renaming.Due` says that it can be renamed; `Due.leads_source` and `Due.leads_dir` say where it
    is and where it goes;
  * `Renaming.Batch` says that some files can be renamed in a row: each of them, and the directory
    of its new name, is found without what the files before it take away and replace, and the data
    file is found without what any of them does;
  * `Batch.apart` and `Batch.target_ne`: what that says about locations;
  * `Renaming.batch_of_plain`: without links, it is enough that no file takes the place of a later
    one.
-/
import FileTags.Proofs.Database.Moving
import FileTags.Proofs.Disk.Renaming

namespace FileTags

open Node

/-! ## Halves of surrogate pairs -/

namespace Template

/-- Whether a placeholder asks for the character of half a surrogate pair. -/
def Placeholder.asksSurrogate (r : Record) (p : Placeholder) : Bool :=
  match r.first? (String.ofList p.name), Format.Spec.parse .integer p.spec with
  | some value, .ok s =>
    s.type = some 'c' &&
      (Number.readInteger value.toList).toOption.any fun n => Format.isSurrogate n.toNat
  | _, _ => false

/-- Whether a template asks for the character of half a surrogate pair, for which its text would
    hold a stand-in. -/
def asksSurrogate (r : Record) (template : String) : Bool :=
  ((pieces template.toList).toOption.getD []).any fun
    | .char _ => false
    | .placeholder p => p.asksSurrogate r

end Template

/-! ## Files and their new names -/

/-- A file that is renamed by a template. -/
structure Renaming where
  /-- The path as it is given. -/
  file : Path
  /-- The path by which the file is known before. -/
  old : Path
  record : Record
  /-- The path that the template gives. -/
  new : Path
  /-- The directory of the new path, resolved, and the name there. -/
  dir : Path
  name : Name
  /-- The path by which the file is known afterwards. -/
  known : Path
  inode : Inode
  content : Content
  mode : Nat

namespace Renaming

/-- The file on the disk. -/
def node (x : Renaming) : Node := .file x.inode x.content x.mode

/-- The record of the file afterwards. -/
def moved (x : Renaming) : Record := { x.record with path := x.known }

/-- Where the file is. -/
def source (db : Database) (x : Renaming) : Location := (db.absolutePath x.old).names

/-- Where the file goes. -/
def target (db : Database) (x : Renaming) : Location := (db.absolutePath x.known).names

/-- The file and the directory of its new name are found on a disk. -/
structure Finds (db : Database) (d : Disk) (x : Renaming) : Prop where
  file : relativePath d db.root x.file = .ok x.old
  dir : d.resolveStrict x.new.parent = .ok x.dir

/-- A tracked file that the template renders for, with a new name in a directory below the root
    where there is nothing or no directory. -/
structure Due (template : String) (db : Database) (d : Disk) (x : Renaming) : Prop
    extends Finds db d x where
  record : db.index.get? x.old = some x.record
  filled : Template.renamedPath x.file x.record template = .ok x.new
  whole : Template.asksSurrogate x.record template = false
  name : x.new.name? = some x.name
  proper : x.name ≠ Name.up
  inside : (x.dir.child x.name).relativeTo? db.root = some x.known
  node : d.lstat (db.absolutePath x.old) = .ok x.node
  isDir : d.isDir x.dir = .ok true
  free : d.lstat (db.absolutePath x.known) = .error .notFound ∨
    ∃ other, d.lstat (db.absolutePath x.known) = .ok other ∧ other.isDir = false

/-- The paths that some files leave and take. -/
def places (db : Database) (xs : List Renaming) : List Path :=
  xs.flatMap fun x => [db.absolutePath x.old, db.absolutePath x.known]

/-- The locations that some files leave and take. -/
def marks (db : Database) (xs : List Renaming) : List Location :=
  xs.flatMap fun x => [x.source db, x.target db]

variable {template : String} {db : Database} {d : Disk} {x y : Renaming}
  {xs done todo : List Renaming} {loc : Location}

theorem marks_append : marks db (done ++ todo) = marks db done ++ marks db todo :=
  List.flatMap_append

theorem source_mem_marks (there : x ∈ xs) : x.source db ∈ marks db xs :=
  List.mem_flatMap.2 ⟨x, there, List.mem_cons_self⟩

theorem target_mem_marks (there : x ∈ xs) : x.target db ∈ marks db xs :=
  List.mem_flatMap.2 ⟨x, there, List.mem_cons_of_mem _ List.mem_cons_self⟩

/-! ## Where a file is and where it goes -/

namespace Due

theorem leads_source (due : x.Due template db d) (placed : d.Placed) :
    db.absolutePath x.old = .ofLocation (x.source db) ∧
      d.Leads (.ofLocation (x.source db)) (x.source db) := by
  obtain ⟨loc, same, leads⟩ :=
    Disk.leads_of_resolveStrict placed (Database.resolveStrict_of_relativePath due.file)
  obtain rfl : x.source db = loc := congrArg Path.names same
  exact ⟨same, same ▸ leads⟩

theorem at?_source (due : x.Due template db d) (placed : d.Placed) :
    (Path.ofLocation (x.source db)).Fits ∧ d.top.at? (x.source db) = some x.node := by
  obtain ⟨same, leads⟩ := due.leads_source placed
  exact leads.at?_of_node (same ▸ due.node)

theorem leads_dir (due : x.Due template db d) (placed : d.Placed) :
    x.dir = .ofLocation x.dir.names ∧ d.Leads (.ofLocation x.dir.names) x.dir.names ∧
      d.top.face? x.dir.names = some .dir := by
  obtain ⟨loc, same, leads⟩ := Disk.leads_of_resolveStrict placed due.dir
  obtain rfl : x.dir.names = loc := congrArg Path.names same
  obtain ⟨node, stat, face⟩ := Disk.isDir_iff.1 due.isDir
  obtain ⟨-, there⟩ := leads.at?_of_node stat
  exact ⟨same, same ▸ leads, face ▸ face?_of_at? there⟩

theorem known_eq (due : x.Due template db d) :
    db.absolutePath x.known = x.dir.child x.name := Path.join_of_relativeTo? due.inside

theorem target_eq (due : x.Due template db d) : x.target db = x.dir.names ++ [x.name] :=
  congrArg Path.names due.known_eq

theorem ofLocation_target (due : x.Due template db d) (placed : d.Placed) :
    db.absolutePath x.known = .ofLocation (x.dir.names ++ [x.name]) := by
  rw [due.known_eq, (due.leads_dir placed).1]
  rfl

theorem fits_target (due : x.Due template db d) (placed : d.Placed) :
    (Path.ofLocation (x.dir.names ++ [x.name])).Fits := by
  have told := due.free
  rw [due.ofLocation_target placed] at told
  exact (due.leads_dir placed).2.1.fits_child due.proper
    (told.imp_right fun ⟨other, found, _⟩ => ⟨other, found⟩)

/-- There is no directory where the file goes. -/
theorem face?_target (due : x.Due template db d) (placed : d.Placed) :
    d.top.face? (x.target db) ≠ some .dir := by
  rw [due.target_eq]
  intro face
  obtain ⟨-, leads, dir⟩ := due.leads_dir placed
  have spot := leads.lookup_child due.proper dir (due.fits_target placed)
  rw [face, Option.isSome_some, if_pos rfl, Path.child_ofLocation] at spot
  obtain ⟨node, at_, isDir⟩ := Option.map_eq_some_iff.1 face
  have found : d.lstat (db.absolutePath x.known) = .ok node := by
    rw [due.ofLocation_target placed, Disk.lstat, Disk.node, spot]
    simp only [at_]
  rcases due.free with missing | ⟨other, found', file⟩
  · rw [found] at missing
    cases missing
  · rw [found] at found'
    cases found'
    rw [isDir_iff_face.2 isDir] at file
    cases file

theorem face?_source (due : x.Due template db d) (placed : d.Placed) :
    d.top.face? (x.source db) ≠ some .dir :=
  Disk.face?_ne_dir (due.at?_source placed).2 rfl

theorem entrance_source (due : x.Due template db d) (placed : d.Placed) :
    d.entrance (db.absolutePath x.old) = some (x.source db) := by
  obtain ⟨same, leads⟩ := due.leads_source placed
  obtain ⟨fits, there⟩ := due.at?_source placed
  obtain ⟨dir, n, last, ne, above, face⟩ := placed.entry leads.up_not_mem there rfl
  rw [same]
  rw [last] at fits ⊢
  exact Disk.entrance_ofLocation above face ne fits

theorem entrance_target (due : x.Due template db d) (placed : d.Placed) :
    d.entrance (db.absolutePath x.known) = some (x.target db) := by
  obtain ⟨-, leads, dir⟩ := due.leads_dir placed
  rw [due.ofLocation_target placed, due.target_eq]
  exact Disk.entrance_ofLocation leads dir due.proper (due.fits_target placed)

end Due

/-! ## Without the places of some files -/

theorem filterMap_entrance (placed : d.Placed) (due : ∀ x ∈ xs, x.Due template db d) :
    (places db xs).filterMap d.entrance = marks db xs := by
  induction xs with
  | nil => rfl
  | cons x xs ih =>
    have first := due x List.mem_cons_self
    have rest := ih fun y there => due y (List.mem_cons_of_mem _ there)
    rw [places, List.flatMap_cons, List.filterMap_append, ← places, rest]
    simp [first.entrance_source placed, first.entrance_target placed, marks]

theorem top_lacking (placed : d.Placed) (due : ∀ x ∈ xs, x.Due template db d) :
    (d.lacking (places db xs)).top = eraseAll (marks db xs) d.top := by
  rw [Disk.lacking, filterMap_entrance placed due]

theorem face?_mark (placed : d.Placed) (due : ∀ x ∈ xs, x.Due template db d) {m : Location}
    (there : m ∈ marks db xs) : d.top.face? m ≠ some .dir := by
  obtain ⟨x, mem, there⟩ := List.mem_flatMap.1 there
  rcases List.mem_cons.1 there with rfl | there
  · exact (due x mem).face?_source placed
  · rw [List.mem_singleton.1 there]
    exact (due x mem).face?_target placed

/-- What is there without the places of some files. -/
theorem face?_lacking (placed : d.Placed) (due : ∀ x ∈ xs, x.Due template db d) :
    (d.lacking (places db xs)).top.face? loc =
      if ∃ m ∈ marks db xs, m <+: loc then none else d.top.face? loc := by
  rw [top_lacking placed due]
  refine face?_eraseAll fun m there empty => ?_
  have mark := face?_mark placed due there
  rw [empty, face?_nil, placed.top] at mark
  exact mark rfl

theorem dir_lacking (placed : d.Placed) (due : ∀ x ∈ xs, x.Due template db d)
    (there : d.top.face? loc = some .dir) :
    (d.lacking (places db xs)).top.face? loc = some .dir := by
  rw [face?_lacking placed due, if_neg, there]
  rintro ⟨m, mark, above⟩
  exact Disk.not_prefix_of_dir there (face?_mark placed due mark) above

theorem placed_lacking (placed : d.Placed) (due : ∀ x ∈ xs, x.Due template db d) :
    (d.lacking (places db xs)).Placed :=
  ⟨placed.removed, dir_lacking placed due placed.there, placed.plain⟩

/-! ## Files in a row -/

/-- Files that can be renamed in a row. -/
structure Batch (template : String) (db : Database) (d : Disk) (xs : List Renaming) : Prop where
  placed : d.Placed
  due : ∀ x ∈ xs, x.Due template db d
  distinct : (xs.map (·.known)).Nodup
  /-- A file may have several names. -/
  coherent : d.top.Coherent
  /-- None of the files is one of the database's own. -/
  own : ∀ x ∈ xs, db.dataInode ≠ some x.inode ∧ db.log ≠ some (.file x.inode)
  /-- What all files take away and replace is not on the way to the data file. -/
  stored : ∀ data, db.dataFile = some data → data.inPlace (d.lacking (places db xs)) = true
  /-- What the files before a file take away and replace is not on the way to it. -/
  clear : ∀ done x todo, xs = done ++ x :: todo → x.Finds db (d.lacking (places db done))

namespace Batch

theorem before (b : Batch template db d (done ++ todo)) : ∀ x ∈ done, x.Due template db d :=
  fun x there => b.due x (List.mem_append_left _ there)

/-- The files before a file neither take away nor replace what the file is or lies in. -/
theorem apart (b : Batch template db d (done ++ x :: todo)) {m : Location}
    (mark : m ∈ marks db done) : ¬ m <+: x.source db := by
  intro above
  have found := Database.resolveStrict_of_relativePath (b.clear done x todo rfl).file
  obtain ⟨loc, same, leads⟩ :=
    Disk.leads_of_resolveStrict (placed_lacking b.placed b.before) found
  obtain rfl : x.source db = loc := congrArg Path.names same
  obtain ⟨f, there, -⟩ := leads.there
  rw [face?_lacking b.placed b.before, if_pos ⟨m, mark, above⟩] at there
  cases there

/-- A file neither takes away nor replaces what a later one is or lies in. -/
theorem apart_later (b : Batch template db d (done ++ x :: todo)) (later : y ∈ todo) :
    ¬ x.source db <+: y.source db ∧ ¬ x.target db <+: y.source db := by
  obtain ⟨mid, rest, rfl⟩ := List.append_of_mem later
  have b' : Batch template db d ((done ++ x :: mid) ++ y :: rest) := by simpa using b
  have there : x ∈ done ++ x :: mid := by simp
  exact ⟨b'.apart (source_mem_marks there), b'.apart (target_mem_marks there)⟩

/-- Files have different new places. -/
theorem target_ne (b : Batch template db d (done ++ x :: todo)) (there : y ∈ done) :
    y.target db ≠ x.target db := by
  intro same
  have relative : ∀ z ∈ done ++ x :: todo, z.known.isAbsolute = false := fun z mem =>
    Path.isAbsolute_of_relativeTo? (b.due z mem).inside
  have known := Database.absolutePath_inj (relative y (List.mem_append_left _ there))
    (relative x (by simp)) same
  have distinct := b.distinct
  rw [List.map_append, List.map_cons, List.nodup_append] at distinct
  exact distinct.2.2 _ (List.mem_map_of_mem there) _ List.mem_cons_self known

end Batch

/-- The file and the directory of its new name are given by their names, without a link. -/
structure Plain (db : Database) (d : Disk) (x : Renaming) : Prop where
  file : d.Leads x.file (x.source db)
  fits : x.file.Fits
  dir : d.Leads x.new.parent x.dir.names
  fits_dir : x.new.parent.Fits

/-- **Files that are given without links can be renamed in a row** if no file takes the place of a
    later one. -/
theorem batch_of_plain (placed : d.Placed) (due : ∀ x ∈ xs, x.Due template db d)
    (distinct : (xs.map (·.known)).Nodup) (coherent : d.top.Coherent)
    (own : ∀ x ∈ xs, db.dataInode ≠ some x.inode ∧ db.log ≠ some (.file x.inode))
    (stored : ∀ data, db.dataFile = some data → data.inPlace (d.lacking (places db xs)) = true)
    (plain : ∀ x ∈ xs, x.Plain db d)
    (order : xs.Pairwise fun x y => x.source db ≠ y.source db ∧ x.target db ≠ y.source db) :
    Batch template db d xs := by
  refine ⟨placed, due, distinct, coherent, own, stored, fun done x todo same => ?_⟩
  subst same
  have mem : x ∈ done ++ x :: todo := by simp
  have before : ∀ y ∈ done, y.Due template db d := fun y there =>
    due y (List.mem_append_left _ there)
  obtain ⟨file, fits, dir, fits_dir⟩ := plain x mem
  have here := (due x mem).at?_source placed
  have spared : ∀ m ∈ marks db done, ¬ m <+: x.source db := fun m mark above => by
    have same := Disk.eq_of_above (face?_of_at? here.2) above (face?_mark placed before mark)
    obtain ⟨y, there, mark⟩ := List.mem_flatMap.1 mark
    have apart := (List.pairwise_append.1 order).2.2 y there x List.mem_cons_self
    rcases List.mem_cons.1 mark with rfl | mark
    · exact apart.1 same
    · exact apart.2 (List.mem_singleton.1 mark ▸ same)
  have dirs : ∀ l, d.top.face? l = some .dir →
      (d.lacking (places db done)).top.face? l = some .dir := fun l => dir_lacking placed before
  have kept : (d.lacking (places db done)).top.face? (x.source db) = d.top.face? (x.source db) := by
    rw [face?_lacking placed before, if_neg fun ⟨m, mark, above⟩ => spared m mark above]
  have file' : (d.lacking (places db done)).Leads x.file (x.source db) :=
    file.of_kept rfl dirs kept
  obtain ⟨resolved, -, face⟩ := (due x mem).leads_dir placed
  have dir' : (d.lacking (places db done)).Leads x.new.parent x.dir.names :=
    dir.of_kept rfl dirs ((dirs _ face).trans face.symm)
  refine ⟨Database.relativePath_of_resolveStrict ?_
    (Database.relativePath_relative (due x mem).file), ?_⟩
  · rw [((due x mem).leads_source placed).1]
    exact file'.resolvePast fits
  · rw [resolved]
    exact dir'.resolvePast fits_dir

end Renaming

end FileTags
