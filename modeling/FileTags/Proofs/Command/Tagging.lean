/-
  Adding and removing the tags of many files.

  The files are worked on one after the other, and the index is saved after each.  A file that is
  not there, or that lies outside the root, is reported and changes nothing; what the others get
  does not depend on it, nor on the order and the number of times in which files and tags are given.

  * `Disk.complaint?` is what is reported of a file;
  * `Tagging` is one of the two commands, `Tagging.Meant` says which tags it means for which files;
  * `Tagging.exists_task` and `Tagging.task_of_error`: what is done with one file;
  * `Underway` is what holds after some of the files; `Underway.one` keeps it through one file and
    `Underway.all` through all of them;
  * `run_tagging`: what a command line that adds or removes tags does.
-/
import FileTags.Command.Run
import FileTags.Proofs.Command.Reading
import FileTags.Proofs.Database.Calls
import FileTags.Proofs.Database.Finding
import FileTags.Proofs.Database.Knowing
import FileTags.Proofs.Database.Opening
import FileTags.Proofs.Disk.Nulls

namespace FileTags

/-! ## The same tree -/

namespace Disk

/-- Two disks differ in no more than what files hold. -/
structure Alike (d' d : Disk) : Prop where
  shape : d'.top.shape = d.top.shape
  current : d'.current = d.current

variable {d d' : Disk} {file root p : Path}

theorem Alike.refl (d : Disk) : d.Alike d := ⟨rfl, rfl⟩

theorem Alike.symm (alike : d'.Alike d) : d.Alike d' := ⟨alike.shape.symm, alike.current.symm⟩

theorem Alike.save (alike : d'.Alike d) (db : Database) (stamp : String) :
    (db.save d' stamp).1.Alike d :=
  ⟨Database.shape_save.trans alike.shape, Database.current_save.trans alike.current⟩

theorem Alike.resolveStrict (alike : d'.Alike d) (resolved : d.resolveStrict file = .ok p) :
    d'.resolveStrict file = .ok p := by
  refine resolvePast_within (Node.within_of_shape alike.shape.symm) alike.current ?_ resolved
  rw [← Node.linkCount_shape, ← alike.shape, Node.linkCount_shape]

/-- What is to be reported about a file: that it is missing, or where it is outside the root. -/
def complaint? (d : Disk) (root file : Path) : Option Notice :=
  match d.resolveStrict file with
  | .error _ => some (.failure (.pathNotFound file))
  | .ok resolved =>
    if (resolved.relativeTo? root).isSome then none
    else some (.failure (.pathOutside resolved root))

theorem complaint?_eq_none_iff : d.complaint? root file = none ↔ ∃ p, d.Knows root file p := by
  rw [complaint?]
  split
  next failed => simp [not_knows failed]
  next found => simp [knows_iff found, Option.isSome_iff_exists]

end Disk

variable {d d' : Disk} {root file known p : Path} {t : Tag}

/-- A file that is not known is missing, or lies outside. -/
theorem relativePath_cases (free : d.NullFree) (root : Path) (null : file.hasNull = false) :
    (∃ p, relativePath d root file = .ok p ∧ d.complaint? root file = none) ∨
      ∃ e, relativePath d root file = .error e ∧ e.isExpected = true ∧
        d.complaint? root file = some (.failure e) := by
  cases found : d.resolveStrict file with
  | error e => exact .inr ⟨_, relativePath_of_error free null found, rfl, by
      rw [Disk.complaint?, found]⟩
  | ok resolved =>
    simp only [relativePath, Disk.complaint?, found]
    cases resolved.relativeTo? root with
    | some p => exact .inl ⟨p, rfl, rfl⟩
    | none => exact .inr ⟨_, rfl, rfl, rfl⟩

/-- What a file is known by does not depend on what files hold. -/
theorem relativePath_alike (alike : d'.Alike d) (free : d.NullFree) (null : file.hasNull = false) :
    relativePath d' root file = relativePath d root file := by
  cases found : d.resolveStrict file with
  | ok resolved => rw [relativePath, relativePath, found, alike.resolveStrict found]
  | error e =>
    rw [relativePath_of_error free null found]
    cases found' : d'.resolveStrict file with
    | ok resolved => rw [alike.symm.resolveStrict found'] at found; cases found
    | error e' => exact relativePath_of_error (free.congr alike.shape) null found'

/-! ## The commands -/

/-- A command that changes the tags of files. -/
inductive Tagging where
  | add
  | remove
deriving DecidableEq

namespace Tagging

/-- The command with its tags and files. -/
def command : Tagging → List String → FileArguments → Command
  | add => .add
  | remove => .remove

/-- What is done with each file. -/
def task : Tagging → List String → Task Unit
  | add => Task.add
  | remove => Task.remove

/-- What is done with a file for one text. -/
def call (c : Tagging) (d : Disk) (db : Database) (file : Path) (raw : String) :
    Database.Outcome (List Tag) :=
  match c with
  | add => db.add d file raw
  | remove => db.remove d file raw

/-- The tags that a text stands for. -/
def tags : Tagging → Config → String → List Tag
  | add => Config.tagsToAdd
  | remove => Config.tagsToRemove

/-- A tag is meant for a path: one of the files is known by the path, and one of the texts stands
    for the tag. -/
def Meant (c : Tagging) (d : Disk) (db : Database) (raws : List String) (files : List Path)
    (p : Path) (t : Tag) : Prop :=
  (∃ file ∈ files, d.Knows db.root file p) ∧ ∃ raw ∈ raws, t ∈ c.tags db.config raw

/-- Whether a tag is carried afterwards, by whether it was before and whether it is meant. -/
def Leaves : Tagging → Prop → Prop → Prop
  | add, before, meant => meant ∨ before
  | remove, before, meant => ¬ meant ∧ before

/-- The index after the files have been worked on. -/
def finalIndex (c : Tagging) (s : Setup) (d : Disk) (db : Database) (raws : List String)
    (files : List Path) : Index :=
  ((Work.start s.clock s.settings.debug d db).all s.clock s.settings.debug (c.task raws)
    files).1.db.index

variable {c : Tagging} {db : Database} {raw : String} {raws : List String} {files done : List Path}

theorem leaves_leaves {before first second : Prop} :
    c.Leaves (c.Leaves before first) second ↔ c.Leaves before (first ∨ second) := by
  cases c <;> simp only [Leaves] <;> tauto

theorem leaves_congr {before before' meant meant' : Prop} (same : before ↔ before')
    (same' : meant ↔ meant') : c.Leaves before meant ↔ c.Leaves before' meant' := by
  rw [same, same']

theorem leaves_false {before : Prop} : c.Leaves before False ↔ before := by
  cases c <;> simp [Leaves]

theorem Meant.congr {raws' : List String} {files' : List Path}
    (sameRaws : ∀ raw, raw ∈ raws' ↔ raw ∈ raws) (sameFiles : ∀ f, f ∈ files' ↔ f ∈ files) :
    c.Meant d db raws' files' p t ↔ c.Meant d db raws files p t := by
  simp only [Meant, sameRaws, sameFiles]

theorem meant_concat : c.Meant d db raws (files ++ [file]) p t ↔ c.Meant d db raws files p t ∨
    d.Knows db.root file p ∧ ∃ raw ∈ raws, t ∈ c.tags db.config raw := by
  simp only [Meant, List.mem_append, List.mem_singleton, or_and_right, exists_or,
    exists_eq_left]

/-! ## One file -/

theorem call_of_error {e : Error} (unknown : relativePath d db.root file = .error e) :
    c.call d db file raw = (.error e, db) := by
  cases c with
  | add => simp only [call, Database.add, unknown]
  | remove => simp only [call, Database.remove, unknown]

theorem exists_call (k : db.index.Keyed) (inside : relativePath d db.root file = .ok known)
    (raw : String) :
    ∃ db', c.call d db file raw = (.ok (c.tags db.config raw), db') ∧ db.Follows db' ∧
      db'.index.Keyed ∧ ∀ p t, db'.index.ledger.Carries p t ↔
        c.Leaves (db.index.ledger.Carries p t) (p = known ∧ t ∈ c.tags db.config raw) := by
  cases c with
  | add =>
    obtain ⟨db', added, -, -, keyed, carries⟩ := Database.exists_add k inside raw
    have follows : db.Follows (db.add d file raw).2 := Database.follows_add file raw
    exact ⟨db', added, by rwa [added] at follows, keyed, carries⟩
  | remove =>
    obtain ⟨db', removed, -, -, keyed, carries⟩ := Database.exists_remove k inside raw
    have follows : db.Follows (db.remove d file raw).2 := Database.follows_remove file raw
    exact ⟨db', removed, by rwa [removed] at follows, keyed, carries⟩

theorem task_cons : c.task (raw :: raws) d db file =
    match c.call d db file raw with
    | (.error e, db) => (d, .error e, db)
    | (.ok _, db) => c.task raws d db file := by
  cases c <;> rfl

/-- **A file that is not known** is left alone. -/
theorem task_of_error {e : Error} (unknown : relativePath d db.root file = .error e)
    (ne : raws ≠ []) : c.task raws d db file = (d, .error e, db) := by
  obtain ⟨raw, rest, rfl⟩ := List.exists_cons_of_ne_nil ne
  rw [task_cons, call_of_error unknown]

/-- **A file that is known** gets all tags of all texts, or loses them. -/
theorem exists_task (k : db.index.Keyed) (inside : relativePath d db.root file = .ok known)
    (raws : List String) :
    ∃ db', c.task raws d db file = (d, .ok (), db') ∧ db.Follows db' ∧
      ∀ p t, db'.index.ledger.Carries p t ↔ c.Leaves (db.index.ledger.Carries p t)
        (p = known ∧ ∃ raw ∈ raws, t ∈ c.tags db.config raw) := by
  induction raws generalizing db with
  | nil =>
    refine ⟨db, by cases c <;> rfl, .refl db, fun p t => ?_⟩
    simp [leaves_false]
  | cons raw raws ih =>
    obtain ⟨db₁, called, follows, keyed, carries⟩ := exists_call (c := c) k inside raw
    obtain ⟨path, config, -⟩ := follows.frame
    have inside₁ : relativePath d db₁.root file = .ok known := by
      rw [Database.root, path]
      exact inside
    obtain ⟨db', rest, follows', carries'⟩ := ih keyed inside₁
    refine ⟨db', by rw [task_cons, called]; exact rest, follows.trans follows', fun p t => ?_⟩
    rw [carries', config, leaves_congr (carries p t) Iff.rfl, leaves_leaves]
    refine leaves_congr Iff.rfl ?_
    rw [← and_or_left, List.exists_mem_cons_iff]

end Tagging

/-! ## All files -/

/-- What holds after some of the files. -/
structure Underway (c : Tagging) (d : Disk) (db : Database) (raws : List String)
    (done : List Path) (w : Work Unit) : Prop where
  path : w.db.path = db.path
  config : w.db.config = db.config
  dataFile : w.db.dataFile = db.dataFile
  consistent : w.db.index.Consistent
  alike : w.disk.Alike d
  carries : ∀ p t, w.db.index.ledger.Carries p t ↔
    c.Leaves (db.index.ledger.Carries p t) (c.Meant d db raws done p t)
  complaints : w.notices.filter Notice.isComplaint = done.filterMap (d.complaint? db.root)
  stored : ∀ loc index, db.Stores d loc index → db.Stores w.disk loc w.db.index

namespace Underway

variable {c : Tagging} {db now : Database} {raws : List String} {done todo : List Path}
  {w : Work Unit} {clock : Clock} {debug : Bool} {stamp : String}

theorem filter_notices : (now.notices debug).filter Notice.isComplaint = [] := by
  rw [List.filter_eq_nil_iff]
  intro n told
  simp [Database.isComplaint_of_mem_notices told]

theorem start (c : Tagging) (d : Disk) (raws : List String) (clock : Clock) (debug : Bool)
    (consistent : db.index.Consistent) :
    Underway c d db raws [] (.start clock debug d db) where
  path := rfl
  config := rfl
  dataFile := rfl
  consistent := consistent
  alike := (Disk.Alike.refl d).save db _
  carries p t := by simp [Tagging.Meant, Tagging.leaves_false, Work.start, Database.save]
  complaints := filter_notices
  stored _ _ stores := stores.save rfl

theorem relativePath_eq (u : Underway c d db raws done w) (free : d.NullFree)
    (null : file.hasNull = false) :
    relativePath w.disk w.db.root file = relativePath d db.root file := by
  rw [Database.root, u.path]
  exact relativePath_alike u.alike free null

/-- Work on a file that is known. -/
theorem one_of_known (u : Underway c d db raws done w) (free : d.NullFree)
    (null : file.hasNull = false) (inside : relativePath d db.root file = .ok known)
    (well : d.complaint? db.root file = none) :
    ∃ w', w.one clock debug (c.task raws) file = (w', none) ∧
      Underway c d db raws (done ++ [file]) w' := by
  obtain ⟨now, task, follows, carries⟩ := Tagging.exists_task (c := c) u.consistent.toKeyed
    ((u.relativePath_eq free null).trans inside) raws
  obtain ⟨path, config, -, data, events, index⟩ := follows.frame
  have saved : (now.save w.disk clock.plain).2.index = now.index := rfl
  refine ⟨_, by rw [Work.one, task], path.trans u.path, config.trans u.config,
    data.trans u.dataFile, ?_, u.alike.save now _, fun p t => ?_, ?_,
    fun loc index stores => (u.stored loc index stores).save (data.trans u.dataFile)⟩
  · rw [saved, index]
    exact u.consistent.replay events
  · rw [saved, carries, u.config, Tagging.leaves_congr (u.carries p t) Iff.rfl,
      Tagging.leaves_leaves, Tagging.meant_concat, ← relativePath_eq_ok_iff, inside,
      Except.ok.injEq, eq_comm]
  · simp only [List.filter_append, filter_notices, List.append_nil, u.complaints,
      List.filterMap_append]
    simp [well]

/-- Work on a file that is not known, which is reported. -/
theorem one_of_error (u : Underway c d db raws done w) (free : d.NullFree)
    (null : file.hasNull = false) (ne : raws ≠ []) {e : Error}
    (unknown : relativePath d db.root file = .error e)
    (ill : d.complaint? db.root file = some (.failure e)) :
    ∃ w', w.one clock debug (c.task raws) file = (w', some e) ∧
      Underway c d db raws (done ++ [file]) (w'.tell (.failure e)) := by
  have task := Tagging.task_of_error (c := c) ((u.relativePath_eq free null).trans unknown) ne
  have worked : w.one clock debug (c.task raws) file =
      (⟨(w.db.save w.disk clock.plain).1, (w.db.save w.disk clock.plain).2, w.answers,
        w.notices ++ w.db.notices debug⟩, some e) := by rw [Work.one, task]
  refine ⟨_, worked, u.path, u.config, u.dataFile, u.consistent, u.alike.save w.db _,
    fun p t => (u.carries p t).trans ?_, ?_,
    fun loc index stores => (u.stored loc index stores).save u.dataFile⟩
  · refine Tagging.leaves_congr Iff.rfl ?_
    rw [Tagging.meant_concat, ← relativePath_eq_ok_iff, unknown]
    simp
  · simp only [Work.tell, List.filter_append, filter_notices, List.append_nil, u.complaints,
      List.filterMap_append]
    simp [ill, Notice.isComplaint]

/-- **Work on one file** goes on with the next one. -/
theorem one (u : Underway c d db raws done w) (free : d.NullFree) (null : file.hasNull = false)
    (ne : raws ≠ []) :
    ∃ w', (∀ todo, w.all clock debug (c.task raws) (file :: todo) =
        w'.all clock debug (c.task raws) todo) ∧
      Underway c d db raws (done ++ [file]) w' := by
  rcases relativePath_cases free db.root null with ⟨known, inside, well⟩ |
    ⟨e, unknown, expected, ill⟩
  · obtain ⟨w', worked, u'⟩ := u.one_of_known free null inside well
    exact ⟨w', fun todo => by rw [Work.all, worked], u'⟩
  · obtain ⟨w', worked, u'⟩ := u.one_of_error free null ne unknown ill
    exact ⟨_, fun todo => by rw [Work.all, worked]; exact if_pos expected, u'⟩

/-- Work on all files. -/
theorem all (u : Underway c d db raws done w) (free : d.NullFree)
    (nulls : ∀ file ∈ todo, file.hasNull = false) (ne : raws ≠ []) :
    ∃ w', w.all clock debug (c.task raws) todo = (w', none) ∧
      Underway c d db raws (done ++ todo) w' := by
  induction todo generalizing done w with
  | nil => exact ⟨w, rfl, by rwa [List.append_nil]⟩
  | cons file todo ih =>
    obtain ⟨null, others⟩ := List.forall_mem_cons.1 nulls
    obtain ⟨w₁, first, u₁⟩ := u.one free null ne
    obtain ⟨w', rest, u'⟩ := ih u₁ others
    exact ⟨w', (first todo).trans rest, by simpa using u'⟩

/-- The work has failed if a file is not known. -/
theorem failed_iff (u : Underway c d db raws done w) : (w.effect none).failed = true ↔
    ∃ file ∈ done, ∀ p, ¬ d.Knows db.root file p := by
  have told (n : Notice) : n ∈ w.notices ∧ n.isComplaint = true ↔
      ∃ file ∈ done, d.complaint? db.root file = some n := by
    rw [← List.mem_filter, u.complaints, List.mem_filterMap]
  have unknown (file : Path) : (∀ p, ¬ d.Knows db.root file p) ↔
      ∃ n, d.complaint? db.root file = some n := by
    rw [← not_exists, ← Disk.complaint?_eq_none_iff, ← ne_eq, Option.ne_none_iff_exists']
  simp only [unknown, Effect.failed, Work.effect, Option.isSome_none, Bool.false_or,
    List.any_eq_true, told]
  constructor
  · rintro ⟨n, file, there, same⟩
    exact ⟨file, there, n, same⟩
  · rintro ⟨file, there, n, same⟩
    exact ⟨n, file, there, same⟩

end Underway

/-! ## Command lines -/

/-- What a command line works with. -/
def Setup.ofArguments (env : Environment) (clock : Clock) (arguments : List String)
    (input : String) : Setup :=
  ⟨env, (Request.ofArguments env arguments).settings, clock, input⟩

section
variable {c : Tagging} {s : Setup} {d₀ d : Disk} {db : Database} {raws : List String}
  {files : FileArguments} {paths : List Path}

/-- The work of a command on its files. -/
theorem Tagging.exists_work (c : Tagging) (s : Setup) (free : d.NullFree)
    (nulls : ∀ file ∈ paths, file.hasNull = false) (ne : raws ≠ [])
    (consistent : db.index.Consistent) :
    ∃ w, (Work.start s.clock s.settings.debug d db).all s.clock s.settings.debug (c.task raws)
        paths = (w, none) ∧ w.db.index = c.finalIndex s d db raws paths ∧
      Underway c d db raws paths w := by
  obtain ⟨w, worked, u⟩ := (Underway.start c d raws s.clock s.settings.debug consistent).all free
    nulls ne
  exact ⟨w, worked, by rw [finalIndex, worked], u⟩

/-- What the index has in the end. -/
theorem Tagging.finalIndex_spec (c : Tagging) (s : Setup) (free : d.NullFree)
    (nulls : ∀ file ∈ paths, file.hasNull = false) (ne : raws ≠ [])
    (consistent : db.index.Consistent) :
    (c.finalIndex s d db raws paths).Consistent ∧
      ∀ p t, (c.finalIndex s d db raws paths).Tagged p t ↔
        c.Leaves (db.index.Tagged p t) (c.Meant d db raws paths p t) := by
  obtain ⟨w, -, final, u⟩ := c.exists_work s free nulls ne consistent
  rw [← final]
  refine ⟨u.consistent, fun p t => ?_⟩
  rw [Index.tagged_iff u.consistent.toKeyed, Index.tagged_iff consistent.toKeyed, u.carries]

/-- What files and tags there are decides about the index, not their order. -/
theorem Tagging.all_finalIndex (c : Tagging) (s : Setup) (free : d.NullFree)
    (nulls : ∀ file ∈ paths, file.hasNull = false) (ne : raws ≠ [])
    (consistent : db.index.Consistent) {raws' : List String} {paths' : List Path}
    (sameRaws : ∀ raw, raw ∈ raws' ↔ raw ∈ raws)
    (samePaths : ∀ file, file ∈ paths' ↔ file ∈ paths) :
    (c.finalIndex s d db raws' paths').all = (c.finalIndex s d db raws paths).all := by
  have nulls' : ∀ file ∈ paths', file.hasNull = false :=
    fun file there => nulls file ((samePaths file).1 there)
  have ne' : raws' ≠ [] := by
    obtain ⟨raw, there⟩ := List.exists_mem_of_ne_nil raws ne
    exact List.ne_nil_of_mem ((sameRaws raw).2 there)
  obtain ⟨ordered, tagged⟩ := c.finalIndex_spec s free nulls ne consistent
  obtain ⟨ordered', tagged'⟩ := c.finalIndex_spec s free nulls' ne' consistent
  refine ordered.all_eq_of_tagged ordered' fun p t => ?_
  rw [tagged, tagged', Tagging.leaves_congr Iff.rfl (Tagging.Meant.congr sameRaws samePaths)]

theorem Tagging.perform_eq {w : Work Unit} (selected : s.selectFiles d₀ files = .ok paths)
    (some : paths ≠ []) (opened : s.openDatabase d₀ = (d, .ok db))
    (worked : (Work.start s.clock s.settings.debug d db).all s.clock s.settings.debug
      (c.task raws) paths = (w, none)) :
    (c.command raws files).perform s d₀ = w.effect none := by
  have performed : (c.command raws files).perform s d₀ =
      s.onFiles d₀ files (c.task raws) Work.effect := by cases c <;> rfl
  obtain ⟨first, rest, rfl⟩ := List.exists_cons_of_ne_nil some
  rw [performed, Setup.onFiles, selected]
  simp only [Setup.withDatabase, opened, worked]

end

/-- **Adding and removing tags.**  In the end, the index has what it had with the tags that are
    meant added or removed, and the data file holds it.  There is one complaint about each file
    that is missing or lies outside the root, in order, and the exit status is one if and only if
    there is such a file.  Files and tags may come in any order, and more than once. -/
theorem run_tagging (c : Tagging) (env : Environment) (clock : Clock) (arguments : List String)
    (input : String) {raws : List String} {files : FileArguments} {d₀ d : Disk} {db : Database}
    {paths : List Path}
    (asked : (Request.ofArguments env arguments).command = .ok (c.command raws files))
    (selected : (Setup.ofArguments env clock arguments input).selectFiles d₀ files = .ok paths)
    (some : paths ≠ []) (nulls : ∀ file ∈ paths, file.hasNull = false)
    (opened : (Setup.ofArguments env clock arguments input).openDatabase d₀ = (d, .ok db))
    (grounded : d₀.Grounded) (free : d.NullFree) (consistent : db.index.Consistent) :
    let s := Setup.ofArguments env clock arguments input
    let index := c.finalIndex s d db raws paths
    index.Consistent ∧
    (∀ p t, index.Tagged p t ↔ c.Leaves (db.index.Tagged p t) (c.Meant d db raws paths p t)) ∧
    (∃ disk result, run d₀ env clock arguments input = (disk, .ok result) ∧
      (∃ loc, db.Stores disk loc index) ∧
      result.notices.filter Notice.isComplaint = paths.filterMap (d.complaint? db.root) ∧
      (result.ending.status = 1 ↔ ∃ file ∈ paths, ∀ p, ¬ d.Knows db.root file p)) ∧
    ∀ raws' paths', (∀ raw, raw ∈ raws' ↔ raw ∈ raws) → (∀ file, file ∈ paths' ↔ file ∈ paths) →
      (c.finalIndex s d db raws' paths').all = index.all := by
  intro s index
  have ne : raws ≠ [] := by
    have tags := Request.hasTags asked
    cases c <;> exact tags
  obtain ⟨w, worked, final, u⟩ := c.exists_work s free nulls ne consistent
  obtain ⟨ordered, tagged⟩ := c.finalIndex_spec s free nulls ne consistent
  have performed := Tagging.perform_eq selected some opened worked
  have ran : run d₀ env clock arguments input = s.finish (w.effect none) := by
    rw [run, Request.run, asked, ← performed]
    rfl
  refine ⟨ordered, tagged, ⟨w.disk, _, ran, ?_, u.complaints, ?_⟩,
    fun raws' paths' sameRaws samePaths =>
      c.all_finalIndex s free nulls ne consistent sameRaws samePaths⟩
  · obtain ⟨loc, stores⟩ := s.stores_of_openDatabase grounded opened
    rw [show index = w.db.index from final.symm]
    exact ⟨loc, u.stored loc _ stores⟩
  · rw [← u.failed_iff]
    dsimp only
    split
    next failed => simp [failed, Ending.status]
    next quiet => simp [quiet, Ending.status]

namespace Tagging

/-- The index of a file `b` with a tag. -/
def linkIndex : Index := Index.empty.add (.ofString "b") (.bare "y")

/-- A file, a link to it, and their database. -/
def linkDisk : Disk :=
  ⟨.dir [(databaseName, .dir [(dataName, .file ⟨0⟩ (.index newestLayout linkIndex) 0),
    (logName, .file ⟨1⟩ .empty 0)]), (⟨"file", by decide⟩, .file ⟨2⟩ .empty 0),
    (⟨"link", by decide⟩, .link "file")], ⟨[], 0⟩, ⟨3⟩⟩

/-- The database of the disk. -/
def linkDatabase : Database :=
  ⟨Path.root.child databaseName, {}, linkIndex,
    some ⟨"/.sea-serpent/data.sqlite", (Path.root.child databaseName).child dataName, ⟨0⟩⟩,
    some (.file ⟨1⟩), []⟩

end Tagging

open Tagging in
/-- Two tags for a file that is missing, a link and the file it leads to. -/
theorem run_tagging_link :
    ∃ disk result, ∃ index : Index,
      run linkDisk {} ⟨"", ""⟩ ["add", "-t", "x", "-t", "k:v", "gone", "link", "file"] "" =
        (disk, .ok result) ∧
      (∃ loc, linkDatabase.Stores disk loc index) ∧ index.Consistent ∧
      index.Tagged (.ofString "file") (.bare "x") ∧
      index.Tagged (.ofString "file") (.pair "k" "v") ∧ index.Tagged (.ofString "b") (.bare "y") ∧
      result.notices.filter Notice.isComplaint = [.failure (.pathNotFound (.ofString "gone"))] ∧
      result.ending.status = 1 := by
  let paths : List Path := [.ofString "gone", .ofString "link", .ofString "file"]
  let arguments := ["add", "-t", "x", "-t", "k:v", "gone", "link", "file"]
  let setup := Setup.ofArguments {} ⟨"", ""⟩ arguments ""
  have asked : (Request.ofArguments {} arguments).command =
      .ok (add.command ["x", "k:v"] ⟨paths, {}, false⟩) := by decide +kernel
  have selected : setup.selectFiles linkDisk ⟨paths, {}, false⟩ = .ok paths := by decide +kernel
  have opened : setup.openDatabase linkDisk = (linkDisk, .ok linkDatabase) := by decide +kernel
  have consistent : linkIndex.Consistent := Index.Consistent.empty.add
  obtain ⟨ordered, tagged, ⟨disk, result, ran, stored, complaints, status⟩, -⟩ :=
    run_tagging .add {} ⟨"", ""⟩ arguments "" asked selected (List.cons_ne_nil _ _)
      (by decide +kernel) opened rfl (by decide +kernel) consistent
  have known : linkDisk.Knows linkDatabase.root (.ofString "link") (.ofString "file") :=
    ⟨Path.root.child ⟨"file", by decide⟩, by decide +kernel, by decide +kernel⟩
  have before : linkIndex.Tagged (.ofString "b") (.bare "y") :=
    ⟨⟨.ofString "b", ["y"], []⟩, by decide +kernel, rfl, List.mem_singleton_self "y"⟩
  refine ⟨disk, result, _, ran, stored, ordered, ?_, ?_, (tagged _ _).2 (.inr before),
    ?_, ?_⟩
  · exact (tagged _ _).2 (.inl ⟨⟨_, by simp [paths], known⟩, "x", by simp, by decide +kernel⟩)
  · exact (tagged _ _).2 (.inl ⟨⟨_, by simp [paths], known⟩, "k:v", by simp, by decide +kernel⟩)
  · rw [complaints]
    decide +kernel
  · exact status.2 ⟨.ofString "gone", by simp [paths], fun p =>
      Disk.not_knows (e := .disk .notFound) (by decide +kernel)⟩

end FileTags
