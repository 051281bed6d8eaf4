/-
  What a cleanup leaves.

  * `Database.remains` says that the path of a file still leads somewhere, and
    `Database.Checkable` that the disk can tell so of every file;
  * `Database.exists_forgetMissing` and `Database.dropDisallowed_spec`: what the two passes of a
    cleanup do to the index;
  * `Database.cleanup_restricts`: a cleanup leaves the files that remain, with the tags that are
    allowed, counts what it takes away, and has nothing to do a second time;
  * `Database.exists_cleanup_error`: a file that the disk cannot tell about stops it.
-/
import FileTags.Database.Cleanup
import FileTags.Proofs.Database.Finding
import FileTags.Proofs.Disk.Leading
import Mathlib.Algebra.GroupWithZero.Nat

namespace FileTags

/-- The number of tags and of attributes of a record that a configuration does not allow. -/
def Record.excess (r : Record) (c : Config) : Nat :=
  r.tags.countP (fun word => !c.allowsTag (.bare word)) +
    r.attributes.countP fun (key, value) => !c.allowsTag (.pair key value)

namespace Database

variable {d : Disk} {db : Database} {p : Path} {t : Tag} {files : List Path}

/-- The path of a file still leads somewhere. -/
def remains (d : Disk) (db : Database) (p : Path) : Bool :=
  decide (d.present (db.absolutePath p) = .ok true)

/-- The disk can tell of every file whether its path leads somewhere. -/
def Checkable (d : Disk) (db : Database) : Prop :=
  ∀ r ∈ db.index.all, ∃ there, d.present (db.absolutePath r.path) = .ok there

/-! ## Files that are gone -/

theorem exists_forgetMissing (c : db.index.Consistent)
    (told : ∀ p ∈ files, ∃ there, d.present (db.absolutePath p) = .ok there) :
    ∃ db', forgetMissing d files db = (.ok (files.countP (!db.remains d ·)), db') ∧
      db'.path = db.path ∧ db'.config = db.config ∧ db'.index.Consistent ∧
      ∀ p t, db'.index.ledger.Carries p t ↔
        db.index.ledger.Carries p t ∧ (p ∈ files → db.remains d p = true) := by
  induction files generalizing db with
  | nil => exact ⟨db, rfl, rfl, rfl, c, fun p t => by simp⟩
  | cons file files ih =>
    obtain ⟨there, found⟩ := told file List.mem_cons_self
    have others := fun p h => told p (List.mem_cons_of_mem file h)
    cases there with
    | true =>
      have left : db.remains d file = true := decide_eq_true found
      obtain ⟨db', forgot, path, config, c', carries⟩ := ih c others
      refine ⟨db', ?_, path, config, c', fun p t => (carries p t).trans ?_⟩
      · simp [forgetMissing, found, forgot, left]
      · refine and_congr_right fun _ => ?_
        rw [List.mem_cons, or_imp]
        exact (and_iff_right fun e => e ▸ left).symm
    | false =>
      have gone : db.remains d file = false := decide_eq_false (by rw [found]; nofun)
      -- Forgetting a file does not change what remains of the others.
      obtain ⟨db', forgot, path, config, c', carries⟩ := @ih (db.forget file) c.discard others
      refine ⟨db', ?_, path, config, c', fun p t => (carries p t).trans ?_⟩
      · have count : files.countP (!(db.forget file).remains d ·) =
            files.countP (!db.remains d ·) := rfl
        simp [forgetMissing, found, forgot, gone, count]
      · rw [show (db.forget file).index = db.index.discard file from rfl,
          Index.ledger_discard c.toKeyed, Ledger.carries_erase]
        have same : (db.forget file).remains d p = db.remains d p := rfl
        rw [same, List.mem_cons]
        by_cases e : p = file
        · simp [e, gone]
        · simp [e]

/-! ## Tags that are not allowed -/

theorem mem_disallowed (k : db.index.Keyed) :
    (p, t) ∈ db.disallowed ↔ db.index.ledger.Carries p t ∧ db.config.allowsTag t = false := by
  rw [Ledger.carries_iff, ← Index.all_eq k]
  simp only [disallowed, Record.disallowed, List.mem_flatMap, List.mem_map, List.mem_filter,
    Record.mem_carried, Prod.mk.injEq, Bool.not_eq_true']
  constructor
  · rintro ⟨r, there, _, ⟨row, banned⟩, rfl, rfl⟩
    exact ⟨⟨r, there, rfl, row⟩, banned⟩
  · rintro ⟨⟨r, there, rfl, row⟩, banned⟩
    exact ⟨r, there, t, ⟨row, banned⟩, rfl, rfl⟩

theorem length_disallowed (k : db.index.Keyed) :
    db.disallowed.length = (db.index.all.map (·.excess db.config)).sum := by
  rw [disallowed, List.length_flatMap]
  refine congrArg List.sum (List.map_congr_left fun r there => ?_)
  rw [List.length_map, Record.disallowed, ← List.countP_eq_length_filter,
    Record.countP_carried (k.nodup_tags there), Record.excess]

theorem dropDisallowed_spec (c : db.index.Consistent) :
    db.dropDisallowed.path = db.path ∧ db.dropDisallowed.config = db.config ∧
      db.dropDisallowed.index.Consistent ∧
      ∀ p t, db.dropDisallowed.index.ledger.Carries p t ↔
        db.index.ledger.Carries p t ∧ db.config.allowsTag t = true := by
  obtain ⟨path, config, index⟩ := foldl_frame (fun db row => db.drop row.1 row.2)
    (fun ix row => ix.remove row.1 row.2) (fun _ _ => ⟨rfl, rfl, rfl⟩) db db.disallowed
  refine ⟨path, config, ?_, fun p t => ?_⟩
  · rw [dropDisallowed, index]
    exact c.foldl_remove _
  · rw [dropDisallowed, index, (c.toKeyed.foldl_remove db.disallowed).2, mem_disallowed c.toKeyed]
    cases db.config.allowsTag t <;> simp

/-! ## A whole cleanup -/

theorem exists_forgotten (c : db.index.Consistent) (told : Checkable d db) :
    ∃ db', forgetMissing d (db.index.all.map (·.path)) db =
        (.ok (db.index.all.countP (!db.remains d ·.path)), db') ∧
      db'.path = db.path ∧ db'.config = db.config ∧ db'.index.Consistent ∧
      db'.index.all = db.index.all.filter (db.remains d ·.path) := by
  obtain ⟨db', forgot, path, config, c', carries⟩ :=
    exists_forgetMissing c (List.forall_mem_map.2 told)
  rw [List.countP_map] at forgot
  -- Every file that carries something is among those that are looked for.
  have kept : ∀ p t, db'.index.ledger.Carries p t ↔
      db.index.ledger.Carries p t ∧ db.remains d p = true := by
    intro p t
    rw [carries]
    refine and_congr_right fun row => imp_iff_right ?_
    rw [Ledger.carries_iff, ← Index.all_eq c.toKeyed] at row
    obtain ⟨r, there, rfl, -⟩ := row
    exact List.mem_map_of_mem there
  exact ⟨db', forgot, path, config, c',
    (c'.all_of_carries c.toKeyed kept).trans (c.filter_restrict (db.remains d))⟩

theorem all_dropDisallowed (c : db.index.Consistent) : db.dropDisallowed.index.all =
    (db.index.all.map (·.restrict db.config.allowsTag)).filter (!·.isEmpty) := by
  obtain ⟨-, -, c', carries⟩ := dropDisallowed_spec c
  exact c'.all_of_carries c.toKeyed carries

theorem disallowed_dropDisallowed (c : db.index.Consistent) :
    db.dropDisallowed.disallowed = [] := by
  obtain ⟨-, config, c', carries⟩ := dropDisallowed_spec c
  refine List.eq_nil_iff_forall_not_mem.2 fun row there => ?_
  obtain ⟨carried, banned⟩ := (mem_disallowed c'.toKeyed).1 there
  rw [config, ((carries row.1 row.2).1 carried).2] at banned
  cases banned

theorem remains_congr {db' : Database} (path : db'.path = db.path) :
    db'.remains d p = db.remains d p := by
  rw [remains, remains, absolutePath, absolutePath, root, root, path]

theorem forgetMissing_of_remains (left : ∀ p ∈ files, db.remains d p = true) :
    forgetMissing d files db = (.ok 0, db) := by
  induction files with
  | nil => rfl
  | cons file files ih =>
    have there : d.present (db.absolutePath file) = .ok true :=
      of_decide_eq_true (left file List.mem_cons_self)
    simp only [forgetMissing, there]
    exact ih fun p h => left p (List.mem_cons_of_mem file h)

/-- There is nothing to clean up when all files remain and all tags are allowed. -/
theorem cleanup_of_remains (left : ∀ r ∈ db.index.all, db.remains d r.path = true)
    (allowed : db.disallowed = []) : db.cleanup d = (.ok ⟨0, 0⟩, db) := by
  have kept : forgetMissing d (db.index.all.map (·.path)) db = (.ok 0, db) :=
    forgetMissing_of_remains (List.forall_mem_map.2 left)
  simp [cleanup, kept, dropDisallowed, allowed]

theorem checkable_of_files
    (told : ∀ row ∈ db.index.files, ∃ there, d.present (db.absolutePath row.2) = .ok there) :
    Checkable d db := by
  intro r there
  obtain ⟨row, sorted, rfl⟩ := List.mem_map.1 there
  exact told row ((List.mergeSort_perm _ _).subset sorted)

/-- **A cleanup restricts the index** to the files that remain and to the tags that are allowed,
    drops what is left without any, and counts what it takes away.  A second one changes
    nothing. -/
theorem cleanup_restricts (c : db.index.Consistent) (told : Checkable d db) :
    let left := db.index.all.filter (db.remains d ·.path)
    ∃ db', db.cleanup d = (.ok
        { files := db.index.all.countP (!db.remains d ·.path)
          tags := (left.map (·.excess db.config)).sum }, db') ∧
      db'.path = db.path ∧ db'.config = db.config ∧ db'.index.Consistent ∧
      db'.index.all = (left.map (·.restrict db.config.allowsTag)).filter (!·.isEmpty) ∧
      db'.cleanup d = (.ok ⟨0, 0⟩, db') := by
  obtain ⟨db₁, forgot, path₁, config₁, c₁, all₁⟩ := exists_forgotten c told
  obtain ⟨path₂, config₂, c₂, -⟩ := dropDisallowed_spec c₁
  have all₂ := all_dropDisallowed c₁
  have tags := length_disallowed c₁.toKeyed
  rw [all₁, config₁] at all₂ tags
  have cleaned : db.cleanup d = (.ok ⟨db.index.all.countP (!db.remains d ·.path),
      db₁.disallowed.length⟩, db₁.dropDisallowed) := by rw [cleanup, forgot]
  rw [tags] at cleaned
  refine ⟨_, cleaned, path₂.trans path₁, config₂.trans config₁, c₂, all₂,
    cleanup_of_remains (fun r there => ?_) (disallowed_dropDisallowed c₁)⟩
  rw [all₂] at there
  obtain ⟨r', there', rfl⟩ := List.mem_map.1 (List.mem_filter.1 there).1
  rw [remains_congr (path₂.trans path₁)]
  exact (List.mem_filter.1 there').2

/-- One of two files is gone, and of the other one a word and an attribute are not allowed. -/
theorem cleanup_restricts_two_files :
    let d : Disk := ⟨.dir [(⟨"b", by decide⟩, .file ⟨0⟩ .empty 0)], ⟨[], 0⟩, ⟨1⟩⟩
    let config : Config := { blacklist := some ["y", "k:"] }
    let a := Path.ofString "a"
    let b := Path.ofString "b"
    let index := (((Index.empty.add a (.bare "x")).add b (.bare "x")).add b (.bare "y")).add b
      (.pair "k" "v")
    let db : Database := ⟨Path.root.child databaseName, config, index, none, none, []⟩
    ∃ db', db.cleanup d = (.ok ⟨1, 2⟩, db') ∧ db'.index.all = [⟨b, ["x"], []⟩] ∧
      db'.cleanup d = (.ok ⟨0, 0⟩, db') := by
  intro d config a b index db
  have c : index.Consistent := Index.Consistent.empty.add.add.add.add
  have told : Checkable d db := checkable_of_files (by decide)
  have all : db.index.all = [⟨a, ["x"], []⟩, ⟨b, ["x", "y"], [("k", "v")]⟩] := by
    have files : db.index.sortedFiles = [(1, a), (2, b)] := List.mergeSort_of_pairwise (by decide)
    have tags : sortTexts ["x", "y"] = ["x", "y"] := List.mergeSort_of_pairwise (by decide)
    have tag : sortTexts ["x"] = ["x"] := List.mergeSort_singleton _
    have pairs : sortPairs [("k", "v")] = [("k", "v")] := List.mergeSort_singleton _
    have rows : db.index.all = [⟨a, sortTexts ["x"], sortPairs []⟩,
        ⟨b, sortTexts ["x", "y"], sortPairs [("k", "v")]⟩] := by rw [Index.all, files]; rfl
    rw [rows, tags, tag, pairs, show sortPairs [] = [] from List.mergeSort_nil]
  obtain ⟨db', cleaned, -, -, -, left, again⟩ := cleanup_restricts c told
  rw [all] at cleaned left
  exact ⟨db', cleaned, left, again⟩

/-! ## Files that cannot be told about -/

theorem exists_forgetMissing_error
    (untold : ∃ p ∈ files, ∃ e, d.present (db.absolutePath p) = .error e) :
    ∃ e db', forgetMissing d files db = (.error (.ofDisk e), db') := by
  induction files generalizing db with
  | nil =>
    obtain ⟨p, there, -⟩ := untold
    cases there
  | cons file files ih =>
    cases found : d.present (db.absolutePath file) with
    | error e => exact ⟨e, db, by simp [forgetMissing, found]⟩
    | ok there =>
      obtain ⟨p, among, e, failed⟩ := untold
      have later : p ∈ files := by
        rcases List.mem_cons.1 among with rfl | later
        · rw [found] at failed
          cases failed
        · exact later
      cases there with
      | true =>
        obtain ⟨e', db', stopped⟩ := @ih db ⟨p, later, e, failed⟩
        exact ⟨e', db', by simp [forgetMissing, found, stopped]⟩
      | false =>
        obtain ⟨e', db', stopped⟩ := @ih (db.forget file) ⟨p, later, e, failed⟩
        exact ⟨e', db', by simp [forgetMissing, found, stopped]⟩

/-- **A file that the disk cannot tell about** stops a cleanup. -/
theorem exists_cleanup_error (untold : ¬ Checkable d db) :
    ∃ e db', db.cleanup d = (.error (.ofDisk e), db') := by
  have failing : ∃ p ∈ db.index.all.map (·.path), ∃ e,
      d.present (db.absolutePath p) = .error e := by
    simp only [Checkable, not_forall] at untold
    obtain ⟨r, there, none⟩ := untold
    refine ⟨r.path, List.mem_map_of_mem there, ?_⟩
    cases found : d.present (db.absolutePath r.path) with
    | error e => exact ⟨e, rfl⟩
    | ok answer => exact absurd ⟨answer, found⟩ none
  obtain ⟨e, db', stopped⟩ := exists_forgetMissing_error failing
  exact ⟨e, db', by rw [cleanup, stopped]⟩

/-- A link to a name that is too long is such a file, although it leads nowhere. -/
theorem present_long_link {long : Name} (ne : long ≠ Name.up) (above : nameLimit < long.byteSize) :
    let a : Name := ⟨"a", by decide⟩
    let d : Disk := ⟨.dir [(a, .link long.text)], ⟨[], 0⟩, ⟨0⟩⟩
    d.present (Path.root.child a) = .error .nameTooLong := by
  intro a d
  rw [Disk.present, Disk.leadsTo, Disk.stat_long_link ne above]
  rfl

/-- A cleanup that stops leaves the file in the index. -/
theorem cleanup_long_link :
    let d : Disk :=
      ⟨.dir [(⟨"a", by decide⟩, .link (String.ofList (List.replicate 300 'n')))], ⟨[], 0⟩, ⟨0⟩⟩
    let index := Index.empty.add (.ofString "a") (.bare "x")
    let db : Database := ⟨Path.root.child databaseName, {}, index, none, none, []⟩
    db.index.Consistent ∧ db.index.all = [⟨.ofString "a", ["x"], []⟩] ∧
      db.cleanup d = (.error (.ofDisk .nameTooLong), db) := by
  have isName : IsName (String.ofList (List.replicate 300 'n')).toList := by
    rw [String.toList_ofList]
    decide +kernel
  obtain ⟨long, text⟩ : ∃ long : Name, long.text = String.ofList (List.replicate 300 'n') :=
    ⟨⟨_, isName⟩, rfl⟩
  have above : nameLimit < long.byteSize := by
    rw [Name.byteSize, text, String.utf8ByteSize_ofList]
    decide +kernel
  have ne : long ≠ Name.up := fun same => by
    rw [same] at above
    exact absurd above (by decide)
  rw [← text]
  intro d index db
  have c : index.Consistent := Index.Consistent.empty.add
  have untold : d.present (db.absolutePath (.ofString "a")) = .error .nameTooLong :=
    present_long_link ne above
  have all : db.index.all = [⟨.ofString "a", ["x"], []⟩] := by
    have files : db.index.sortedFiles = [(1, .ofString "a")] := List.mergeSort_singleton _
    have tags : sortTexts ["x"] = ["x"] := List.mergeSort_singleton _
    have rows : db.index.all = [⟨.ofString "a", sortTexts ["x"], sortPairs []⟩] := by
      rw [Index.all, files]; rfl
    rw [rows, tags, show sortPairs [] = [] from List.mergeSort_nil]
  exact ⟨c, all, by simp [cleanup, all, forgetMissing, untold]⟩

end Database

end FileTags
