/-
  Databases that stay the ones in use.

  Which database is in use is asked more than once.  The answer is the same as long as the path of
  the database leads where it did, and, for one that has been searched for, as long as there are the
  same databases at and above the current directory.

  * `Stays` says that a database directory is where it was, `SameAbove` that a search from the
    current directory meets what it met;
  * `findDatabase_of_sameAbove`, `databaseDir_of_stays`: the database is found again;
  * `Disk.Filed.stays`, `Disk.Filed.sameAbove`: so it is where only files have come;
  * `Database.filed_load`: and opening a database makes only files.
-/
import FileTags.Proofs.Database.Locating
import FileTags.Proofs.Disk.Telling

namespace FileTags

open Disk

/-- A database directory is where it was: its path leads to the same directory, in which there is
    another database directory only if there was one. -/
structure Stays (d d' : Disk) (dir : Path) : Prop where
  leads : d'.lookup true dir = d.lookup true dir
  isDir : d'.isDir dir = .ok true
  inner : containsDatabase d' dir = containsDatabase d dir

/-- The directories at and above `p` that have a database. -/
def databasesAbove (d : Disk) (p : Path) : Set Path := {a | a.Covers p ∧ HasDatabase d a}

/-- The directories at and above `p` of which the disk refuses to tell. -/
def untoldAbove (d : Disk) (p : Path) : Set Path := {a | a.Covers p ∧ Untold d a}

/-- At and above the current directory are the same databases as before, and the disk does not
    refuse to tell of more directories there. -/
def SameAbove (d d' : Disk) : Prop :=
  ∃ p p', d.resolve .here = .ok p ∧ d'.resolve .here = .ok p' ∧
    databasesAbove d' p' = databasesAbove d p ∧ untoldAbove d' p' ⊆ untoldAbove d p

section
variable {d d' : Disk} {dir p a : Path} {n : Name}

theorem untold_iff : Untold d dir ↔ containsDatabase d dir = .error (.disk .nameTooLong) := by
  refine ⟨containsDatabase_of_untold, fun refused => ?_⟩
  by_contra told
  by_cases has : HasDatabase d dir
  · rw [containsDatabase_of_has has] at refused
    cases refused
  · rw [containsDatabase_of_not has told] at refused
    cases refused

theorem covers_root_iff : a.Covers .root ↔ a = .root := by
  refine ⟨fun covers => ?_, fun same => same ▸ .refl _⟩
  exact covers.antisymm ⟨covers.1.symm, List.prefix_nil.1 covers.2 ▸ List.nil_prefix⟩

theorem databasesAbove_root (has : HasDatabase d .root) : databasesAbove d .root = {.root} := by
  ext a
  rw [Set.mem_singleton_iff, ← covers_root_iff]
  refine and_iff_left_of_imp fun covers => ?_
  rw [covers_root_iff.1 covers]
  exact has

theorem databasesAbove_child (none : ¬ HasDatabase d (p.child n)) :
    databasesAbove d (p.child n) = databasesAbove d p := by
  ext a
  refine and_congr_left fun has => ?_
  rw [covers_child_iff]
  refine or_iff_right fun same => ?_
  exact none (same ▸ has)

/-! ## The database is found again -/

/-- **A search finds the same database.** -/
theorem findDatabase_of_sameAbove (same : SameAbove d d')
    (found : findDatabase d .here = .ok dir) : findDatabase d' .here = .ok dir := by
  obtain ⟨p, p', resolved, resolved', has, untold⟩ := same
  rcases findDatabase_cases resolved with ⟨a, stops, verdict⟩ | ⟨-, failed⟩
  · rcases verdict with ⟨here, found'⟩ | ⟨-, refused⟩
    · obtain ⟨covers', here'⟩ : a ∈ databasesAbove d' p' := has ▸ ⟨stops.covers, here⟩
      have nearest : Nearest d' p' a := by
        refine ⟨covers', here', fun b above below ne there => ?_⟩
        obtain ⟨below, there⟩ : b ∈ databasesAbove d p := has ▸ ⟨below, there⟩
        exact (stops.on b above below ne).1 there
      have told : ToldUpTo d' p' a := by
        intro b above below refuses
        obtain ⟨below, refuses⟩ := untold ⟨below, refuses⟩
        by_cases same : b = a
        · exact here.told (same ▸ refuses)
        · exact (stops.on b above below same).2 refuses
      rw [(findDatabase_of_nearest resolved' nearest).1 told, ← found, found']
    · rw [found] at refused
      cases refused
  · rw [found] at failed
    cases failed

/-- **The name of a database** means the same directory. -/
theorem databaseDir_of_stays (stays : Stays d d' dir) (named : databaseDir d p = .ok dir) :
    databaseDir d' p = .ok dir := by
  rw [databaseDir] at named ⊢
  by_cases direct : p.name? = some databaseName
  · rw [if_pos direct] at named ⊢
    exact named
  rw [if_neg direct] at named ⊢
  cases contains : containsDatabase d p with
  | error e =>
    rw [contains] at named
    cases named
  | ok inside =>
    rw [contains] at named
    cases inside with
    | true =>
      have child : p.child databaseName = dir := Except.ok.inj named
      have contains' : containsDatabase d' p = .ok true := by
        rw [containsDatabase, child, stays.isDir]
        rfl
      rw [contains']
      exact named
    | false =>
      obtain rfl : p = dir := Except.ok.inj named
      rw [stays.inner, contains]
      rfl

end

/-! ## Where only files come -/

namespace Disk.Filed

variable {d d' : Disk} {dir p : Path}

theorem containsDatabase_eq (filed : d.Filed d') (dir : Path) :
    containsDatabase d' dir = containsDatabase d dir := by
  rw [containsDatabase, containsDatabase, filed.isDir_eq]

theorem hasDatabase_iff (filed : d.Filed d') : HasDatabase d' dir ↔ HasDatabase d dir := by
  rw [FileTags.hasDatabase_iff, FileTags.hasDatabase_iff, filed.containsDatabase_eq]

theorem untold_iff (filed : d.Filed d') : Untold d' dir ↔ Untold d dir := by
  rw [FileTags.untold_iff, FileTags.untold_iff, filed.containsDatabase_eq]

theorem stays (filed : d.Filed d') (there : d.isDir dir = .ok true) : Stays d d' dir := by
  obtain ⟨node, found, -⟩ := isDir_iff.1 there
  exact ⟨lookup_within filed.within (start_congr filed.current) found,
    (filed.isDir_eq dir).trans there, filed.containsDatabase_eq dir⟩

theorem sameAbove (filed : d.Filed d') (sound : d.Sound) (resolved : d.resolve .here = .ok p) :
    SameAbove d d' := by
  refine ⟨p, p, resolved, filed.resolve_here sound resolved, ?_, ?_⟩
  · ext a
    exact and_congr_right fun _ => filed.hasDatabase_iff
  · rintro a ⟨covers, refuses⟩
    exact ⟨covers, filed.untold_iff.1 refuses⟩

end Disk.Filed

namespace Database

variable {d d' : Disk} {env : Environment} {dir : Path} {storage : Option String} {logged : Bool}
  {opened : Except Error Database} {db : Database}

/-- Opening a database makes no more than files. -/
theorem filed_load (grounded : d.Grounded)
    (ended : load d env dir storage logged = (d', opened)) : d.Filed d' := by
  rw [load] at ended
  split at ended
  · cases ended
    exact .refl
  · cases ended
    exact .refl
  rw [read] at ended
  split at ended
  · cases ended
    exact .refl
  split at ended
  next ready =>
    cases ended
    exact filed_openStorage grounded ready
  next ready =>
    have first := filed_openStorage grounded ready
    exact first.trans (filed_attach (first.grounded grounded) ended)

theorem isDir_of_load (opened : load d env dir storage logged = (d', .ok db)) :
    d.isDir dir = .ok true := by
  rw [load] at opened
  split at opened
  · cases opened
  · cases opened
  · assumption

theorem filed_save (d : Disk) (db : Database) (stamp : String) : d.Filed (db.save d stamp).1 :=
  .of_shape shape_save current_save

end Database

end FileTags
