/-
  Paths without links.

  A path is resolved name by name: a link is replaced by the resolved path it holds, seen from
  its directory, and a step up takes the last name away again.  A path that leads nowhere can be
  resolved as well, unless that is ruled out: names that are missing stay as they are.  A link
  that leads back to itself has no resolved path.

  * `Disk.resolve` resolves a path, `Disk.resolveStrict` asks that every name on it exists;
  * `Disk.resolveMissing` asks that every name on it exists or is just missing;
  * `ResolveError` says why there is no resolved path.
-/
import FileTags.Disk.Lookup

namespace FileTags

/-- Why a path cannot be resolved. -/
inductive ResolveError where
  | disk (e : DiskError)
  /-- A link leads back to itself; the path goes through it. -/
  | loop (p : Path)
deriving DecidableEq

namespace Path

/-- The path `/`. -/
def root : Path := ⟨.root, []⟩

/-- A path after a step up that takes the last name away; there is none to take away at the top,
    or after steps up from the current directory. -/
def stepUp (p : Path) : Path :=
  match p.name? with
  | none => if p.isAbsolute then p else p.child Name.up
  | some n => if n = Name.up then p.child n else p.parent

/-- A path after a step, whatever it leads to. -/
def step (p : Path) : Step → Path
  | .self => p
  | .up => p.stepUp
  | .down n => p.child n

/-- A path of a location. -/
def ofLocation (loc : Location) : Path := ⟨.root, loc⟩

end Path

/-! ## Resolving -/

/-- What is known of a path that is being resolved. -/
inductive Trail where
  | done (p : Path)
  | failed (e : DiskError)
  /-- There is a link that leads back to itself on a path. -/
  | loop (p : Path)
deriving DecidableEq

namespace Disk

/-- Resolves steps from a resolved path, past names that have one of the errors in `passes`. The
    links in `pending` are being resolved, and `inner` resolves the path that a link holds. -/
def resolveSteps (d : Disk) (passes : DiskError → Bool)
    (inner : List Path → Path → List Step → Trail) (pending : List Path) :
    Path → List Step → Trail
  | p, [] => .done p
  | p, .self :: rest => resolveSteps d passes inner pending p rest
  | p, .up :: rest => resolveSteps d passes inner pending p.stepUp rest
  | p, .down n :: rest =>
    match d.lstat (p.child n) with
    | .error e =>
      if passes e then resolveSteps d passes inner pending (p.child n) rest else .failed e
    | .ok (.link target) =>
      if p.child n ∈ pending then .loop (rest.foldl Path.step (p.child n))
      else
        match inner (p.child n :: pending) (if linkIsAbsolute target then .root else p)
          (linkSteps target) with
        | .done q => resolveSteps d passes inner pending q rest
        | .loop q => .loop (rest.foldl Path.step q)
        | .failed e => .failed e
    | .ok _ => resolveSteps d passes inner pending (p.child n) rest

/-- Resolves steps where links are nested to some depth at most. -/
def resolveWithin (d : Disk) (passes : DiskError → Bool) :
    Nat → List Path → Path → List Step → Trail
  | 0 => fun _ p _ => .loop p
  | depth + 1 => resolveSteps d passes (resolveWithin d passes depth)

/-- The depth to which links can be nested without one of them leading back to itself: no link is
    pending twice, and each has one absolute path and one for every step up from the current
    directory. -/
def nesting (d : Disk) : Nat :=
  d.top.linkCount * (d.current.base.length + d.current.removed + 2) + 1

/-- Follows a path past names that have one of the errors in `passes`. -/
def trail (d : Disk) (passes : DiskError → Bool) (p : Path) : Trail :=
  resolveWithin d passes d.nesting [] (if p.isAbsolute then .root else .here) p.steps

/-- A path seen from the top, with every step up taken at its place; there is none for a path from a
    current directory that has been removed. -/
def absolute (d : Disk) (p : Path) : Except DiskError Path :=
  match d.start p with
  | ⟨loc, 0⟩ => .ok (p.steps.foldl Path.step (.ofLocation loc))
  | ⟨_, _ + 1⟩ => .error .notFound

/-- The resolved path of a path, unless a name on it has an error that is not in `passes`. -/
def resolvePast (d : Disk) (passes : DiskError → Bool) (p : Path) : Except ResolveError Path :=
  match d.trail passes p with
  | .failed e => .error (.disk e)
  | .loop q => .error (.loop q)
  | .done q => (d.absolute q).mapError .disk

/-- The resolved path of a path all of whose names exist. -/
def resolveStrict (d : Disk) (p : Path) : Except ResolveError Path :=
  d.resolvePast (fun _ => false) p

/-- The resolved path of a path where some names may be missing. -/
def resolveMissing (d : Disk) (p : Path) : Except ResolveError Path :=
  d.resolvePast (· = .notFound) p

/-- The resolved path of a path, where names that lead nowhere stay as they are. -/
def resolve (d : Disk) (p : Path) : Except ResolveError Path :=
  let finish (q : Path) : Except ResolveError Path :=
    match d.absolute q with
    | .error e => .error (.disk e)
    | .ok r =>
      match d.stat r with
      | .error .tooManyLinks => .error (.loop r)
      | _ => .ok r
  match d.trail (· ≠ .nullCharacter) p with
  | .failed e => .error (.disk e)
  | .loop q => finish q
  | .done q => finish q

end Disk

end FileTags
