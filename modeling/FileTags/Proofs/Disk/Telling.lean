/-
  Questions for directories where only files come.

  A walk sees a file as the end of its way.  Where files come, a path may miss in another manner
  than before, but it leads to the same directories, and the disk refuses to tell of the same paths.

  * `descend_sight` and `travel_sight`: a walk comes to the same end, or it came to no directory and
    still comes to none;
  * `Disk.Filed.isDir_eq`: whether a path leads to a directory is answered as before;
  * `Disk.Filed.resolve_here`: the current directory keeps its resolved path.
-/
import FileTags.Proofs.Disk.Sound

namespace FileTags

open Node

section
variable {s t top : Node} {loc : Location} {steps : List Step} {budget : Nat}

/-- A walk ends before it comes to a directory, and this is no secret. -/
def Arrival.Dark (top : Node) : Arrival → Prop
  | .found loc => top.face? loc = some .leaf
  | .absent _ _ => True
  | .failed e => e.isMiss = true
  | .link _ _ _ => False

/-- What the end of a walk says to the question for a directory. -/
def sight (top : Node) : Except DiskError Spot → Except DiskError Bool
  | .ok (.found loc) => .ok (decide (top.face? loc = some .dir))
  | .ok (.absent _ _) => .ok false
  | .ok (.removed _) => .ok true
  | .error e => if e.isMiss then .ok false else .error e

/-- A walk ends as before, or it came to no directory and comes to none. -/
theorem descend_sight (w : Within s t)
    (back : ∀ loc f, t.face? loc = some f → f ≠ .leaf → s.face? loc = some f)
    (loc : Location) (steps : List Step) :
    descend t true loc steps = descend s true loc steps ∨
      (descend s true loc steps).Dark s ∧ (descend t true loc steps).Dark t := by
  induction steps generalizing loc with
  | nil => exact .inl rfl
  | cons step rest ih =>
    cases step with
    | self => exact ih loc
    | up => exact ih loc.dropLast
    | down n =>
      rw [descend_down, descend_down]
      split
      · exact .inl rfl
      cases before : s.face? (loc ++ [n]) with
      | some f =>
        rw [w _ f before]
        cases f with
        | dir => exact ih (loc ++ [n])
        | link target => exact .inl rfl
        | leaf => exact .inl rfl
      | none =>
        cases now : t.face? (loc ++ [n]) with
        | none => exact .inl rfl
        | some f =>
          -- What has come is a file: the walk missed it before, and now it ends there.
          obtain rfl : f = .leaf := by
            by_contra other
            rw [back _ f now other] at before
            cases before
          right
          cases rest with
          | nil => exact ⟨trivial, now⟩
          | cons step rest => exact ⟨rfl, rfl⟩

theorem sight_of_dark (dark : (descend top true loc steps).Dark top) :
    sight top (travel top true budget loc steps) = .ok false := by
  cases came : descend top true loc steps with
  | found l =>
    rw [came] at dark
    have leaf : top.face? l = some .leaf := dark
    rw [travel_of_found came, sight, leaf]
    rfl
  | absent dir n =>
    rw [travel_of_absent came]
    rfl
  | failed e =>
    rw [came] at dark
    rw [travel_of_failed came]
    exact if_pos dark
  | link dir target rest =>
    rw [came] at dark
    exact dark.elim

/-- A walk that does not stop at a link says the same of directories. -/
theorem sight_of_ends (w : Within s t)
    (back : ∀ loc f, t.face? loc = some f → f ≠ .leaf → s.face? loc = some f)
    (ends : ∀ dir target rest, descend s true loc steps ≠ .link dir target rest) :
    sight t (travel t true budget loc steps) = sight s (travel s true budget loc steps) := by
  rcases descend_sight w back loc steps with same | ⟨dark, dark'⟩
  · cases came : descend s true loc steps with
    | found l =>
      rw [travel_of_found came, travel_of_found (same.trans came)]
      have faces : t.face? l = some .dir ↔ s.face? l = some .dir :=
        ⟨fun dir => back l .dir dir nofun, w l .dir⟩
      exact congrArg Except.ok (decide_eq_decide.2 faces)
    | absent dir n =>
      rw [travel_of_absent came, travel_of_absent (same.trans came)]
      rfl
    | failed e =>
      rw [travel_of_failed came, travel_of_failed (same.trans came)]
      rfl
    | link dir target rest => exact absurd came (ends dir target rest)
  · rw [sight_of_dark dark, sight_of_dark dark']

/-- **A walk says the same of directories.** -/
theorem travel_sight (w : Within s t)
    (back : ∀ loc f, t.face? loc = some f → f ≠ .leaf → s.face? loc = some f)
    (budget : Nat) (loc : Location) (steps : List Step) :
    sight t (travel t true budget loc steps) = sight s (travel s true budget loc steps) := by
  induction budget generalizing loc steps with
  | zero =>
    by_cases link : ∃ dir target rest, descend s true loc steps = .link dir target rest
    · obtain ⟨dir, target, rest, came⟩ := link
      have hits : (descend s true loc steps).Hits := by
        rw [came]
        trivial
      have same := descend_within w hits
      rw [travel, travel, same, came]
      rfl
    · exact sight_of_ends w back fun dir target rest came => link ⟨dir, target, rest, came⟩
  | succ budget ih =>
    by_cases link : ∃ dir target rest, descend s true loc steps = .link dir target rest
    · -- Both walks go on from the same place.
      obtain ⟨dir, target, rest, came⟩ := link
      have hits : (descend s true loc steps).Hits := by
        rw [came]
        trivial
      have same := descend_within w hits
      rw [travel_of_link came, travel_of_link (same.trans came)]
      exact ih _ _
    · exact sight_of_ends w back fun dir target rest came => link ⟨dir, target, rest, came⟩

end

namespace Disk

variable {d d' : Disk} {p : Path}

theorem isDir_eq_sight (d : Disk) (p : Path) : d.isDir p = sight d.top (d.lookup true p) := by
  rw [isDir, leadsTo, stat, Disk.node]
  cases d.lookup true p with
  | error e => rfl
  | ok spot =>
    cases spot with
    | absent dir n => rfl
    | removed w => rfl
    | found loc =>
      rcases Option.eq_none_or_eq_some (d.top.at? loc) with at_ | ⟨node, at_⟩
      · simp only [sight, face?, at_]
        rfl
      · simp only [sight, face?, at_]
        cases node <;> rfl

/-- **Where only files come**, a path leads to a directory if it did, and is refused if it was. -/
theorem Filed.isDir_eq (filed : d.Filed d') (p : Path) : d'.isDir p = d.isDir p := by
  rw [isDir_eq_sight, isDir_eq_sight, lookup, lookup, start_congr filed.current]
  by_cases null : p.hasNull = true
  · rw [if_pos null, if_pos null]
    rfl
  by_cases long : pathLimit < p.toString.utf8ByteSize
  · rw [if_neg null, if_pos long, if_neg null, if_pos long]
    rfl
  rw [if_neg null, if_neg long, if_neg null, if_neg long]
  dsimp only
  split
  · rfl
  · exact travel_sight filed.within filed.back _ _ _
  · rfl

/-- The resolved path of the current directory. -/
theorem resolve_here (placed : d.Placed) :
    d.resolve .here = .ok (.ofLocation d.current.base) := by
  have leads : d.Leads (.ofLocation d.current.base) d.current.base :=
    leads_ofLocation placed.top placed.plain placed.there Face.dir_ne_link
  exact resolve_of_done (p := .here) rfl (Leads.here placed).absolute leads

theorem Filed.resolve_here (filed : d.Filed d') (sound : d.Sound)
    (resolved : d.resolve .here = .ok p) : d'.resolve .here = .ok p := by
  have present : d.current.removed = 0 := by
    by_contra removed
    have nowhere : d.absolute .here = .error .notFound := absolute_of_removed removed rfl
    have failed : d.resolve .here = .error (.disk .notFound) := by
      rw [resolve, show d.trail _ .here = .done .here from rfl]
      simp only [nowhere]
    rw [failed] at resolved
    cases resolved
  have placed := sound.placed present
  have placed' : d'.Placed := ⟨filed.current ▸ placed.removed,
    by rw [filed.current]; exact filed.within _ _ placed.there, filed.current ▸ placed.plain⟩
  rw [Disk.resolve_here placed] at resolved
  rw [Disk.resolve_here placed', filed.current]
  exact resolved

end Disk

end FileTags
