/-
  Disks that grow.

  Making something, and writing files, takes nothing away: each path that leads somewhere leads
  there afterwards.

  * `Disk.lookup_follow`: if a path leads somewhere, so it does with its last link unresolved;
  * `Disk.Grown` says that a disk has all that another one has, in the same current directory;
    each of `make`, `makeDirs`, `update` and `alter` makes a disk grow;
  * `Disk.lookup_come`, `Disk.stat_put`: what is put where a path misses is what the path leads to;
  * `Disk.isDir_of_makeDirs`, `Disk.stat_update`: what has been made is there;
  * `Disk.makeDirs_of_isDir`: a directory that is there is left alone.
-/
import FileTags.Proofs.Disk.Resolving

namespace FileTags

open Node

/-! ## Links at the end -/

section
variable {s t top : Node} {follow : Bool} {loc l dir : Location} {steps : List Step} {n : Name}
  {budget : Nat} {f : Face}

/-- A walk that does not follow a link at its end goes as one that does, or ends there. -/
theorem descend_follow (top : Node) (loc : Location) (steps : List Step) :
    descend top false loc steps = descend top true loc steps ∨
    ∃ l, descend top false loc steps = .found l := by
  induction steps generalizing loc with
  | nil => exact .inl rfl
  | cons step rest ih =>
    cases step with
    | self => exact ih loc
    | up => exact ih loc.dropLast
    | down n =>
      rw [descend_down, descend_down]
      split
      · exact .inl rfl
      · cases top.face? (loc ++ [n]) with
        | none => exact .inl rfl
        | some f =>
          cases f with
          | dir => exact ih (loc ++ [n])
          | link target =>
            cases rest with
            | nil => exact .inr ⟨loc ++ [n], rfl⟩
            | cons step rest => exact .inl rfl
          | leaf => exact .inl rfl

theorem travel_follow (top : Node) (budget : Nat) (loc : Location) (steps : List Step) :
    travel top false budget loc steps = travel top true budget loc steps ∨
    ∃ l, travel top false budget loc steps = .ok (.found l) := by
  induction budget generalizing loc steps with
  | zero =>
    rcases descend_follow top loc steps with same | ⟨l, came⟩
    · left
      rw [travel, travel, same]
    · exact .inr ⟨l, travel_of_found came⟩
  | succ budget ih =>
    rcases descend_follow top loc steps with same | ⟨l, came⟩
    · cases came : descend top true loc steps with
      | found l => exact .inr ⟨l, travel_of_found (same.trans came)⟩
      | absent dir n =>
        exact .inl ((travel_of_absent (same.trans came)).trans (travel_of_absent came).symm)
      | failed e =>
        exact .inl ((travel_of_failed (same.trans came)).trans (travel_of_failed came).symm)
      | link dir target rest =>
        rw [travel_of_link (same.trans came), travel_of_link came]
        exact ih _ _
    · exact .inr ⟨l, travel_of_found came⟩

/-! ## Walks from a directory -/

theorem face?_up (there : top.face? loc = some .dir) : top.face? loc.dropLast = some .dir := by
  by_cases empty : loc = []
  · subst empty
    exact there
  · exact Disk.face?_dropLast there empty

theorem face?_top (there : top.face? loc = some .dir) : top.face? [] = some .dir := by
  by_cases empty : loc = []
  · rwa [empty] at there
  · rw [face?_nil, Disk.face_of_face? there empty]

/-- A walk has stopped in a directory, if it stands before a link or misses its last step. -/
def Arrival.Stands (top : Node) : Arrival → Prop
  | .absent dir n => top.face? dir = some .dir ∧ top.face? (dir ++ [n]) = none
  | .link dir _ _ => top.face? dir = some .dir
  | _ => True

/-- A walk from a directory stops in a directory. -/
theorem descend_stands (there : top.face? loc = some .dir) :
    (descend top follow loc steps).Stands top := by
  induction steps generalizing loc with
  | nil => trivial
  | cons step rest ih =>
    cases step with
    | self => exact ih there
    | up => exact ih (face?_up there)
    | down m =>
      rw [descend_down]
      split
      · trivial
      · cases face : top.face? (loc ++ [m]) with
        | none =>
          cases rest with
          | nil => exact ⟨there, face⟩
          | cons step rest => trivial
        | some f =>
          cases f with
          | dir => exact ih face
          | link target =>
            dsimp only
            split
            · trivial
            · exact there
          | leaf => cases rest <;> trivial

/-- A walk that misses its last step finds what has come there since. -/
theorem descend_come (w : Within s t) (there : t.face? (dir ++ [n]) = some f)
    (plain : ∀ target, f ≠ .link target)
    (missed : descend s follow loc steps = .absent dir n) :
    descend t follow loc steps = .found (dir ++ [n]) := by
  induction steps generalizing loc with
  | nil => cases missed
  | cons step rest ih =>
    cases step with
    | self => exact ih missed
    | up => exact ih missed
    | down m =>
      rw [descend_down] at missed ⊢
      split at missed
      · cases missed
      · next short =>
        rw [if_neg short]
        cases face : s.face? (loc ++ [m]) with
        | none =>
          rw [face] at missed
          cases rest with
          | nil =>
            cases missed
            rw [there]
            cases f with
            | dir => rfl
            | link target => exact absurd rfl (plain target)
            | leaf => rfl
          | cons step rest => cases missed
        | some g =>
          rw [face] at missed
          rw [w _ g face]
          cases g with
          | dir => exact ih missed
          | link target =>
            dsimp only at missed
            split at missed <;> cases missed
          | leaf => cases rest <;> cases missed

theorem travel_absent_cases (missed : travel top follow budget loc steps = .ok (.absent dir n)) :
    descend top follow loc steps = .absent dir n ∨
    ∃ left dir' target rest, budget = left + 1 ∧
      descend top follow loc steps = .link dir' target rest ∧
      travel top follow left (if linkIsAbsolute target then [] else dir')
        (linkSteps target ++ rest) = .ok (.absent dir n) := by
  cases came : descend top follow loc steps with
  | found l => rw [travel_of_found came] at missed; cases missed
  | absent dir' m =>
    rw [travel_of_absent came] at missed
    cases missed
    exact .inl rfl
  | failed e => rw [travel_of_failed came] at missed; cases missed
  | link dir' target rest =>
    cases budget with
    | zero => rw [travel, came] at missed; cases missed
    | succ left =>
      rw [travel_of_link came] at missed
      exact .inr ⟨left, dir', target, rest, rfl, rfl, missed⟩

theorem travel_absent (there : top.face? loc = some .dir)
    (missed : travel top follow budget loc steps = .ok (.absent dir n)) :
    top.face? dir = some .dir ∧ top.face? (dir ++ [n]) = none := by
  have stands : (descend top follow loc steps).Stands top := descend_stands there
  induction budget generalizing loc steps with
  | zero =>
    rcases travel_absent_cases missed with came | ⟨left, dir', target, rest, none, -⟩
    · rwa [came] at stands
    · cases none
  | succ budget ih =>
    rcases travel_absent_cases missed with came | ⟨left, dir', target, rest, same, came, on⟩
    · rwa [came] at stands
    · cases same
      rw [came] at stands
      -- The walk goes on from a directory again, be it the top or the one with the link.
      have next : top.face? (if linkIsAbsolute target then [] else dir') = some .dir := by
        split
        · exact face?_top there
        · exact stands
      exact ih next on (descend_stands next)

/-- **A walk that misses its last step** finds what has come there since. -/
theorem travel_come (w : Within s t) (there : t.face? (dir ++ [n]) = some f)
    (plain : ∀ target, f ≠ .link target)
    (missed : travel s follow budget loc steps = .ok (.absent dir n)) :
    travel t follow budget loc steps = .ok (.found (dir ++ [n])) := by
  induction budget generalizing loc steps with
  | zero =>
    rcases travel_absent_cases missed with came | ⟨left, dir', target, rest, none, -⟩
    · exact travel_of_found (descend_come w there plain came)
    · cases none
  | succ budget ih =>
    rcases travel_absent_cases missed with came | ⟨left, dir', target, rest, same, came, on⟩
    · exact travel_of_found (descend_come w there plain came)
    · cases same
      rw [travel_of_link ((descend_within w (came ▸ trivial)).trans came)]
      exact ih on

end

/-! ## Trees with a node put -/

namespace Node

variable {top new : Node} {loc : Location} {n : Name}

/-- A tree has all its faces where something comes to a place that was free, or a leaf comes in the
    place of a leaf. -/
theorem within_put (dir : top.face? loc = some .dir)
    (same : ∀ f, top.face? (loc ++ [n]) = some f → f = .leaf ∧ new.face = .leaf) :
    Within top (put new (loc ++ [n]) top) := by
  obtain ⟨node, at_, face⟩ := Option.map_eq_some_iff.1 dir
  obtain ⟨es, rfl⟩ := face_eq_dir.1 face
  intro l f there
  rw [face?_put at_]
  split
  · next below =>
    obtain ⟨rest, rfl⟩ := below
    rw [List.drop_left]
    cases rest with
    | nil =>
      rw [List.append_nil] at there
      obtain ⟨rfl, leaf⟩ := same f there
      rw [face?_nil, leaf]
    | cons m rest =>
      obtain ⟨sub, found, -⟩ := Option.map_eq_some_iff.1 there
      obtain ⟨fs, above⟩ := dir_above (List.prefix_append (loc ++ [n]) (m :: rest)) (by simp)
        (Option.isSome_of_eq_some found)
      have leaf := (same _ (face?_of_at? above)).1
      cases leaf
  · exact there

/-- There is nothing below a file. -/
theorem face?_below_leaf (leaf : top.face = .leaf) : top.face? (n :: loc) = none := by
  rw [face?_cons]
  cases top with
  | dir es => cases leaf
  | link target => cases leaf
  | _ => rfl

/-- What is put in a directory is there. -/
theorem at?_put (dir : top.face? loc = some .dir) :
    (put new (loc ++ [n]) top).at? (loc ++ [n]) = some new := by
  obtain ⟨node, at_, face⟩ := Option.map_eq_some_iff.1 dir
  obtain ⟨es, rfl⟩ := face_eq_dir.1 face
  exact at?_put_self at_

end Node

namespace Disk

variable {d d' : Disk} {p : Path} {follow : Bool} {loc dir : Location} {node new : Node} {n : Name}
  {inode : Inode} {content : Content} {mode : Nat} {change : Content → Content} {e : DiskError}

/-! ## Paths -/

theorem lookup_follow (d : Disk) (p : Path) :
    d.lookup false p = d.lookup true p ∨ ∃ l, d.lookup false p = .ok (.found l) := by
  rw [lookup, lookup]
  by_cases null : p.hasNull = true
  · rw [if_pos null, if_pos null]
    exact .inl rfl
  by_cases long : pathLimit < p.toString.utf8ByteSize
  · rw [if_neg null, if_pos long, if_neg null, if_pos long]
    exact .inl rfl
  rw [if_neg null, if_neg long, if_neg null, if_neg long]
  dsimp only
  split
  · exact .inl rfl
  · exact travel_follow _ _ _ _
  · exact .inl rfl

theorem lookup_true_of_absent (missed : d.lookup false p = .ok (.absent dir n)) :
    d.lookup true p = .ok (.absent dir n) := by
  rcases lookup_follow d p with same | ⟨l, found⟩
  · exact same.symm.trans missed
  · rw [missed] at found
    cases found

/-- The current directory, or the one that it was in, is a directory. -/
def Grounded (d : Disk) : Prop := d.top.face? d.current.base = some .dir

theorem Grounded.start (grounded : d.Grounded) (p : Path) :
    d.top.face? (d.start p).base = some .dir := by
  rw [Disk.start]
  split
  · exact face?_top grounded
  · exact grounded

/-- A path that misses is walked from a directory. -/
theorem travel_of_absent_lookup (missed : d.lookup follow p = .ok (.absent dir n)) :
    ∃ steps, climb (d.start p).removed p.steps = .ok (0, steps) ∧ p.hasNull = false ∧
      p.toString.utf8ByteSize ≤ pathLimit ∧
      travel d.top follow linkLimit (d.start p).base steps = .ok (.absent dir n) := by
  obtain ⟨null, size, ⟨steps, climbed, walked⟩ | ⟨k, steps, -, same⟩⟩ := lookup_cases missed
  · exact ⟨steps, climbed, null, size, walked⟩
  · cases same

theorem Grounded.absent (grounded : d.Grounded)
    (missed : d.lookup follow p = .ok (.absent dir n)) :
    d.top.face? dir = some .dir ∧ d.top.face? (dir ++ [n]) = none := by
  obtain ⟨steps, -, -, -, walked⟩ := travel_of_absent_lookup missed
  exact travel_absent (grounded.start p) walked

/-! ## Disks with more on them -/

/-- A disk has all that another one has, in the same current directory. -/
structure Grown (d d' : Disk) : Prop where
  within : Within d.top d'.top
  current : d'.current = d.current

namespace Grown

variable {d'' : Disk}

theorem refl : d.Grown d := ⟨.refl, rfl⟩

theorem trans (first : d.Grown d') (second : d'.Grown d'') : d.Grown d'' :=
  ⟨first.within.trans second.within, second.current.trans first.current⟩

theorem grounded (grown : d.Grown d') (grounded : d.Grounded) : d'.Grounded := by
  rw [Grounded, grown.current]
  exact grown.within _ _ grounded

/-- A directory stays one. -/
theorem isDir (grown : d.Grown d') (there : d.isDir p = .ok true) : d'.isDir p = .ok true := by
  obtain ⟨node, found, face⟩ := isDir_iff.1 there
  obtain ⟨node', found', same⟩ := node_within grown.within (start_congr grown.current) found
  exact isDir_iff.2 ⟨node', found', same.trans face⟩

end Grown

/-- A disk has grown by no more than files: all directories and links were there before. -/
structure Filed (d d' : Disk) : Prop extends Grown d d' where
  back : ∀ loc f, d'.top.face? loc = some f → f ≠ .leaf → d.top.face? loc = some f

namespace Filed

variable {d'' : Disk}

theorem refl : d.Filed d := ⟨.refl, fun _ _ there _ => there⟩

theorem trans (first : d.Filed d') (second : d'.Filed d'') : d.Filed d'' :=
  ⟨first.toGrown.trans second.toGrown, fun loc f there plain =>
    first.back loc f (second.back loc f there plain) plain⟩

/-- What files hold may change. -/
theorem of_shape (shape : d'.top.shape = d.top.shape) (current : d'.current = d.current) :
    d.Filed d' :=
  ⟨⟨within_of_shape shape.symm, current⟩, fun loc f there _ => within_of_shape shape loc f there⟩

/-- A file may come into a directory. -/
theorem of_put (grown : d.Grown d') (there : d.top.face? dir = some .dir)
    (leaf : new.face = .leaf) (top : d'.top = put new (dir ++ [n]) d.top) : d.Filed d' := by
  refine ⟨grown, fun loc f now plain => ?_⟩
  obtain ⟨node, at_, face⟩ := Option.map_eq_some_iff.1 there
  obtain ⟨es, rfl⟩ := face_eq_dir.1 face
  rw [top, face?_put at_] at now
  split at now
  · -- In the place of the file is only the file.
    cases rest : loc.drop (dir ++ [n]).length with
    | nil =>
      rw [rest, face?_nil, leaf] at now
      exact absurd (Option.some.inj now).symm plain
    | cons m rest' =>
      rw [rest, face?_below_leaf leaf] at now
      cases now
  · exact now

end Filed

theorem filed_alter (inode : Inode) (change : Content → Content) :
    d.Filed (d.alter inode change) :=
  .of_shape (shape_alter inode change d.top) rfl

/-! ## What is made -/

/-- What is put where a path misses makes a disk grow. -/
theorem grown_put (grounded : d.Grounded) (missed : d.lookup follow p = .ok (.absent dir n))
    (top : d'.top = put new (dir ++ [n]) d.top) (current : d'.current = d.current) :
    d.Grown d' := by
  obtain ⟨there, free⟩ := grounded.absent missed
  refine ⟨?_, current⟩
  rw [top]
  refine within_put there fun f taken => ?_
  rw [free] at taken
  cases taken

/-- A path that misses finds what has come there since. -/
theorem lookup_come (grown : d.Grown d') {f : Face} (there : d'.top.face? (dir ++ [n]) = some f)
    (plain : ∀ target, f ≠ .link target) (missed : d.lookup follow p = .ok (.absent dir n)) :
    d'.lookup follow p = .ok (.found (dir ++ [n])) := by
  obtain ⟨steps, climbed, null, size, walked⟩ := travel_of_absent_lookup missed
  rw [lookup, if_neg (by rw [null]; exact Bool.false_ne_true), if_neg (Nat.not_lt.2 size)]
  simp only [start_congr grown.current, climbed]
  exact travel_come grown.within there plain walked

/-- **What is put where a path misses** is what the path leads to. -/
theorem stat_put (grounded : d.Grounded) (missed : d.lookup true p = .ok (.absent dir n))
    (plain : ∀ target, new.face ≠ .link target)
    (top : d'.top = put new (dir ++ [n]) d.top) (current : d'.current = d.current) :
    d'.stat p = .ok new := by
  have at_ : d'.top.at? (dir ++ [n]) = some new := by
    rw [top]
    exact at?_put (grounded.absent missed).1
  have grown := grown_put grounded missed top current
  rw [stat, Disk.node, lookup_come grown (face?_of_at? at_) plain missed]
  simp only [at_]

theorem make_eq_ok_iff : d.make p new = .ok d' ↔
    ∃ dir n, d.lookup false p = .ok (.absent dir n) ∧ d' = d.place (dir ++ [n]) new := by
  rw [make]
  split
  · next failed => simp [failed]
  · next dir n missed => simp [missed, eq_comm]
  · next spot other found =>
    simp only [found, Except.ok.injEq, reduceCtorEq, false_iff]
    rintro ⟨dir, n, rfl, -⟩
    exact other dir n rfl

theorem grown_make (grounded : d.Grounded) (made : d.make p new = .ok d') : d.Grown d' := by
  obtain ⟨dir, n, missed, rfl⟩ := make_eq_ok_iff.1 made
  exact grown_put grounded missed rfl rfl

theorem isDir_of_makeDir (grounded : d.Grounded) (made : d.makeDir p = .ok d') :
    d'.isDir p = .ok true := by
  obtain ⟨dir, n, missed, rfl⟩ := make_eq_ok_iff.1 made
  have plain : ∀ target, (Node.dir []).face ≠ .link target := Face.dir_ne_link
  have found : (d.place (dir ++ [n]) (.dir [])).stat p = .ok (.dir []) :=
    stat_put grounded (lookup_true_of_absent missed) plain rfl rfl
  exact isDir_iff.2 ⟨.dir [], found, rfl⟩

theorem orPresent_eq_ok_iff : d.orPresent p e = .ok () ↔ d.isDir p = .ok true := by
  rw [orPresent]
  split <;> simp_all

theorem makeDirsAt_spec {anchor : Anchor} {reversed : List Name} {result : Except DiskError Unit}
    (grounded : d.Grounded) (ended : makeDirsAt anchor reversed d = (d', result)) :
    d.Grown d' ∧ (result = .ok () → d'.isDir ⟨anchor, reversed.reverse⟩ = .ok true) := by
  induction reversed generalizing d d' result with
  | nil =>
    rw [makeDirsAt] at ended
    split at ended
    · next made =>
      cases ended
      exact ⟨grown_make grounded made, fun _ => isDir_of_makeDir grounded made⟩
    · cases ended
      exact ⟨.refl, nofun⟩
    · cases ended
      exact ⟨.refl, orPresent_eq_ok_iff.1⟩
  | cons m above ih =>
    rw [makeDirsAt] at ended
    split at ended
    · next made =>
      cases ended
      exact ⟨grown_make grounded made, fun _ => isDir_of_makeDir grounded made⟩
    · split at ended
      · next failed =>
        cases ended
        exact ⟨(ih grounded failed).1, nofun⟩
      · next d₁ done =>
        -- What is above has been made, and the disk may have grown before the second attempt.
        have first := (ih grounded done).1
        have grounded₁ := first.grounded grounded
        split at ended
        · next made =>
          cases ended
          exact ⟨first.trans (grown_make grounded₁ made), fun _ => isDir_of_makeDir grounded₁ made⟩
        · cases ended
          exact ⟨first, nofun⟩
        · cases ended
          exact ⟨first, orPresent_eq_ok_iff.1⟩
    · cases ended
      exact ⟨.refl, orPresent_eq_ok_iff.1⟩

theorem grown_makeDirs {result : Except DiskError Unit} (grounded : d.Grounded)
    (ended : d.makeDirs p = (d', result)) : d.Grown d' :=
  (makeDirsAt_spec grounded ended).1

theorem isDir_of_makeDirs (grounded : d.Grounded) (made : d.makeDirs p = (d', .ok ())) :
    d'.isDir p = .ok true := by
  have there := (makeDirsAt_spec grounded made).2 rfl
  rwa [List.reverse_reverse] at there

/-- **A directory that is there** is left alone. -/
theorem makeDirs_of_isDir (there : d.isDir p = .ok true) : d.makeDirs p = (d, .ok ()) := by
  have refused : d.makeDir p = .error .alreadyExists := by
    obtain ⟨node, found, -⟩ := isDir_iff.1 there
    have spots : (∃ loc, d.lookup false p = .ok (.found loc)) ∨
        ∃ w, d.lookup false p = .ok (.removed w) := by
      rcases lookup_follow d p with same | linked
      · rcases lookup_of_node found with ⟨loc, found, -⟩ | ⟨w, removed, -⟩
        · exact .inl ⟨loc, same.trans found⟩
        · exact .inr ⟨w, same.trans removed⟩
      · exact .inl linked
    rcases spots with ⟨loc, found⟩ | ⟨w, removed⟩
    · rw [makeDir, make, found]
    · rw [makeDir, make, removed]
  have same : (⟨p.anchor, p.names.reverse.reverse⟩ : Path) = p := by rw [List.reverse_reverse]
  rw [makeDirs, makeDirsAt.eq_def]
  dsimp only
  rw [same, refused]
  exact congrArg (Prod.mk d) (orPresent_eq_ok_iff.2 there)

/-! ## What is written -/

/-- What a change to a file does: it makes the file, it changes what the file holds under all its
    names, or it is lost in a device. -/
theorem update_cases (updated : d.update p mode change = .ok d') :
    (∃ dir n, d.lookup true p = .ok (.absent dir n) ∧
      d' = d.placeFile (dir ++ [n]) (change .empty) mode) ∨
    (∃ loc inode content mode', d.lookup true p = .ok (.found loc) ∧
      d.top.at? loc = some (.file inode content mode') ∧
      d' = if change content = content then d else d.alter inode change) ∨
    d.stat p = .ok .device ∧ d' = d := by
  rw [update] at updated
  split at updated
  · cases updated
  · next dir n missed =>
    cases updated
    exact .inl ⟨dir, n, missed, rfl⟩
  · cases updated
  · next loc found =>
    split at updated
    · next inode content mode' at_ =>
      cases updated
      exact .inr (.inl ⟨loc, inode, content, mode', found, at_, rfl⟩)
    · next at_ =>
      cases updated
      refine .inr (.inr ⟨?_, rfl⟩)
      rw [stat, Disk.node, found]
      simp only [at_]
    · cases updated
    · cases updated
    · cases updated

/-- A file that is written holds what is written, be that what it has held before or not. -/
theorem at?_written (at_ : d.top.at? loc = some (.file inode content mode)) :
    (if change content = content then d else d.alter inode change).top.at? loc =
      some (.file inode (change content) mode) := by
  split
  next same => rw [same, at_]
  next =>
    have changed : (d.alter inode change).top.at? loc = _ := at?_alter inode change d.top loc
    rw [changed, at_, Option.map_some, Node.alter, if_pos rfl]

/-- A file that is put where a path misses is all that comes. -/
theorem filed_placeFile (content : Content) (mode : Nat) (grounded : d.Grounded)
    (missed : d.lookup follow p = .ok (.absent dir n)) :
    d.Filed (d.placeFile (dir ++ [n]) content mode) :=
  .of_put (grown_put grounded missed rfl rfl) (grounded.absent missed).1 rfl rfl

theorem filed_written : d.Filed (if change content = content then d else d.alter inode change) := by
  split
  next => exact .refl
  next => exact filed_alter inode change

theorem filed_update (grounded : d.Grounded) (updated : d.update p mode change = .ok d') :
    d.Filed d' := by
  rcases update_cases updated with
    ⟨dir, n, missed, rfl⟩ | ⟨loc, inode, content, mode', -, -, rfl⟩ | ⟨-, rfl⟩
  · exact filed_placeFile _ _ grounded missed
  · exact filed_written
  · exact .refl

/-- **A change that is not lost** is in the file afterwards. -/
theorem stat_update (grounded : d.Grounded) (updated : d.update p mode change = .ok d')
    (kept : d'.stat p ≠ .ok .device) :
    ∃ inode content mode', d'.stat p = .ok (.file inode (change content) mode') := by
  have grown := filed_update grounded updated
  rcases update_cases updated with
    ⟨dir, n, missed, rfl⟩ | ⟨loc, inode, content, mode', found, at_, rfl⟩ | ⟨lost, rfl⟩
  · exact ⟨d.nextInode, .empty, mode, stat_put grounded missed nofun rfl rfl⟩
  · refine ⟨inode, content, mode', ?_⟩
    have node : d.node true p = .ok (.file inode content mode') := by
      rw [Disk.node, found]
      simp only [at_]
    have still := lookup_within grown.within (start_congr grown.current) node
    rw [stat, Disk.node, still, found]
    simp only [at?_written at_]
  · exact absurd lost kept

/-- What a file holds already can be written again. -/
theorem setContent_self (there : d.stat p = .ok (.file inode content mode)) :
    d.setContent p content = .ok d := by
  rcases lookup_of_node there with ⟨loc, found, at_⟩ | ⟨w, -, dir⟩
  · rw [setContent, update, found]
    simp only [at_, if_true]
  · cases dir

end Disk

end FileTags
