/-
  Sound disks.

  No directory of a disk holds a name twice, or a step up under a name of its own, and the current
  directory is a directory, or was in one when it was removed.  Whatever is made, written, moved or
  removed, it stays so.

  * `Node.isProper` says that the names in a tree are so, `isProper_put`, `isProper_erase` and
    `isProper_alter` that they stay so;
  * `Disk.Sound` says so of a disk, `Sound.placed` that the current directory is where its location
    says, unless it has been removed;
  * `Disk.Edit` lists what can be done to a disk, `Edit.sound` and `sound_of_edits` say that sound
    disks stay sound.
-/
import FileTags.Proofs.Disk.Growing
import FileTags.Proofs.Disk.Renaming
import Mathlib.Logic.Relation

namespace FileTags

open Node

/-! ## Proper trees -/

namespace Node

mutual

/-- Whether the entries of all directories have names of their own, none of them a step up. -/
def isProper : Node → Bool
  | dir es => decide (es.map (·.1)).Nodup && decide (Name.up ∉ es.map (·.1)) && entriesProper es
  | _ => true

/-- Whether all that is in some entries is proper. -/
def entriesProper : List (Name × Node) → Bool
  | [] => true
  | (_, node) :: es => node.isProper && entriesProper es

end

variable {node sub new : Node} {n : Name} {loc : Location} {es : List (Name × Node)}

theorem entriesProper_iff : entriesProper es = true ↔ ∀ e ∈ es, e.2.isProper = true := by
  induction es with
  | nil => simp [entriesProper]
  | cons e es ih => simp [entriesProper, ih]

theorem isProper_dir : (dir es).isProper = true ↔
    (es.map (·.1)).Nodup ∧ Name.up ∉ es.map (·.1) ∧ ∀ e ∈ es, e.2.isProper = true := by
  rw [isProper, Bool.and_eq_true, Bool.and_eq_true, decide_eq_true_iff, decide_eq_true_iff,
    entriesProper_iff, and_assoc]

theorem mem_of_lookup (found : es.lookup n = some sub) : (n, sub) ∈ es := by
  obtain ⟨before, after, rfl, -⟩ := List.lookup_eq_some_iff.1 found
  exact List.mem_append_right _ List.mem_cons_self

/-- An entry is found by its name. -/
theorem lookup_of_mem (nodup : (es.map (·.1)).Nodup) (there : (n, sub) ∈ es) :
    es.lookup n = some sub := by
  induction es with
  | nil => cases there
  | cons e es ih =>
    obtain ⟨m, node⟩ := e
    obtain ⟨other, nodup⟩ := List.nodup_cons.1 nodup
    rw [lookup_entry]
    rcases List.mem_cons.1 there with same | there
    · cases same
      rw [if_pos rfl]
    · have named : n ∈ es.map (·.1) := List.mem_map.2 ⟨(n, sub), there, rfl⟩
      rw [if_neg fun same : n = m => other (same ▸ named)]
      exact ih nodup there

/-- An entry that is found in a proper tree is proper, and its name is no step up. -/
theorem isProper_of_lookup (proper : (dir es).isProper = true) (found : es.lookup n = some sub) :
    n ≠ Name.up ∧ sub.isProper = true := by
  obtain ⟨-, plain, each⟩ := isProper_dir.1 proper
  have there := mem_of_lookup found
  exact ⟨fun same => plain (same ▸ List.mem_map_of_mem there), each _ there⟩

/-- All that is in a proper tree is proper, and below names that are no steps up. -/
theorem isProper_at? (proper : node.isProper = true) (there : node.at? loc = some sub) :
    sub.isProper = true ∧ Name.up ∉ loc := by
  induction loc generalizing node with
  | nil =>
    cases there
    exact ⟨proper, List.not_mem_nil⟩
  | cons n loc ih =>
    rw [at?] at there
    obtain ⟨next, child, below⟩ := Option.bind_eq_some_iff.1 there
    obtain ⟨es, rfl⟩ := child?_eq_some child
    obtain ⟨ne, proper⟩ := isProper_of_lookup proper child
    obtain ⟨proper, plain⟩ := ih proper below
    exact ⟨proper, fun up => (List.mem_cons.1 up).elim ne.symm plain⟩

/-! ## Changes to proper trees -/

theorem names_setEntry : (setEntry n new es).map (·.1) =
    if n ∈ es.map (·.1) then es.map (·.1) else es.map (·.1) ++ [n] := by
  induction es with
  | nil => rfl
  | cons e es ih =>
    rw [setEntry_cons]
    by_cases same : n = e.1
    · simp [same]
    · rw [if_neg same, List.map_cons, ih, List.map_cons]
      by_cases there : n ∈ es.map (·.1) <;> simp [same, there]

theorem mem_setEntry {e : Name × Node} (there : e ∈ setEntry n new es) : e = (n, new) ∨ e ∈ es := by
  induction es with
  | nil => exact .inl (List.mem_singleton.1 there)
  | cons f es ih =>
    rw [setEntry_cons] at there
    split at there
    · exact (List.mem_cons.1 there).imp_right (List.mem_cons_of_mem f)
    · rcases List.mem_cons.1 there with rfl | there
      · exact .inr List.mem_cons_self
      · exact (ih there).imp_right (List.mem_cons_of_mem f)

theorem isProper_setEntry (proper : (dir es).isProper = true) (ne : n ≠ Name.up)
    (proper' : new.isProper = true) : (dir (setEntry n new es)).isProper = true := by
  obtain ⟨nodup, plain, each⟩ := isProper_dir.1 proper
  refine isProper_dir.2 ⟨?_, ?_, fun e there => ?_⟩
  · rw [names_setEntry]
    split
    · exact nodup
    · next fresh =>
      refine List.nodup_append.2 ⟨nodup, by simp, fun m there k last same => ?_⟩
      exact fresh (List.mem_singleton.1 last ▸ same ▸ there)
  · rw [names_setEntry]
    split
    · exact plain
    · simp [plain, ne.symm]
  · rcases mem_setEntry there with rfl | there
    · exact proper'
    · exact each e there

theorem isProper_dropEntry (proper : (dir es).isProper = true) :
    (dir (dropEntry n es)).isProper = true := by
  obtain ⟨nodup, plain, each⟩ := isProper_dir.1 proper
  have part : (dropEntry n es).Sublist es := List.filter_sublist
  exact isProper_dir.2 ⟨nodup.sublist (part.map _), fun there => plain ((part.map _).subset there),
    fun e there => each e (part.subset there)⟩

/-- A proper tree stays proper when something proper is put in it. -/
theorem isProper_put (proper : node.isProper = true) (proper' : new.isProper = true)
    (plain : Name.up ∉ loc) : (put new loc node).isProper = true := by
  induction loc generalizing node with
  | nil =>
    rw [put]
    exact proper'
  | cons n loc ih =>
    rw [List.mem_cons, not_or] at plain
    obtain ⟨ne, plain⟩ := plain
    have ne : n ≠ Name.up := Ne.symm ne
    cases node with
    | dir es =>
      rw [put]
      cases found : es.lookup n with
      | some sub =>
        exact isProper_setEntry proper ne (ih (isProper_of_lookup proper found).2 plain)
      | none =>
        dsimp only
        split
        · exact isProper_setEntry proper ne proper'
        · exact proper
    | _ => exact proper

/-- A proper tree stays proper when something is taken out of it. -/
theorem isProper_erase (proper : node.isProper = true) : (erase loc node).isProper = true := by
  induction loc generalizing node with
  | nil =>
    rw [erase_nil]
    exact proper
  | cons n loc ih =>
    cases node with
    | dir es =>
      by_cases last : loc = []
      · subst last
        exact isProper_dropEntry proper
      · cases found : es.lookup n with
        | some sub =>
          obtain ⟨ne, inner⟩ := isProper_of_lookup proper found
          rw [erase_of_lookup last found]
          exact isProper_setEntry proper ne (ih inner)
        | none =>
          rw [erase_of_lookup_none last found]
          exact proper
    | _ =>
      rw [erase_leaf rfl]
      exact proper

theorem names_alterEntries {inode : Inode} {change : Content → Content} :
    (alterEntries inode change es).map (·.1) = es.map (·.1) := by
  induction es with
  | nil => rfl
  | cons e es ih => exact congrArg (e.1 :: ·) ih

mutual

/-- What files hold does not matter. -/
theorem isProper_alter (inode : Inode) (change : Content → Content) :
    ∀ node : Node, (node.alter inode change).isProper = node.isProper
  | file _ _ _ => rfl
  | device => rfl
  | link _ => rfl
  | dir es => by
    rw [alter, isProper, isProper, names_alterEntries, entriesProper_alter inode change es]

theorem entriesProper_alter (inode : Inode) (change : Content → Content) :
    ∀ es, entriesProper (alterEntries inode change es) = entriesProper es
  | [] => rfl
  | (_, node) :: es =>
    congrArg₂ (· && ·) (isProper_alter inode change node) (entriesProper_alter inode change es)

end

end Node

/-! ## Where walks come to -/

section
variable {top : Node} {follow : Bool} {budget : Nat} {loc l dir : Location} {n : Name}
  {steps : List Step}

/-- What a walk has yet to do goes by no step up under a name of its own. -/
def Arrival.Proper : Arrival → Prop
  | .absent _ n => n ≠ Name.up
  | .link _ _ rest => ProperSteps rest
  | _ => True

theorem descend_proper (proper : ProperSteps steps) :
    (descend top follow loc steps).Proper := by
  induction steps generalizing loc with
  | nil => trivial
  | cons step rest ih =>
    cases step with
    | self => exact ih proper.tail
    | up => exact ih proper.tail
    | down m =>
      rw [descend_down]
      split
      · trivial
      · cases top.face? (loc ++ [m]) with
        | none =>
          cases rest with
          | nil => exact proper m List.mem_cons_self
          | cons step rest => trivial
        | some f =>
          cases f with
          | dir => exact ih proper.tail
          | link target =>
            dsimp only
            split
            · trivial
            · exact proper.tail
          | leaf => cases rest <;> trivial

theorem travel_absent_ne (proper : ProperSteps steps)
    (missed : travel top follow budget loc steps = .ok (.absent dir n)) : n ≠ Name.up := by
  have told : (descend top follow loc steps).Proper := descend_proper proper
  induction budget generalizing loc steps with
  | zero =>
    rcases travel_absent_cases missed with came | ⟨left, dir', target, rest, none, -⟩
    · rwa [came] at told
    · cases none
  | succ budget ih =>
    rcases travel_absent_cases missed with came | ⟨left, dir', target, rest, same, came, on⟩
    · rwa [came] at told
    · cases same
      rw [came] at told
      have next : ProperSteps (linkSteps target ++ rest) := fun n there =>
        (List.mem_append.1 there).elim (properSteps_link target n) (told n)
      exact ih next on (descend_proper next)

/-- What a walk from a directory finds is there. -/
theorem descend_there (there : top.face? loc = some .dir)
    (came : descend top follow loc steps = .found l) : ∃ f, top.face? l = some f := by
  induction steps generalizing loc with
  | nil =>
    cases came
    exact ⟨_, there⟩
  | cons step rest ih =>
    cases step with
    | self => exact ih there came
    | up => exact ih (face?_up there) came
    | down m =>
      rw [descend_down] at came
      split at came
      · cases came
      · cases face : top.face? (loc ++ [m]) with
        | none =>
          rw [face] at came
          cases rest <;> cases came
        | some f =>
          rw [face] at came
          cases f with
          | dir => exact ih face came
          | link target =>
            dsimp only at came
            split at came
            · cases came
              exact ⟨_, face⟩
            · cases came
          | leaf =>
            cases rest with
            | nil =>
              cases came
              exact ⟨_, face⟩
            | cons step rest => cases came

theorem travel_there (there : top.face? loc = some .dir)
    (found : travel top follow budget loc steps = .ok (.found l)) : ∃ f, top.face? l = some f := by
  have stands : (descend top follow loc steps).Stands top := descend_stands there
  induction budget generalizing loc steps with
  | zero =>
    rcases travel_found_cases found with came | ⟨left, dir', target, rest, none, -⟩
    · exact descend_there there came
    · cases none
  | succ budget ih =>
    rcases travel_found_cases found with came | ⟨left, dir', target, rest, same, came, on⟩
    · exact descend_there there came
    · cases same
      rw [came] at stands
      have next : top.face? (if linkIsAbsolute target then [] else dir') = some .dir := by
        split
        · exact face?_top there
        · exact stands
      exact ih next on (descend_stands next)

theorem climb_proper {removed left : Nat} {rest : List Step} (proper : ProperSteps steps)
    (climbed : climb removed steps = .ok (left, rest)) : ProperSteps rest := by
  induction steps generalizing removed with
  | nil => cases removed <;> cases climbed <;> exact proper
  | cons step steps ih =>
    cases removed with
    | zero =>
      cases climbed
      exact proper
    | succ removed =>
      cases step with
      | self => exact ih proper.tail climbed
      | up => exact ih proper.tail climbed
      | down n => cases climbed

end

/-! ## Sound disks -/

namespace Node

variable {top new : Node} {loc l : Location} {f : Face}

/-- Putting a node where something is leaves the faces elsewhere. -/
theorem face?_put_there (there : top.face? loc = some f) : (put new loc top).face? l =
    if loc <+: l then new.face? (l.drop loc.length) else top.face? l := by
  rcases List.eq_nil_or_concat' loc with rfl | ⟨dir, n, rfl⟩
  · rw [put, if_pos List.nil_prefix, List.length_nil, List.drop_zero]
  · obtain ⟨node, at_, face⟩ := Option.map_eq_some_iff.1 (face?_of_concat there)
    obtain ⟨es, rfl⟩ := face_eq_dir.1 face
    exact face?_put at_

end Node

namespace Whereabouts

variable {w : Whereabouts} {loc : Location}

theorem base_emptied : (w.emptied loc).base = if loc <+: w.base then loc else w.base := by
  simp only [emptied, List.isPrefixOf_iff_prefix]
  split <;> rfl

theorem base_without : (w.without loc).base =
    if loc <+: w.base then loc.dropLast else w.base := by
  simp only [without, List.isPrefixOf_iff_prefix]
  split
  · next below => rw [base_emptied, if_pos ((List.dropLast_prefix loc).trans below)]
  · rfl

end Whereabouts

theorem relocate_below {old new rest : Location} :
    relocate old new (old ++ rest) = new ++ rest := by
  rw [relocate, if_pos (List.isPrefixOf_iff_prefix.2 (List.prefix_append old rest)),
    List.drop_left]

theorem relocate_away {old new loc : Location} (away : ¬ old <+: loc) :
    relocate old new loc = loc := by
  rw [relocate, if_neg fun below => away (List.isPrefixOf_iff_prefix.1 below)]

namespace Disk

variable {d d' : Disk} {p q : Path} {follow : Bool} {loc dir src tgt : Location} {n : Name}
  {node new : Node} {mode : Nat} {change : Content → Content} {inode : Inode}

/-- No directory holds a name twice, or a step up under a name of its own, and the current directory
    is a directory, or was in one when it was removed. -/
structure Sound (d : Disk) : Prop where
  proper : d.top.isProper = true
  grounded : d.Grounded

/-- What a path misses has a name of its own. -/
theorem lookup_absent_ne (missed : d.lookup follow p = .ok (.absent dir n)) : n ≠ Name.up := by
  obtain ⟨steps, climbed, -, -, walked⟩ := travel_of_absent_lookup missed
  exact travel_absent_ne (climb_proper (properSteps_path p) climbed) walked

theorem not_prefix_dropLast {l : Location} (ne : l ≠ []) : ¬ l <+: l.dropLast := by
  intro below
  have le := below.length_le
  rw [List.length_dropLast] at le
  have pos := List.length_pos_of_ne_nil ne
  omega

namespace Sound

theorem top (sound : d.Sound) : d.top.face = .dir :=
  Option.some.inj (face?_top sound.grounded)

theorem plain {f : Face} (sound : d.Sound) (there : d.top.face? loc = some f) :
    Name.up ∉ loc := by
  obtain ⟨node, at_, -⟩ := Option.map_eq_some_iff.1 there
  exact (isProper_at? sound.proper at_).2

/-- The current directory is where its location says, unless it has been removed. -/
theorem placed (sound : d.Sound) (present : d.current.removed = 0) : d.Placed :=
  ⟨present, sound.grounded, sound.plain sound.grounded⟩

/-- What a path finds is there. -/
theorem found (sound : d.Sound) (found : d.lookup follow p = .ok (.found loc)) :
    ∃ f, d.top.face? loc = some f := by
  obtain ⟨-, -, ⟨steps, -, walked⟩ | ⟨k, steps, -, same⟩⟩ := lookup_cases found
  · exact travel_there (sound.grounded.start p) walked
  · cases same

/-- A directory that has been removed was in a directory. -/
theorem removed {w : Whereabouts} (sound : d.Sound)
    (looked : d.lookup follow p = .ok (.removed w)) : d.top.face? w.base = some .dir := by
  obtain ⟨-, -, ⟨steps, -, walked⟩ | ⟨k, steps, -, same⟩⟩ := lookup_cases looked
  · exact absurd walked travel_ne_removed
  · cases same
    exact sound.grounded.start p

/-- **What is put where a path misses** keeps a disk sound. -/
theorem place (sound : d.Sound) (missed : d.lookup follow p = .ok (.absent dir n))
    (proper : new.isProper = true) (top : d'.top = put new (dir ++ [n]) d.top)
    (current : d'.current = d.current) : d'.Sound := by
  have plain := sound.plain (sound.grounded.absent missed).1
  refine ⟨?_, (grown_put sound.grounded missed top current).grounded sound.grounded⟩
  rw [top]
  refine isProper_put sound.proper proper fun up => ?_
  rcases List.mem_append.1 up with above | last
  · exact plain above
  · exact lookup_absent_ne missed (List.mem_singleton.1 last).symm

theorem make (sound : d.Sound) (proper : new.isProper = true) (made : d.make p new = .ok d') :
    d'.Sound := by
  obtain ⟨dir, n, missed, rfl⟩ := make_eq_ok_iff.1 made
  exact sound.place missed proper rfl rfl

theorem makeDirsAt {anchor : Anchor} {reversed : List Name} (sound : d.Sound) :
    (makeDirsAt anchor reversed d).1.Sound := by
  induction reversed generalizing d with
  | nil =>
    rw [Disk.makeDirsAt]
    split
    · next made => exact sound.make rfl made
    · exact sound
    · exact sound
  | cons m above ih =>
    rw [Disk.makeDirsAt]
    split
    · next made => exact sound.make rfl made
    · have first := ih sound
      split
      · next ended => exact ended ▸ first
      · next ended =>
        rw [ended] at first
        split
        · next made => exact first.make rfl made
        · exact first
        · exact first
    · exact sound

theorem alter (sound : d.Sound) (inode : Inode) (change : Content → Content) :
    (d.alter inode change).Sound :=
  ⟨(isProper_alter inode change d.top).trans sound.proper,
    (filed_alter inode change).grounded sound.grounded⟩

theorem update (sound : d.Sound) (updated : d.update p mode change = .ok d') : d'.Sound := by
  rcases update_cases updated with
    ⟨dir, n, missed, rfl⟩ | ⟨loc, inode, content, mode', -, -, rfl⟩ | ⟨-, rfl⟩
  · exact sound.place missed rfl rfl rfl
  · split
    · exact sound
    · exact sound.alter inode change
  · exact sound

theorem remove (sound : d.Sound) : (d.remove p).1.Sound := by
  rw [Disk.remove, locate]
  cases looked : d.lookup false p with
  | error e => exact sound
  | ok spot =>
    cases spot with
    | absent dir n => exact sound
    | removed w => exact sound
    | found loc =>
      obtain ⟨f, there⟩ := sound.found looked
      dsimp only
      split
      · refine ⟨isProper_put sound.proper rfl (sound.plain there), ?_⟩
        rw [Grounded, Whereabouts.base_emptied]
        refine (face?_put_there there).trans ?_
        split
        · rw [if_pos List.prefix_rfl, List.drop_length]
          rfl
        · exact sound.grounded
      · refine ⟨isProper_erase sound.proper, ?_⟩
        rw [Grounded, Whereabouts.base_without]
        by_cases whole : loc = []
        · subst whole
          rw [erase_nil, if_pos List.nil_prefix]
          exact face?_top sound.grounded
        · refine (face?_erase whole).trans ?_
          split
          · rw [if_neg (not_prefix_dropLast whole)]
            exact face?_dropLast there whole
          · exact sound.grounded

theorem rename (sound : d.Sound) (renamed : d.rename p q = .ok d') : d'.Sound := by
  obtain ⟨src, tgt, node, -, target, r⟩ := renamed_of_rename renamed
  obtain ⟨dir, n, rfl, entry⟩ := entrance_eq_some.1 target
  obtain ⟨-, there, ne, -⟩ := entryOf_eq_ok entry
  rcases Decidable.em (d.Rests node src (dir ++ [n])) with rests | moves
  · have top := r.top
    have current := r.current
    rw [if_pos rests] at top current
    exact ⟨top ▸ sound.proper, by rw [Grounded, top, current]; exact sound.grounded⟩
  · obtain ⟨apart, apart'⟩ := r.apart (Renamed.ne moves)
    refine ⟨?_, ?_⟩
    · rw [r.top, if_neg moves]
      refine isProper_put (isProper_erase sound.proper) (isProper_at? sound.proper r.there).1 ?_
      intro up
      rcases List.mem_append.1 up with above | last
      · exact sound.plain there above
      · exact ne (List.mem_singleton.1 last).symm
    · have below : ¬ dir ++ [n] <+: dir := by
        simpa using not_prefix_dropLast (l := dir ++ [n]) (by simp)
      have away : ¬ src <+: dir := fun h => apart (h.trans (List.prefix_append dir [n]))
      have base : d'.current.base =
          relocate src (dir ++ [n]) (d.current.without (dir ++ [n])).base := by
        rw [r.current, if_neg moves, Whereabouts.moved]
      rw [Grounded, base, Whereabouts.base_without]
      split
      · -- The current directory is replaced, and is in the directory of what comes there.
        rw [List.dropLast_concat, relocate_away away, r.face?_eq moves, if_neg below, if_neg away,
          there]
      · next spared =>
        by_cases carried : src <+: d.current.base
        · obtain ⟨rest, whole⟩ := carried
          have inner : node.face? rest = some .dir := by
            rw [← sound.grounded, ← whole, face?, face?, at?_append, r.there, Option.bind_some]
          rw [← whole, relocate_below, r.face?_eq moves, if_pos (List.prefix_append _ _),
            List.drop_left, inner]
        · rw [relocate_away carried, r.face?_eq moves, if_neg spared, if_neg carried,
            sound.grounded]

theorem enter (sound : d.Sound) (entered : d.enter p = .ok d') : d'.Sound := by
  rw [Disk.enter] at entered
  split at entered
  · cases entered
  · cases entered
  · next w looked =>
    cases entered
    exact ⟨sound.proper, sound.removed looked⟩
  · next loc looked =>
    split at entered
    · next isDir =>
      cases entered
      cases at_ : d.top.at? loc with
      | none =>
        rw [at_] at isDir
        cases isDir
      | some node =>
        rw [at_] at isDir
        refine ⟨sound.proper, ?_⟩
        rw [Grounded, face?_of_at? at_, isDir_iff_face.1 isDir]
    · cases entered

end Sound

/-- What can be done to a disk. -/
inductive Edit (d : Disk) : Disk → Prop
  | makeDir {p : Path} {d' : Disk} (made : d.makeDir p = .ok d') : Edit d d'
  | makeDirs (p : Path) : Edit d (d.makeDirs p).1
  | makeLink {p : Path} {target : String} {d' : Disk} (made : d.makeLink p target = .ok d') :
      Edit d d'
  | update {p : Path} {mode : Nat} {change : Content → Content} {d' : Disk}
      (updated : d.update p mode change = .ok d') : Edit d d'
  | alter (inode : Inode) (change : Content → Content) : Edit d (d.alter inode change)
  | remove (p : Path) : Edit d (d.remove p).1
  | rename {p q : Path} {d' : Disk} (renamed : d.rename p q = .ok d') : Edit d d'
  | enter {p : Path} {d' : Disk} (entered : d.enter p = .ok d') : Edit d d'

/-- **A sound disk stays sound**, whatever is done to it. -/
theorem Edit.sound (edit : d.Edit d') (sound : d.Sound) : d'.Sound := by
  cases edit with
  | makeDir made => exact sound.make rfl made
  | makeDirs p => exact sound.makeDirsAt
  | makeLink made =>
    rw [Disk.makeLink] at made
    split at made
    · cases made
    · exact sound.make rfl made
  | update updated => exact sound.update updated
  | alter inode change => exact sound.alter inode change
  | remove p => exact sound.remove
  | rename renamed => exact sound.rename renamed
  | enter entered => exact sound.enter entered

/-- **What comes of a sound disk is sound.** -/
theorem sound_of_edits (edits : Relation.ReflTransGen Edit d d') (sound : d.Sound) : d'.Sound := by
  induction edits with
  | refl => exact sound
  | tail _ edit ih => exact edit.sound ih

end Disk

end FileTags
