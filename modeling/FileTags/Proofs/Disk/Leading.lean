/-
  Paths that lead somewhere by their names.

  * `Path.Fits` says that a path keeps within the limits of a disk;
  * `Disk.Placed` says that the current directory is where its location says;
  * `Disk.Leads` says that a path leads to a location by its names alone, without a link;
    `Leads.lookup` and `Leads.lookup_child` say what is at such a path, and `Leads.of_kept` that
    it leads there as long as the directories stay; `Leads.stat_long_link`: a link in there to a
    name that is too long leads to an error;
  * `Disk.leads_ofLocation`: the path of a location where something is leads to it.
-/
import FileTags.Disk.Resolve
import FileTags.Proofs.Disk.Walking
import Mathlib.Data.String.Basic

namespace FileTags

open Node

/-! ## Limits -/

/-- A path keeps within the limits of a disk. -/
structure Path.Fits (p : Path) : Prop where
  hasNull : p.hasNull = false
  size : p.toString.utf8ByteSize ≤ pathLimit
  names : ∀ n ∈ p.names, n.byteSize ≤ nameLimit

namespace Path

variable {p : Path} {n : Name} {loc : Location}

theorem steps_child (ne : n ≠ Name.up) : (p.child n).steps = p.steps ++ [.down n] := by
  simp [steps, child, Step.ofName, ne]

theorem steps_child_up : (p.child Name.up).steps = p.steps ++ [.up] := by
  simp [steps, child, Step.ofName]

theorem child_ofLocation : (ofLocation loc).child n = ofLocation (loc ++ [n]) := rfl

theorem child_inj {q : Path} {m : Name} (same : p.child n = q.child m) : p = q ∧ n = m := by
  obtain ⟨anchors, concats⟩ := Path.mk.inj same
  obtain ⟨names, last⟩ := List.append_inj' concats rfl
  exact ⟨congrArg₂ Path.mk anchors names, List.singleton_inj.1 last⟩

theorem stepUp_ofLocation (plain : Name.up ∉ loc) :
    (ofLocation loc).stepUp = ofLocation loc.dropLast := by
  rw [stepUp, name?]
  cases last : (ofLocation loc).names.getLast? with
  | none =>
    have empty : loc = [] := List.getLast?_eq_none_iff.1 last
    simp [empty, ofLocation, isAbsolute]
  | some n =>
    have ne : n ≠ Name.up := fun e => plain (e ▸ List.mem_of_getLast? last)
    simp [ne, parent, ofLocation]

/-- After steps up from the current directory, a step up is one more. -/
theorem stepUp_of_ups (relative : p.isAbsolute = false) (ups : ∀ n ∈ p.names, n = Name.up) :
    p.stepUp = p.child Name.up := by
  rw [stepUp, name?]
  cases last : p.names.getLast? with
  | none => simp [relative]
  | some n =>
    obtain rfl := ups n (List.mem_of_getLast? last)
    simp

theorem isAbsolute_stepUp : p.stepUp.isAbsolute = p.isAbsolute := by
  rw [stepUp]
  split
  · split <;> rfl
  · split <;> rfl

theorem toString_child_le (ne : p ≠ here) :
    p.toString.utf8ByteSize ≤ (p.child n).toString.utf8ByteSize := by
  have joined : ∀ pieces : List (List Char), ∃ rest,
      Text.join ['/'] (pieces ++ [n.text.toList]) = Text.join ['/'] pieces ++ rest := by
    intro pieces
    induction pieces with
    | nil => exact ⟨_, rfl⟩
    | cons piece pieces ih =>
      obtain ⟨rest, same⟩ := ih
      cases pieces with
      | nil => exact ⟨'/' :: n.text.toList, by simp [Text.join]⟩
      | cons next pieces =>
        refine ⟨rest, ?_⟩
        rw [List.cons_append, List.cons_append, Text.join_cons_cons, Text.join_cons_cons,
          ← List.cons_append, same]
        simp
  obtain ⟨anchor, names⟩ := p
  have longer : (⟨anchor, names ++ [n]⟩ : Path) ≠ here := fun same =>
    List.append_ne_nil_of_right_ne_nil names (List.cons_ne_nil n []) (congrArg Path.names same)
  obtain ⟨rest, same⟩ := joined (names.map (·.text.toList))
  rw [Path.toString, Path.toString, child, toChars, toChars, if_neg ne, if_neg longer,
    List.map_append, List.map_singleton, same, ← List.append_assoc]
  simp only [String.ofList_append, String.utf8ByteSize_append]
  exact Nat.le_add_right _ _

theorem fits_here : here.Fits := ⟨rfl, by decide +kernel, nofun⟩

theorem Fits.parent (fits : (p.child n).Fits) : p.Fits := by
  by_cases e : p = here
  · rw [e]
    exact fits_here
  · obtain ⟨hasNull, size, names⟩ := fits
    simp only [Path.hasNull, child, List.any_append, Bool.or_eq_false_iff] at hasNull
    exact ⟨hasNull.1, (toString_child_le e).trans size,
      fun m there => names m (List.mem_append_left _ there)⟩

end Path

/-- There are names that no disk can hold. -/
theorem exists_long_name : ∃ long : Name, long.text = String.ofList (List.replicate 300 'n') ∧
    nameLimit < long.byteSize ∧ long ≠ Name.up := by
  have isName : IsName (String.ofList (List.replicate 300 'n')).toList := by
    rw [String.toList_ofList]
    decide +kernel
  have above : nameLimit < (⟨_, isName⟩ : Name).byteSize := by
    rw [Name.byteSize, String.utf8ByteSize_ofList]
    decide +kernel
  refine ⟨⟨_, isName⟩, rfl, above, fun same => ?_⟩
  rw [same] at above
  exact absurd above (by decide)

/-- A link to a name that is too long cannot be followed. -/
theorem Disk.travel_of_long_link {top : Node} {follow : Bool} {loc dir : Location}
    {steps rest : List Step} {long : Name} (ne : long ≠ Name.up) (above : nameLimit < long.byteSize)
    (came : descend top follow loc steps = .link dir long.text rest) :
    travel top follow linkLimit loc steps = .error .nameTooLong := by
  have refused : descend top follow dir (.down long :: rest) = .failed .nameTooLong := by
    rw [descend, if_pos above]
  rw [show linkLimit = 39 + 1 from rfl, travel_of_link came, not_linkIsAbsolute_name,
    linkSteps_name ne]
  exact travel_of_failed refused

namespace Disk

variable {d d' : Disk} {p : Path} {follow : Bool} {loc : Location} {node : Node} {n : Name}
  {rest : List Step}

theorem start_child : d.start (p.child n) = d.start p := rfl

/-! ## Paths that lead somewhere by their names -/

/-- The current directory is where its location says. -/
structure Placed (d : Disk) : Prop where
  removed : d.current.removed = 0
  there : d.top.face? d.current.base = some .dir
  plain : Name.up ∉ d.current.base

/-- A path leads to a location by its names alone: each of them is a step up from the current
    directory, or a step down to a node that is no link. -/
inductive Leads (d : Disk) : Path → Location → Prop
  | root (top : d.top.face = .dir) : Leads d .root []
  | here (placed : d.Placed) : Leads d .here d.current.base
  | up {p : Path} {loc : Location} (leads : Leads d p loc) (relative : p.isAbsolute = false)
      (ups : ∀ n ∈ p.names, n = Name.up) : Leads d (p.child Name.up) loc.dropLast
  | down {p : Path} {loc : Location} {n : Name} {f : Face} (leads : Leads d p loc)
      (ne : n ≠ Name.up) (there : d.top.face? (loc ++ [n]) = some f)
      (plain : ∀ target, f ≠ .link target) : Leads d (p.child n) (loc ++ [n])

/-- What has something below it is a directory. -/
theorem face_of_face? {top : Node} {f : Face} (there : top.face? loc = some f) (ne : loc ≠ []) :
    top.face = .dir := by
  obtain ⟨node, at_, -⟩ := Option.map_eq_some_iff.1 there
  obtain ⟨es, top⟩ := dir_above List.nil_prefix (Ne.symm ne) (by rw [at_]; rfl)
  rw [at?_nil] at top
  rw [Option.some.inj top]
  rfl

theorem face?_dropLast {top : Node} {f : Face} (there : top.face? loc = some f) (ne : loc ≠ []) :
    top.face? loc.dropLast = some .dir := by
  obtain ⟨dir, n, rfl⟩ := (List.eq_nil_or_concat' loc).resolve_left ne
  rw [List.dropLast_concat]
  exact face?_of_concat there

namespace Leads

/-- There is a node at the end, and it is no link. -/
theorem there (leads : d.Leads p loc) :
    ∃ f, d.top.face? loc = some f ∧ ∀ target, f ≠ .link target := by
  induction leads with
  | root top => exact ⟨.dir, by rw [face?_nil, top], Face.dir_ne_link⟩
  | here placed => exact ⟨.dir, placed.there, Face.dir_ne_link⟩
  | @up p loc leads _ _ ih =>
    obtain ⟨f, found, plain⟩ := ih
    by_cases e : loc = []
    · subst e
      exact ⟨f, found, plain⟩
    · exact ⟨.dir, face?_dropLast found e, Face.dir_ne_link⟩
  | down leads ne there plain => exact ⟨_, there, plain⟩

theorem up_not_mem (leads : d.Leads p loc) : Name.up ∉ loc := by
  induction leads with
  | root => exact List.not_mem_nil
  | here placed => exact placed.plain
  | up _ _ _ ih => exact fun h => ih (List.dropLast_subset _ h)
  | down _ ne _ _ ih => simp [ih, Ne.symm ne]

theorem removed (leads : d.Leads p loc) : (d.start p).removed = 0 := by
  induction leads with
  | root => rfl
  | here placed => exact placed.removed
  | up _ _ _ ih => exact ih
  | down _ _ _ _ ih => exact ih

/-- A walk along such a path either fails on the way or goes on from its end. -/
theorem descend_cases (leads : d.Leads p loc) (follow : Bool) (rest : List Step) :
    descend d.top follow (d.start p).base (p.steps ++ rest) = descend d.top follow loc rest ∨
    ∃ e, (e = .nameTooLong ∨ e = .notDirectory) ∧
      descend d.top follow (d.start p).base (p.steps ++ rest) = .failed e := by
  induction leads generalizing rest with
  | root => exact .inl rfl
  | here => exact .inl rfl
  | @up p loc leads _ _ ih =>
    rw [Path.steps_child_up, List.append_assoc, start_child]
    exact ih _
  | @down p loc n f leads ne there plain ih =>
    rw [Path.steps_child ne, List.append_assoc, start_child]
    rcases ih (.down n :: rest) with on | failed
    · rw [List.singleton_append, on, descend_down]
      split
      · exact .inr ⟨_, .inl rfl, rfl⟩
      · rw [there]
        cases f with
        | dir => exact .inl rfl
        | link target => exact absurd rfl (plain target)
        | leaf =>
          cases rest with
          | nil => exact .inl rfl
          | cons step rest => exact .inr ⟨_, .inr rfl, rfl⟩
    · exact .inr failed

/-- Steps up from the current directory lead to a directory. -/
theorem dir_of_ups (leads : d.Leads p loc) (ups : ∀ n ∈ p.names, n = Name.up) :
    d.top.face? loc = some .dir := by
  induction leads with
  | root top => rw [face?_nil, top]
  | here placed => exact placed.there
  | @up p loc leads _ above ih =>
    by_cases e : loc = []
    · rw [e] at ih ⊢
      exact ih above
    · exact face?_dropLast (ih above) e
  | down _ ne _ _ _ => exact absurd (ups _ (List.mem_append_right _ List.mem_cons_self)) ne

/-- A walk along such a path goes on from its end, if no name is too long. -/
theorem descend_append (leads : d.Leads p loc) (follow : Bool) (rest : List Step)
    (short : ∀ n ∈ p.names, n.byteSize ≤ nameLimit)
    (dir : rest = [] ∨ d.top.face? loc = some .dir) :
    descend d.top follow (d.start p).base (p.steps ++ rest) = descend d.top follow loc rest := by
  induction leads generalizing rest with
  | root => rfl
  | here => rfl
  | @up p loc leads _ ups ih =>
    rw [Path.steps_child_up, List.append_assoc, start_child]
    exact ih _ (fun n there => short n (List.mem_append_left _ there)) (.inr (leads.dir_of_ups ups))
  | @down p loc n f leads ne there plain ih =>
    have above := face?_of_concat there
    rw [Path.steps_child ne, List.append_assoc, start_child,
      ih _ (fun n there => short n (List.mem_append_left _ there)) (.inr above),
      List.singleton_append, descend_down,
      if_neg (Nat.not_lt.2 (short n (List.mem_append_right _ List.mem_cons_self))), there]
    rcases dir with rfl | dir
    · cases f with
      | dir => rfl
      | link target => exact absurd rfl (plain target)
      | leaf => rfl
    · obtain rfl : f = .dir := Option.some.inj (there.symm.trans dir)
      rfl

theorem short_of_descend (leads : d.Leads p loc) (follow : Bool) (rest : List Step)
    (on : ∀ e, descend d.top follow (d.start p).base (p.steps ++ rest) ≠ .failed e) :
    ∀ n ∈ p.names, n.byteSize ≤ nameLimit := by
  induction leads generalizing rest with
  | root => nofun
  | here => nofun
  | @up p loc leads _ _ ih =>
    rw [Path.steps_child_up, List.append_assoc, start_child] at on
    intro m there
    rcases List.mem_append.1 there with before | last
    · exact ih _ on m before
    · rw [List.mem_singleton.1 last]
      decide
  | @down p loc n f leads ne there plain ih =>
    rw [Path.steps_child ne, List.append_assoc, start_child] at on
    intro m there
    rcases List.mem_append.1 there with before | last
    · exact ih _ on m before
    · rw [List.mem_singleton.1 last]
      rcases leads.descend_cases follow ([.down n] ++ rest) with went | ⟨e, -, failed⟩
      · rw [went, List.singleton_append, descend_down] at on
        refine Nat.le_of_not_lt fun long => ?_
        rw [if_pos long] at on
        exact on _ rfl
      · exact absurd failed (on e)

end Leads

namespace Leads

theorem of_child (leads : d.Leads (p.child n) loc) (ne : n ≠ Name.up) :
    ∃ dir, loc = dir ++ [n] ∧ d.Leads p dir := by
  generalize same : p.child n = q at leads
  cases leads with
  | root => simp [Path.child, Path.root] at same
  | here => simp [Path.child, Path.here] at same
  | up _ _ _ => exact absurd (Path.child_inj same).2 ne
  | down leads _ _ _ =>
    obtain ⟨rfl, rfl⟩ := Path.child_inj same
    exact ⟨_, rfl, leads⟩

end Leads

/-! ## What is at such a path -/

theorem lookup_eq_travel (null : p.hasNull = false) (size : p.toString.utf8ByteSize ≤ pathLimit)
    (removed : (d.start p).removed = 0) :
    d.lookup follow p = travel d.top follow linkLimit (d.start p).base p.steps := by
  rw [lookup, if_neg (by rw [null]; exact Bool.false_ne_true), if_neg (Nat.not_lt.2 size)]
  simp only [removed, climb]

/-- **A path that is looked up** has no null character and is not too long; it climbs out of removed
    directories and is walked from there, or ends in a removed directory. -/
theorem lookup_cases {spot : Spot} (looked : d.lookup follow p = .ok spot) :
    p.hasNull = false ∧ p.toString.utf8ByteSize ≤ pathLimit ∧
      ((∃ steps, climb (d.start p).removed p.steps = .ok (0, steps) ∧
          travel d.top follow linkLimit (d.start p).base steps = .ok spot) ∨
        ∃ k steps, climb (d.start p).removed p.steps = .ok (k + 1, steps) ∧
          spot = .removed ⟨(d.start p).base, k + 1⟩) := by
  rw [lookup] at looked
  split at looked
  · cases looked
  next null =>
  split at looked
  · cases looked
  next long =>
  refine ⟨eq_false_of_ne_true null, Nat.le_of_not_lt long, ?_⟩
  dsimp only at looked
  split at looked
  · cases looked
  next steps climbed => exact .inl ⟨steps, climbed, looked⟩
  next removed steps nonzero climbed =>
    cases looked
    cases removed with
    | zero => exact absurd rfl nonzero
    | succ k => exact .inr ⟨k, steps, climbed, rfl⟩

theorem usable_of_lookup {spot : Spot} (looked : d.lookup follow p = .ok spot) :
    p.hasNull = false ∧ p.toString.utf8ByteSize ≤ pathLimit :=
  (lookup_cases looked).imp_right And.left

theorem travel_of_lookup {spot : Spot} (removed : (d.start p).removed = 0)
    (found : d.lookup follow p = .ok spot) : p.hasNull = false ∧
      p.toString.utf8ByteSize ≤ pathLimit ∧
      travel d.top follow linkLimit (d.start p).base p.steps = .ok spot := by
  obtain ⟨hasNull, size⟩ := usable_of_lookup found
  rw [lookup_eq_travel hasNull size removed] at found
  exact ⟨hasNull, size, found⟩

/-- What is in a directory is looked up from there, if its path is not too long. -/
theorem lookup_child_of_found {dir : Location} (found : d.lookup true p = .ok (.found dir))
    (there : d.top.face? dir = some .dir) (ne : n ≠ Name.up) (null : (p.child n).hasNull = false)
    (size : (p.child n).toString.utf8ByteSize ≤ pathLimit) :
    ∃ left, ∀ follow, d.lookup follow (p.child n) = travel d.top follow left dir [.down n] := by
  obtain ⟨-, -, ⟨steps, climbed, walked⟩ | ⟨k, steps, -, same⟩⟩ := lookup_cases found
  · obtain ⟨left, on⟩ := travel_append walked there (List.cons_ne_nil (Step.down n) [])
    refine ⟨left, fun follow => ?_⟩
    rw [lookup, if_neg (by rw [null]; exact Bool.false_ne_true), if_neg (Nat.not_lt.2 size),
      Path.steps_child ne, start_child]
    simp only [climb_append climbed]
    exact on follow
  · cases same

/-- An entry of a directory that is no link is found there, if its path is not too long. -/
theorem lookup_entry {dir : Location} (found : d.lookup true p = .ok (.found dir))
    (there : d.top.face? dir = some .dir) (ne : n ≠ Name.up) (null : (p.child n).hasNull = false)
    (size : (p.child n).toString.utf8ByteSize ≤ pathLimit) (short : n.byteSize ≤ nameLimit)
    {f : Face} (entry : d.top.face? (dir ++ [n]) = some f) (plain : ∀ target, f ≠ .link target)
    (follow : Bool) : d.lookup follow (p.child n) = .ok (.found (dir ++ [n])) := by
  obtain ⟨left, on⟩ := lookup_child_of_found found there ne null size
  rw [on]
  exact travel_of_found (descend_entry short entry plain)

namespace Leads

theorem lookup (leads : d.Leads p loc) (fits : p.Fits) :
    d.lookup follow p = .ok (.found loc) := by
  rw [lookup_eq_travel fits.hasNull fits.size leads.removed]
  have walk := leads.descend_append follow [] fits.names (.inl rfl)
  rw [List.append_nil] at walk
  exact travel_of_found walk

theorem fits (leads : d.Leads p loc) {spot : Spot} (found : d.lookup follow p = .ok spot) :
    p.Fits := by
  obtain ⟨hasNull, size, walked⟩ := travel_of_lookup leads.removed found
  refine ⟨hasNull, size, leads.short_of_descend follow [] fun e failed => ?_⟩
  rw [List.append_nil] at failed
  rw [travel_of_failed failed] at walked
  cases walked

/-- What is at an entry of the directory at the end of such a path. -/
theorem lookup_child (leads : d.Leads p loc) (ne : n ≠ Name.up)
    (dir : d.top.face? loc = some .dir) (fits : (p.child n).Fits) :
    d.lookup false (p.child n) = .ok (if (d.top.face? (loc ++ [n])).isSome
      then .found (loc ++ [n]) else .absent loc n) := by
  have short : ∀ m ∈ p.names, m.byteSize ≤ nameLimit :=
    fun m there => fits.names m (List.mem_append_left _ there)
  have last : ¬ nameLimit < n.byteSize :=
    Nat.not_lt.2 (fits.names n (List.mem_append_right _ List.mem_cons_self))
  have walk := leads.descend_append false [.down n] short (.inr dir)
  rw [descend_down, if_neg last] at walk
  rw [lookup_eq_travel fits.hasNull fits.size leads.removed, Path.steps_child ne]
  cases there : d.top.face? (loc ++ [n]) with
  | none =>
    rw [there] at walk
    exact travel_of_absent walk
  | some f =>
    rw [there] at walk
    cases f <;> exact travel_of_found walk

/-- A link at such a place cannot be followed to a name that is too long. -/
theorem stat_long_link {long : Name} (leads : d.Leads p loc) (ne : n ≠ Name.up)
    (dir : d.top.face? loc = some .dir) (fits : (p.child n).Fits)
    (there : d.top.face? (loc ++ [n]) = some (.link long.text)) (ne' : long ≠ Name.up)
    (above : nameLimit < long.byteSize) : d.stat (p.child n) = .error .nameTooLong := by
  have short : ∀ m ∈ p.names, m.byteSize ≤ nameLimit :=
    fun m there => fits.names m (List.mem_append_left _ there)
  have last : ¬ nameLimit < n.byteSize :=
    Nat.not_lt.2 (fits.names n (List.mem_append_right _ List.mem_cons_self))
  have came := leads.descend_append true [.down n] short (.inr dir)
  rw [descend_down, if_neg last, there] at came
  have refused := travel_of_long_link ne' above came
  rw [stat, Disk.node, lookup_eq_travel fits.hasNull fits.size leads.removed, Path.steps_child ne,
    start_child, refused]

/-- What is at such a path is at its location. -/
theorem at?_of_node (leads : d.Leads p loc) (found : d.node follow p = .ok node) :
    p.Fits ∧ d.top.at? loc = some node := by
  rcases lookup_of_node found with ⟨l, there, at_⟩ | ⟨w, removed, -⟩
  · have fits := leads.fits there
    rw [leads.lookup fits] at there
    cases there
    exact ⟨fits, at_⟩
  · have fits := leads.fits removed
    rw [leads.lookup fits] at removed
    cases removed

/-- A path to an entry, there or just missing, keeps within the limits. -/
theorem fits_child (leads : d.Leads p loc) (ne : n ≠ Name.up)
    (told : d.lstat (p.child n) = .error .notFound ∨ ∃ node, d.lstat (p.child n) = .ok node) :
    (p.child n).Fits := by
  have other : ∀ e, d.lookup false (p.child n) = .error e → e = .notFound := by
    intro e failed
    have lstat : d.lstat (p.child n) = .error e := by rw [Disk.lstat, Disk.node, failed]
    rcases told with missing | ⟨node, found⟩
    · rw [missing] at lstat
      exact (Except.error.inj lstat).symm
    · rw [found] at lstat
      cases lstat
  have hasNull : (p.child n).hasNull = false := by
    refine eq_false_of_ne_true fun null => ?_
    cases other .nullCharacter (by rw [Disk.lookup, if_pos null])
  have size : (p.child n).toString.utf8ByteSize ≤ pathLimit := by
    refine Nat.le_of_not_lt fun long => ?_
    have usable : ¬ (p.child n).hasNull = true := by rw [hasNull]; exact Bool.false_ne_true
    cases other .nameTooLong (by rw [Disk.lookup, if_neg usable, if_pos long])
  have walked : d.lookup false (p.child n) =
      travel d.top false linkLimit (d.start p).base (p.steps ++ [.down n]) := by
    rw [lookup_eq_travel (p := p.child n) hasNull size leads.removed, Path.steps_child ne,
      start_child]
  have on : descend d.top false (d.start p).base (p.steps ++ [.down n]) =
      descend d.top false loc [.down n] := by
    rcases leads.descend_cases false [.down n] with on | ⟨e, kind, failed⟩
    · exact on
    · rw [travel_of_failed failed] at walked
      cases other e walked
      simp at kind
  have last : ∀ e, descend d.top false loc [.down n] ≠ .failed e := by
    intro e failed
    rw [travel_of_failed (on.trans failed)] at walked
    cases other e walked
    rcases descend_last d.top loc n with long | missing | found <;> simp_all
  refine ⟨hasNull, size, fun m there => ?_⟩
  rcases List.mem_append.1 there with before | at_
  · exact leads.short_of_descend false [.down n] (fun e => on ▸ last e) m before
  · rw [List.mem_singleton.1 at_]
    refine Nat.le_of_not_lt fun long => last .nameTooLong ?_
    rw [descend_down, if_pos long]

/-- An entry that is found below such a path is at its location. -/
theorem at?_child (leads : d.Leads p loc) (ne : n ≠ Name.up)
    (found : d.lstat (p.child n) = .ok node) : d.top.at? (loc ++ [n]) = some node := by
  rcases lookup_of_node found with ⟨l, there, at_⟩ | ⟨w, removed, -⟩
  · obtain ⟨-, -, walked⟩ := travel_of_lookup (p := p.child n) leads.removed there
    rw [Path.steps_child ne, start_child] at walked
    rcases leads.descend_cases false [.down n] with on | ⟨e, -, failed⟩
    · rcases descend_last d.top loc n with long | missing | last
      · rw [travel_of_failed (on.trans long)] at walked
        cases walked
      · rw [travel_of_absent (on.trans missing)] at walked
        cases walked
      · rw [travel_of_found (on.trans last)] at walked
        cases walked
        exact at_
    · rw [travel_of_failed failed] at walked
      cases walked
  · exact absurd (travel_of_lookup (p := p.child n) leads.removed removed).2.2 travel_ne_removed

theorem present (leads : d.Leads p loc) (fits : p.Fits) : d.present p = .ok true := by
  obtain ⟨f, there, -⟩ := leads.there
  obtain ⟨node, at_, -⟩ := Option.map_eq_some_iff.1 there
  exact present_iff.2 ⟨node, by rw [stat, Disk.node, leads.lookup fits]; simp [at_]⟩

/-- No links are followed on such a path, so there are never too many. -/
theorem stat_ne_tooManyLinks (leads : d.Leads p loc) : d.stat p ≠ .error .tooManyLinks := by
  intro failed
  obtain ⟨f, there, -⟩ := leads.there
  obtain ⟨node, at_, -⟩ := Option.map_eq_some_iff.1 there
  rw [stat, Disk.node] at failed
  by_cases null : p.hasNull = true
  · rw [Disk.lookup, if_pos null] at failed
    cases failed
  by_cases long : pathLimit < p.toString.utf8ByteSize
  · rw [Disk.lookup, if_neg null, if_pos long] at failed
    cases failed
  rw [lookup_eq_travel (eq_false_of_ne_true null) (Nat.le_of_not_lt long) leads.removed] at failed
  have walk := leads.descend_cases true []
  rw [List.append_nil] at walk
  rcases walk with came | ⟨e, kind, came⟩
  · rw [travel_of_found came] at failed
    simp [at_] at failed
  · rw [travel_of_failed came] at failed
    cases failed
    simp at kind

/-! ## Steps along such paths -/

theorem stepUp (leads : d.Leads p loc) : d.Leads p.stepUp loc.dropLast := by
  cases leads with
  | root top => exact .root top
  | here placed => exact .up (.here placed) rfl nofun
  | @up p loc leads relative ups =>
    have more : ∀ n ∈ (p.child Name.up).names, n = Name.up := fun n there => by
      rcases List.mem_append.1 there with before | last
      · exact ups n before
      · exact List.mem_singleton.1 last
    rw [Path.stepUp_of_ups (p := p.child Name.up) relative more]
    exact .up (.up leads relative ups) relative more
  | @down p loc n f leads ne there plain =>
    have last : (p.child n).stepUp = p := by
      simp [Path.stepUp, Path.name?, Path.child, Path.parent, ne]
    rw [last, List.dropLast_concat]
    exact leads

/-- Such a path leads to the same location where all directories, and what it leads to, have
    stayed. -/
theorem of_kept (leads : d.Leads p loc) (same : d'.current = d.current)
    (dirs : ∀ l, d.top.face? l = some .dir → d'.top.face? l = some .dir)
    (kept : d'.top.face? loc = d.top.face? loc) : d'.Leads p loc := by
  induction leads with
  | root top =>
    refine .root (Option.some.inj ?_)
    rw [← face?_nil, kept, face?_nil, top]
  | here placed =>
    rw [← same]
    exact .here ⟨same ▸ placed.removed, same ▸ dirs _ placed.there, same ▸ placed.plain⟩
  | up leads relative ups ih =>
    have dir := leads.dir_of_ups ups
    exact .up (ih ((dirs _ dir).trans dir.symm)) relative ups
  | down leads ne there plain ih =>
    have dir := face?_of_concat there
    exact .down (ih ((dirs _ dir).trans dir.symm)) ne (kept.trans there) plain

/-- Such a path seen from the top is the path of its location. -/
theorem absolute (leads : d.Leads p loc) : d.absolute p = .ok (.ofLocation loc) := by
  have steps : p.steps.foldl Path.step (.ofLocation (d.start p).base) = .ofLocation loc := by
    induction leads with
    | root => rfl
    | here => rfl
    | @up p loc leads _ _ ih =>
      rw [Path.steps_child_up, List.foldl_append, start_child, ih]
      exact Path.stepUp_ofLocation leads.up_not_mem
    | @down p loc n f leads ne _ _ ih =>
      rw [Path.steps_child ne, List.foldl_append, start_child, ih]
      rfl
  have removed := leads.removed
  rw [Disk.absolute]
  split
  · next loc same =>
    rw [same] at steps
    rw [steps]
  · next same =>
    rw [same] at removed
    cases removed

end Leads

/-- A link at the top to a name that is too long cannot be followed. -/
theorem stat_long_link {long : Name} (ne : long ≠ Name.up) (above : nameLimit < long.byteSize) :
    let a : Name := ⟨"a", by decide⟩
    let d : Disk := ⟨.dir [(a, .link long.text)], ⟨[], 0⟩, ⟨0⟩⟩
    d.stat (Path.root.child a) = .error .nameTooLong := by
  intro a d
  have fits : (Path.root.child a).Fits := ⟨by decide, by decide +kernel, by decide⟩
  exact (Leads.root rfl).stat_long_link (by decide) rfl fits rfl ne above

/-- The path of a location where something is leads there. -/
theorem leads_ofLocation (top : d.top.face = .dir) (plain : Name.up ∉ loc) {f : Face}
    (there : d.top.face? loc = some f) (face : ∀ target, f ≠ .link target) :
    d.Leads (.ofLocation loc) loc := by
  induction loc using List.reverseRecOn generalizing f with
  | nil => exact .root top
  | append_singleton loc n ih =>
    have above := face?_of_concat there
    simp only [List.mem_append, List.mem_singleton, not_or] at plain
    exact .down (ih plain.1 above Face.dir_ne_link) (Ne.symm plain.2) there face

end Disk

end FileTags
