/-
  Resolving what has been found.

  A path that is found can be resolved to the place where it is found, unless the disk refuses a
  path on the way.  That holds from a removed directory as well.  Once it has been resolved, it
  stays so on a disk that grows, and so does the path of an entry of its directory.

  * `Node.linkCount_le`: a tree with more in it has at least as many links;
  * `reaches_of_travel`: what is found is reached;
  * `Disk.Heads` says that a path leads to a location by its names alone, be it out of what has been
    removed; `Disk.heads_of_lookup` says so of the path that is found;
  * `Disk.Traced` says how a path is resolved to a location; `Disk.traced_of_resolvePast`: that is so
    if an entry of the directory there can be resolved;
  * `Traced.resolve`, `Traced.child`, `Traced.grown`: so it is resolved, also an entry of it, and on a
    disk that has grown.
-/
import FileTags.Proofs.Disk.Removed
import Mathlib.Data.List.Nodup

namespace FileTags

open Node

/-! ## The links of trees -/

namespace Node

variable {s t top : Node} {n : Name} {loc l m dir : Location} {es : List (Name × Node)} {k : Nat}
  {steps rest more : List Step} {target : String} {budget : Nat}

theorem exists_of_mem_entryLinkPlaces (there : loc ∈ entryLinkPlaces es) :
    ∃ n node below, (n, node) ∈ es ∧ loc = n :: below ∧ below ∈ node.linkPlaces := by
  induction es with
  | nil => cases there
  | cons e es ih =>
    obtain ⟨n, node⟩ := e
    rw [entryLinkPlaces, List.mem_append] at there
    rcases there with first | later
    · obtain ⟨below, there, rfl⟩ := List.mem_map.1 first
      exact ⟨n, node, below, List.mem_cons_self, rfl, there⟩
    · obtain ⟨m, node, below, among, same, there⟩ := ih later
      exact ⟨m, node, below, List.mem_cons_of_mem _ among, same, there⟩

/-- There is a link at each of the places of the links. -/
theorem face?_of_mem_linkPlaces (proper : top.isProper = true) (there : loc ∈ top.linkPlaces) :
    ∃ target, top.face? loc = some (.link target) := by
  induction loc generalizing top with
  | nil =>
    cases top with
    | link target => exact ⟨target, rfl⟩
    | dir es =>
      obtain ⟨n, node, below, -, same, -⟩ := exists_of_mem_entryLinkPlaces there
      cases same
    | _ => cases there
  | cons n loc ih =>
    cases top with
    | dir es =>
      obtain ⟨m, node, below, among, same, there⟩ := exists_of_mem_entryLinkPlaces there
      cases same
      obtain ⟨nodup, -, each⟩ := isProper_dir.1 proper
      obtain ⟨target, face⟩ := ih (each _ among) there
      refine ⟨target, ?_⟩
      have child : (dir es).child? n = some node := lookup_of_mem nodup among
      rw [face?_cons, child]
      exact face
    | link target => cases List.mem_singleton.1 there
    | _ => cases there

mutual

theorem nodup_linkPlaces : ∀ node : Node, node.isProper = true → node.linkPlaces.Nodup
  | file _ _ _, _ => List.nodup_nil
  | device, _ => List.nodup_nil
  | link _, _ => List.nodup_singleton []
  | dir es, proper =>
    nodup_entryLinkPlaces es (isProper_dir.1 proper).1 (isProper_dir.1 proper).2.2

theorem nodup_entryLinkPlaces : ∀ es : List (Name × Node), (es.map (·.1)).Nodup →
    (∀ e ∈ es, e.2.isProper = true) → (entryLinkPlaces es).Nodup
  | [], _, _ => List.nodup_nil
  | (n, node) :: es, nodup, each => by
    obtain ⟨fresh, others⟩ := List.nodup_cons.1 nodup
    obtain ⟨proper, each⟩ := List.forall_mem_cons.1 each
    have first : (node.linkPlaces.map (n :: ·)).Nodup :=
      (nodup_linkPlaces node proper).map (List.cons_injective (a := n))
    refine List.nodup_append.2 ⟨first, nodup_entryLinkPlaces es others each, ?_⟩
    rintro l above l' below rfl
    obtain ⟨rest, -, rfl⟩ := List.mem_map.1 above
    obtain ⟨m, node, rest', among, same, -⟩ := exists_of_mem_entryLinkPlaces below
    cases same
    exact fresh (List.mem_map.2 ⟨_, among, rfl⟩)

end

/-- **A tree with more in it** has at least as many links. -/
theorem linkCount_le (proper : s.isProper = true) (w : Within s t) : s.linkCount ≤ t.linkCount := by
  rw [← length_linkPlaces, ← length_linkPlaces]
  refine (List.subperm_of_subset (nodup_linkPlaces s proper) fun loc there => ?_).length_le
  obtain ⟨target, face⟩ := face?_of_mem_linkPlaces proper there
  obtain ⟨node, at_, link⟩ := Option.map_eq_some_iff.1 (w _ _ face)
  rw [face_eq_link.1 link] at at_
  exact mem_linkPlaces at_

/-! ## What is found is reached -/

theorem Reaches.split (reached : Reaches top k loc (steps ++ more) m) :
    ∃ l, Reaches top k loc steps l ∧ Reaches top k l more m := by
  induction steps generalizing loc k with
  | nil => exact ⟨loc, .nil, reached⟩
  | cons step rest ih =>
    rw [List.cons_append] at reached
    cases reached with
    | self on =>
      obtain ⟨l, first, second⟩ := ih on
      exact ⟨l, .self first, second⟩
    | up on =>
      obtain ⟨l, first, second⟩ := ih on
      exact ⟨l, .up first, second⟩
    | down there plain on =>
      obtain ⟨l, first, second⟩ := ih on
      exact ⟨l, .down there plain first, second⟩
    | link there inner on =>
      obtain ⟨l, first, second⟩ := ih on
      exact ⟨l, .link there inner first, second⟩

end Node

section
variable {top : Node} {loc l m dir : Location} {k : Nat} {steps rest : List Step} {target : String}
  {budget : Nat}

theorem reaches_of_descend_found (came : descend top true loc steps = .found m) :
    Reaches top 0 loc steps m := by
  induction steps generalizing loc with
  | nil =>
    cases came
    exact .nil
  | cons step rest ih =>
    cases step with
    | self => exact .self (ih came)
    | up => exact .up (ih came)
    | down n =>
      rw [descend_down] at came
      split at came
      · cases came
      · cases there : top.face? (loc ++ [n]) with
        | none =>
          rw [there] at came
          cases rest <;> cases came
        | some f =>
          rw [there] at came
          cases f with
          | dir => exact .down there Face.dir_ne_link (ih came)
          | link target => simp at came
          | leaf =>
            cases rest with
            | nil =>
              cases came
              exact .down there Face.leaf_ne_link .nil
            | cons step rest => cases came

/-- Steps to a link, what the link holds, and the steps after it lead on. -/
theorem reaches_of_descend_link (came : descend top true loc steps = .link dir target rest)
    (inner : Reaches top k (if linkIsAbsolute target then [] else dir) (linkSteps target) l)
    (on : Reaches top (k + 1) l rest m) : Reaches top (k + 1) loc steps m := by
  induction steps generalizing loc with
  | nil => cases came
  | cons step steps ih =>
    cases step with
    | self => exact .self (ih came)
    | up => exact .up (ih came)
    | down n =>
      rw [descend_down] at came
      split at came
      · cases came
      · cases there : top.face? (loc ++ [n]) with
        | none =>
          rw [there] at came
          cases steps <;> cases came
        | some f =>
          rw [there] at came
          cases f with
          | dir => exact .down there Face.dir_ne_link (ih came)
          | link target =>
            simp only [Bool.not_true, Bool.and_false, Bool.false_eq_true, if_false] at came
            cases came
            exact .link there inner on
          | leaf => cases steps <;> cases came

/-- **What is found is reached.** -/
theorem reaches_of_travel (found : travel top true budget loc steps = .ok (.found m)) :
    ∃ k, Reaches top k loc steps m := by
  induction budget generalizing loc steps with
  | zero =>
    rcases travel_found_cases found with came | ⟨left, dir, target, rest, none, -⟩
    · exact ⟨0, reaches_of_descend_found came⟩
    · cases none
  | succ budget ih =>
    rcases travel_found_cases found with came | ⟨left, dir, target, rest, same, came, on⟩
    · exact ⟨0, reaches_of_descend_found came⟩
    · cases same
      obtain ⟨k, reached⟩ := ih on
      obtain ⟨l, inner, after⟩ := reached.split
      exact ⟨k + 1, reaches_of_descend_link came inner (after.mono (Nat.le_succ k))⟩

end

namespace Disk

variable {d d' : Disk} {p q r : Path} {loc : Location} {n : Name} {follow : Bool}
  {passes : DiskError → Bool} {pending : List Path} {steps more : List Step} {e : DiskError}

/-! ## Paths that head somewhere -/

/-- A path leads to a location by its names alone, or by steps up out of what has been removed and
    then by its names. -/
def Heads (d : Disk) (p : Path) (loc : Location) : Prop :=
  ∃ q, p = d.viaUps q ∧ d.remnant.Leads q loc

namespace Heads

/-- So there is a path of its location. -/
theorem leads (heads : d.Heads p loc) (top : d.top.face = .dir) :
    d.Leads (.ofLocation loc) loc := by
  obtain ⟨q, -, leads⟩ := heads
  obtain ⟨f, there, plain⟩ := leads.there
  exact leads_ofLocation top leads.up_not_mem there plain

/-- Such a path seen from the top, if it can be, is the path of its location. -/
theorem absolute (heads : d.Heads p loc) (seen : d.absolute p = .ok q) : q = .ofLocation loc := by
  obtain ⟨r, rfl, leads⟩ := heads
  have told := leads.absolute
  cases absolute : r.isAbsolute with
  | true =>
    rw [viaUps_absolute absolute] at seen
    have same : d.remnant.absolute r = d.absolute r := by
      rw [Disk.absolute, Disk.absolute, start, start, if_pos absolute, if_pos absolute]
    exact Except.ok.inj (seen.symm.trans (same.symm.trans told))
  | false =>
    by_cases present : d.current.removed = 0
    · have current : d.remnant.current = d.current := by
        rw [remnant, ← present]
      rw [eq_relative absolute, viaUps_relative, present, List.replicate_zero, List.nil_append,
        ← eq_relative absolute] at seen
      exact Except.ok.inj (seen.symm.trans ((absolute_congr current).symm.trans told))
    · rw [absolute_of_removed present (isAbsolute_viaUps.trans absolute)] at seen
      cases seen

/-- What is at an entry of the directory at the end, there or just missing. -/
theorem lookup_child (heads : d.Heads p loc) (ne : n ≠ Name.up) (dir : d.top.face? loc = some .dir)
    (told : d.lstat (p.child n) = .error .notFound ∨ ∃ node, d.lstat (p.child n) = .ok node) :
    d.lookup false (p.child n) = .ok (if (d.top.face? (loc ++ [n])).isSome
      then .found (loc ++ [n]) else .absent loc n) := by
  obtain ⟨q, rfl, leads⟩ := heads
  rw [← viaUps_child] at told ⊢
  have same : d.lookup false (d.viaUps (q.child n)) = d.remnant.lookup false (q.child n) := by
    rcases lookup_viaUps (d := d) false (q.child n) with same | long
    · exact same
    · rw [lstat, Disk.node, long] at told
      simp at told
  have told' : d.remnant.lstat (q.child n) = .error .notFound ∨
      ∃ node, d.remnant.lstat (q.child n) = .ok node := by
    rw [lstat, Disk.node, same] at told
    exact told
  rw [same]
  exact leads.lookup_child ne dir (leads.fits_child ne told')

/-- There is a link at an entry only if there is one at its place. -/
theorem link_of_lstat_child {target : String} (heads : d.Heads p loc) (ne : n ≠ Name.up)
    (dir : d.top.face? loc = some .dir) (told : d.lstat (p.child n) = .ok (.link target)) :
    d.top.face? (loc ++ [n]) = some (.link target) := by
  have looked := heads.lookup_child ne dir (.inr ⟨_, told⟩)
  rcases lookup_of_node told with ⟨l, found, at_⟩ | ⟨w, -, same⟩
  · rw [looked] at found
    split at found
    · cases found
      exact face?_of_at? at_
    · cases found
  · cases same

end Heads

/-! ## Resolving past some names -/

/-- What stops a path that is resolved strictly stops it as well where only other names are
    passed. -/
theorem resolveSteps_failed (stops : passes e = false)
    {inner inner' : List Path → Path → List Step → Trail}
    (done : ∀ pending p steps q, inner pending p steps = .done q → inner' pending p steps = .done q)
    (failed : ∀ pending p steps, inner pending p steps = .failed e →
      inner' pending p steps = .failed e)
    (refused : resolveSteps d (fun _ => false) inner pending p steps = .failed e) :
    resolveSteps d passes inner' pending p steps = .failed e := by
  induction steps generalizing p with
  | nil => cases refused
  | cons step rest ih =>
    cases step with
    | self => exact ih refused
    | up => exact ih refused
    | down n =>
      rw [resolveSteps] at refused ⊢
      split at refused
      · next told =>
        cases refused
        rw [stops]
        rfl
      · next target told =>
        split at refused
        · cases refused
        · next fresh =>
          rw [if_neg fresh]
          split at refused
          · next q inside =>
            rw [done _ _ _ _ inside]
            exact ih refused
          · cases refused
          · next inside =>
            cases refused
            rw [failed _ _ _ inside]
      · exact ih refused

theorem resolveWithin_failed (stops : passes e = false) {depth : Nat}
    (refused : resolveWithin d (fun _ => false) depth pending p steps = .failed e) :
    resolveWithin d passes depth pending p steps = .failed e := by
  induction depth generalizing pending p steps with
  | zero => cases refused
  | succ depth ih =>
    exact resolveSteps_failed stops
      (fun _ _ _ _ done => resolveWithin_within .refl rfl (Nat.le_refl depth) done)
      (fun _ _ _ inside => ih inside) refused

/-- A path is resolved step after step. -/
theorem resolveSteps_append {inner : List Path → Path → List Step → Trail} :
    resolveSteps d passes inner pending p (steps ++ more) =
      match resolveSteps d passes inner pending p steps with
      | .done q => resolveSteps d passes inner pending q more
      | .failed e => .failed e
      | .loop q => .loop (more.foldl Path.step q) := by
  induction steps generalizing p with
  | nil => rfl
  | cons step rest ih =>
    cases step with
    | self => exact ih
    | up => exact ih
    | down n =>
      rw [List.cons_append, resolveSteps, resolveSteps]
      cases d.lstat (p.child n) with
      | error e =>
        dsimp only
        split
        · exact ih
        · rfl
      | ok node =>
        cases node with
        | link target =>
          dsimp only
          split
          · rw [List.foldl_append]
          · cases inner (p.child n :: pending) (if linkIsAbsolute target then .root else p)
              (linkSteps target) with
            | done q => exact ih
            | failed e => rfl
            | loop q =>
              dsimp only
              rw [List.foldl_append]
        | _ => exact ih

theorem trail_child (ne : n ≠ Name.up) : d.trail passes (p.child n) =
    match d.trail passes p with
    | .done q => resolveWithin d passes d.nesting [] q [.down n]
    | .failed e => .failed e
    | .loop q => .loop (q.child n) := by
  rw [trail, Path.steps_child ne]
  exact resolveSteps_append

/-! ## What is found can be resolved -/

/-- **A path that is found** heads to its place when it is resolved, unless the disk refuses a path
    on the way. -/
theorem heads_of_lookup (sound : d.Sound) (found : d.lookup true p = .ok (.found loc)) :
    (∃ r, d.trail (fun _ => false) p = .done r ∧ d.Heads r loc) ∨
    ∃ e, (e = .nameTooLong ∨ e = .nullCharacter) ∧ d.trail (fun _ => false) p = .failed e := by
  obtain ⟨q, rfl, found'⟩ := exists_viaUps found
  have placed := sound.placed_remnant
  have leads := leads_start (p := q) placed.top fun _ => placed
  have there : (d.remnant.start q).removed = 0 := by
    rw [start]
    split <;> rfl
  obtain ⟨k, reached⟩ := reaches_of_travel (travel_of_lookup there found').2.2
  have enough : d.remnant.top.linkCount < d.nesting + ([] : List Location).length := by
    have le : d.top.linkCount ≤
        d.top.linkCount * (d.current.base.length + d.current.removed + 2) :=
      Nat.le_mul_of_pos_right _ (Nat.succ_pos _)
    rw [nesting, List.length_nil]
    exact Nat.lt_succ_of_le le
  have settles := resolveWithin_of_reaches placed.top leads (properSteps_path q) reached .nil enough
  have told : d.SameTrail (d.trail (fun _ => false) (d.viaUps q)) _ := trail_viaUps rfl q
  rcases told with same | long
  · rcases settles with ⟨r, done, leads'⟩ | failed | failed
    · exact .inl ⟨d.viaUps r, by rw [same, done]; rfl, r, rfl, leads'⟩
    · exact .inr ⟨_, .inl rfl, by rw [same, failed]; rfl⟩
    · exact .inr ⟨_, .inr rfl, by rw [same, failed]; rfl⟩
  · exact .inr ⟨_, .inl rfl, long⟩

/-! ## Paths that are resolved -/

theorem absolute_child (ne : n ≠ Name.up) :
    d.absolute (p.child n) = (d.absolute p).map (·.child n) := by
  rw [absolute, absolute, start_child, Path.steps_child ne]
  split
  · rw [List.foldl_append]
    rfl
  · rfl

/-- A path is resolved without a missing name, to the path of a location; `r` is what it becomes
    before that is seen from the top. -/
structure Traced (d : Disk) (p r : Path) (loc : Location) : Prop where
  trail : d.trail (fun _ => false) p = .done r
  heads : d.Heads r loc
  absolute : d.absolute r = .ok (.ofLocation loc)

/-- What is known of the last name of a path that is resolved, unless that is a link. -/
theorem last_of_done {depth : Nat} (plain : ∀ target, d.lstat (p.child n) ≠ .ok (.link target))
    (done : resolveWithin d passes (depth + 1) pending p [.down n] = .done q) :
    q = p.child n ∧ ((∃ e, passes e = true ∧ d.lstat (p.child n) = .error e) ∨
      ∃ node, d.lstat (p.child n) = .ok node) := by
  rw [resolveWithin, resolveSteps] at done
  split at done
  · next e told =>
    split at done
    · next passed =>
      cases done
      exact ⟨rfl, .inl ⟨e, passed, told⟩⟩
    · cases done
  · next target told => exact absurd told (plain target)
  · next node _ told =>
    cases done
    exact ⟨rfl, .inr ⟨node, told⟩⟩

namespace Traced

variable {f : Face}

theorem resolvePast (traced : d.Traced p r loc) :
    d.resolvePast passes p = .ok (.ofLocation loc) := by
  have lax : d.trail passes p = .done r :=
    resolveWithin_within .refl rfl (Nat.le_refl d.nesting) traced.trail
  rw [Disk.resolvePast, lax]
  simp only [traced.absolute]
  rfl

theorem resolve (traced : d.Traced p r loc) (top : d.top.face = .dir) :
    d.resolve p = .ok (.ofLocation loc) := by
  have lax : d.trail (· ≠ .nullCharacter) p = .done r :=
    resolveWithin_within .refl rfl (Nat.le_refl d.nesting) traced.trail
  exact resolve_of_done lax traced.absolute (traced.heads.leads top)

/-- The path of an entry that is there, and is no link, is resolved as well. -/
theorem child (traced : d.Traced p r loc) (ne : n ≠ Name.up)
    (found : d.lookup false (r.child n) = .ok (.found (loc ++ [n])))
    (there : d.top.face? (loc ++ [n]) = some f) (plain : ∀ target, f ≠ .link target) :
    d.Traced (p.child n) (r.child n) (loc ++ [n]) := by
  obtain ⟨node, at_, face⟩ := Option.map_eq_some_iff.1 there
  have told : d.lstat (r.child n) = .ok node := by
    rw [lstat, Disk.node, found]
    simp only [at_]
  refine ⟨?_, ?_, ?_⟩
  · rw [trail_child ne, traced.trail]
    dsimp only
    rw [nesting, resolveWithin, resolveSteps, told]
    cases node with
    | link target => exact absurd face.symm (plain target)
    | _ => rfl
  · obtain ⟨q, rfl, leads⟩ := traced.heads
    exact ⟨q.child n, viaUps_child.symm, .down leads ne there plain⟩
  · rw [absolute_child ne, traced.absolute]
    rfl

/-- **A path that is resolved** is resolved so on a disk that has grown. -/
theorem grown (traced : d.Traced p r loc) (proper : d.top.isProper = true) (grown : d.Grown d') :
    d'.Traced p r loc := by
  have le : d.nesting ≤ d'.nesting := by
    rw [nesting, nesting, grown.current]
    exact Nat.succ_le_succ (Nat.mul_le_mul_right _ (linkCount_le proper grown.within))
  refine ⟨resolveWithin_within grown.within grown.current le traced.trail, ?_, ?_⟩
  · obtain ⟨q, rfl, leads⟩ := traced.heads
    obtain ⟨f, there, -⟩ := leads.there
    refine ⟨q, by rw [viaUps, viaUps, grown.current], leads.of_kept ?_ ?_ ?_⟩
    · rw [remnant, remnant, grown.current]
    · exact fun l there => grown.within l _ there
    · exact (grown.within _ _ there).trans there.symm
  · rw [absolute_congr grown.current, traced.absolute]

end Traced

/-- **A path that is found is resolved**, if an entry of the directory there can be resolved. -/
theorem traced_of_resolvePast (sound : d.Sound) (found : d.lookup true p = .ok (.found loc))
    (dir : d.top.face? loc = some .dir) (ne : n ≠ Name.up)
    (plain : ∀ target, d.top.face? (loc ++ [n]) ≠ some (.link target))
    (only : ∀ e, passes e = true → e = .notFound)
    (resolved : d.resolvePast passes (p.child n) = .ok q) :
    ∃ r, d.Traced p r loc ∧ q = .ofLocation (loc ++ [n]) ∧
      d.lookup false (r.child n) = .ok (if (d.top.face? (loc ++ [n])).isSome
        then .found (loc ++ [n]) else .absent loc n) := by
  rw [resolvePast, trail_child ne] at resolved
  rcases heads_of_lookup sound found with ⟨r, strict, heads⟩ | ⟨e, kind, strict⟩
  · have lax : d.trail passes p = .done r :=
      resolveWithin_within .refl rfl (Nat.le_refl d.nesting) strict
    rw [lax] at resolved
    dsimp only at resolved
    have linkless : ∀ target, d.lstat (r.child n) ≠ .ok (.link target) :=
      fun target told => plain target (heads.link_of_lstat_child ne dir told)
    split at resolved
    · cases resolved
    · cases resolved
    · next q' done =>
      obtain ⟨rfl, told⟩ := last_of_done linkless done
      have told : d.lstat (r.child n) = .error .notFound ∨
          ∃ node, d.lstat (r.child n) = .ok node := by
        rcases told with ⟨e, passed, told⟩ | there
        · exact .inl (only e passed ▸ told)
        · exact .inr there
      rw [absolute_child ne] at resolved
      cases seen : d.absolute r with
      | error e =>
        rw [seen] at resolved
        cases resolved
      | ok top =>
        rw [seen] at resolved
        cases resolved
        obtain rfl := heads.absolute seen
        exact ⟨r, ⟨strict, heads, seen⟩, rfl, heads.lookup_child ne dir told⟩
  · have stops : passes e = false := eq_false_of_ne_true fun passed => by
      rcases kind with rfl | rfl <;> cases only _ passed
    have refused : d.trail passes p = .failed e := resolveWithin_failed stops strict
    rw [refused] at resolved
    cases resolved

/-! ## Paths of locations -/

theorem resolveSteps_ofLocation {inner : List Path → Path → List Step → Trail}
    (passed : passes .nameTooLong = true) (leads : d.Leads (.ofLocation loc) loc)
    (null : (Path.ofLocation loc).hasNull = false) :
    resolveSteps d passes inner pending .root ((Path.ofLocation loc).steps ++ more) =
      resolveSteps d passes inner pending (.ofLocation loc) more := by
  induction loc using List.reverseRecOn generalizing more with
  | nil => rfl
  | append_singleton loc n ih =>
    have ne : n ≠ Name.up := fun same => leads.up_not_mem (by simp [same])
    obtain ⟨f, there, plain⟩ := leads.there
    obtain ⟨dir, same, above⟩ := Leads.of_child (p := .ofLocation loc) leads ne
    obtain ⟨rfl, -⟩ := List.append_inj' same rfl
    have clean : (Path.ofLocation loc).hasNull = false := by
      rw [← Path.child_ofLocation, Path.hasNull_child, Bool.or_eq_false_iff] at null
      exact null.1
    rw [← Path.child_ofLocation, Path.steps_child ne, List.append_assoc, ih above clean,
      List.singleton_append, resolveSteps]
    rcases above.lstat_child ne there with ⟨node, found, face⟩ | long | held
    · rw [found]
      cases node with
      | link target => exact absurd face.symm (plain target)
      | _ => rfl
    · rw [long]
      dsimp only
      rw [if_pos passed]
    · exact absurd held (lstat_ne_null null)

/-- **A path of a location is its own resolved path**, however long it is. -/
theorem Leads.resolve (leads : d.Leads (.ofLocation loc) loc)
    (null : (Path.ofLocation loc).hasNull = false) :
    d.resolve (.ofLocation loc) = .ok (.ofLocation loc) := by
  have trail : d.trail (· ≠ .nullCharacter) (.ofLocation loc) = .done (.ofLocation loc) := by
    rw [Disk.trail, nesting, resolveWithin, ← List.append_nil (Path.ofLocation loc).steps]
    exact resolveSteps_ofLocation rfl leads null
  exact resolve_of_done trail leads.absolute leads

/-- All that a resolved path goes through is its own resolved path. -/
theorem resolve_of_covers (sound : d.Sound) (resolved : d.resolveStrict p = .ok r)
    (null : r.hasNull = false) (names : q = .ofLocation q.names) (below : q.names <+: r.names) :
    d.resolve q = .ok q := by
  obtain ⟨loc, rfl, leads⟩ :=
    exists_leads_of_resolveStrict sound.top (fun present => sound.placed present) resolved
  obtain ⟨f, there, plain⟩ := leads.there
  have above : d.Leads (.ofLocation q.names) q.names := by
    by_cases whole : q.names = loc
    · rw [whole]
      exact leads
    · obtain ⟨node, at_, -⟩ := Option.map_eq_some_iff.1 there
      obtain ⟨es, dir⟩ := dir_above below whole (Option.isSome_of_eq_some at_)
      have there := face?_of_at? dir
      exact leads_ofLocation sound.top (sound.plain there) there Face.dir_ne_link
  have clean : (Path.ofLocation q.names).hasNull = false := by
    rw [Path.hasNull, List.any_eq_false] at null ⊢
    exact fun n among => null n (below.subset among)
  rw [names]
  exact above.resolve clean

end Disk

end FileTags
