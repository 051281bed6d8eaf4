/-
  Null characters.

  A path without a null character is never refused for one, as long as no link on the disk holds
  one.

  * `Node.links` are the texts of the links of a tree, `Disk.NullFree` says that there is no null
    character in them;
  * `Disk.resolveSteps_nullFree`: a path that is being resolved stays free of null characters;
  * `Disk.resolvePast_ne_null`: it does not fail for one.
-/
import FileTags.Disk.Resolve
import FileTags.Proofs.Disk.Walking

namespace FileTags

open Text

namespace Node

mutual

/-- What the links of a tree hold. -/
def links : Node → List String
  | link target => [target]
  | dir es => entriesLinks es
  | _ => []

/-- What the links in some entries hold. -/
def entriesLinks : List (Name × Node) → List String
  | [] => []
  | (_, node) :: es => node.links ++ entriesLinks es

end

variable {top node : Node} {loc : Location} {n : Name} {es : List (Name × Node)} {target : String}

theorem mem_entriesLinks (found : es.lookup n = some node) (there : target ∈ node.links) :
    target ∈ entriesLinks es := by
  induction es with
  | nil => cases found
  | cons e es ih =>
    obtain ⟨m, other⟩ := e
    rw [lookup_entry] at found
    rw [entriesLinks, List.mem_append]
    split at found
    · cases found
      exact .inl there
    · exact .inr (ih found)

theorem mem_links (there : top.at? loc = some (.link target)) : target ∈ top.links := by
  induction loc generalizing top with
  | nil =>
    cases there
    exact List.mem_singleton_self target
  | cons n loc ih =>
    rw [at?, Option.bind_eq_some_iff] at there
    obtain ⟨sub, child, there⟩ := there
    obtain ⟨es, rfl⟩ := child?_eq_some child
    exact mem_entriesLinks child (ih there)

mutual

theorem links_shape : ∀ node : Node, node.shape.links = node.links
  | file _ _ _ => rfl
  | device => rfl
  | link _ => rfl
  | dir es => entriesLinks_shape es

theorem entriesLinks_shape : ∀ es, entriesLinks (entryShapes es) = entriesLinks es
  | [] => rfl
  | (_, node) :: es => congrArg₂ (· ++ ·) (links_shape node) (entriesLinks_shape es)

end

end Node

/-! ## Paths -/

namespace Path

variable {p : Path} {n : Name}

theorem hasNull_child : (p.child n).hasNull = (p.hasNull || decide ('\x00' ∈ n.text.toList)) := by
  simp [hasNull, child]

theorem hasNull_stepUp (null : p.hasNull = false) : p.stepUp.hasNull = false := by
  have up : (p.child Name.up).hasNull = false := by
    rw [hasNull_child, null]
    rfl
  rw [stepUp]
  split
  · split
    · exact null
    · exact up
  next n last =>
    split
    next same => exact same ▸ up
    next =>
      rw [hasNull, List.any_eq_false] at null ⊢
      exact fun m there => null m (List.mem_of_mem_dropLast there)

end Path

/-- No step down goes by a name with a null character. -/
def NullFreeSteps (steps : List Step) : Prop := ∀ n, Step.down n ∈ steps → '\x00' ∉ n.text.toList

theorem nullFreeSteps_path {p : Path} (null : p.hasNull = false) : NullFreeSteps p.steps := by
  intro n there
  obtain ⟨m, among, same⟩ := List.mem_map.1 there
  rw [Step.ofName] at same
  split at same
  · cases same
  · cases same
    simpa using List.any_eq_false.1 null n among

theorem nullFreeSteps_link {target : String} (null : '\x00' ∉ target.toList) :
    NullFreeSteps (linkSteps target) := by
  intro n there held
  obtain ⟨piece, among, same⟩ := List.mem_map.1 there
  rw [Step.ofChars] at same
  cases name : Name.ofChars? piece with
  | none => rw [name] at same; cases same
  | some m =>
    rw [name, Option.elim_some, Step.ofName] at same
    split at same
    · cases same
    · cases same
      refine null (List.Sublist.subset ?_ held)
      have text : n.text.toList = piece := by
        unfold Name.ofChars? at name
        split at name
        · cases name
          exact String.toList_ofList
        · cases name
      rw [text, ← join_splitOn '/' target.toList]
      exact sublist_join among

/-- What is known of a path does not come from a null character. -/
def Trail.NullFree : Trail → Prop
  | .done q => q.hasNull = false
  | .failed e => e ≠ .nullCharacter
  | .loop _ => True

namespace Disk

variable {d d' : Disk} {p q : Path} {follow : Bool} {passes : DiskError → Bool}

/-- No link on a disk holds a null character. -/
def NullFree (d : Disk) : Prop := ∀ target ∈ d.top.links, '\x00' ∉ target.toList

instance (d : Disk) : Decidable d.NullFree := inferInstanceAs (Decidable (∀ _ ∈ _, _))

theorem NullFree.congr (free : d.NullFree) (same : d'.top.shape = d.top.shape) : d'.NullFree := by
  rw [NullFree, ← Node.links_shape, same, Node.links_shape]
  exact free

/-! ## Walking -/

theorem lookup_ne_null (null : p.hasNull = false) : d.lookup follow p ≠ .error .nullCharacter := by
  intro failed
  rw [lookup, if_neg (by rw [null]; exact Bool.false_ne_true)] at failed
  split at failed
  · cases failed
  · dsimp only at failed
    split at failed
    next climbed =>
      cases failed
      exact absurd (climb_failed climbed) (by decide)
    next => exact absurd (travel_failed failed) (by decide)
    next => cases failed

theorem lstat_ne_null (null : p.hasNull = false) : d.lstat p ≠ .error .nullCharacter := by
  intro failed
  rw [lstat, node] at failed
  split at failed
  next looked =>
    cases failed
    exact lookup_ne_null null looked
  · cases failed
  · cases failed
  · split at failed <;> cases failed

theorem link_of_lstat {target : String} (found : d.lstat p = .ok (.link target)) :
    target ∈ d.top.links := by
  rw [lstat, node] at found
  split at found
  · cases found
  · cases found
  · cases found
  · split at found
    · cases found
    next there =>
      cases found
      exact Node.mem_links there

/-! ## Resolving -/

/-- **A path that is being resolved** stays free of null characters. -/
theorem resolveSteps_nullFree (free : d.NullFree) {inner : List Path → Path → List Step → Trail}
    (deeper : ∀ pending p steps, p.hasNull = false → NullFreeSteps steps →
      (inner pending p steps).NullFree)
    {pending : List Path} {steps : List Step} (null : p.hasNull = false)
    (clean : NullFreeSteps steps) :
    (resolveSteps d passes inner pending p steps).NullFree := by
  induction steps generalizing p with
  | nil => exact null
  | cons step rest ih =>
    have others : NullFreeSteps rest := fun n there => clean n (List.mem_cons_of_mem _ there)
    cases step with
    | self => exact ih null others
    | up => exact ih (Path.hasNull_stepUp null) others
    | down n =>
      have child : (p.child n).hasNull = false := by
        rw [Path.hasNull_child, null]
        simpa using clean n List.mem_cons_self
      rw [resolveSteps]
      split
      next e failed =>
        split
        · exact ih child others
        · exact fun same => lstat_ne_null child (same ▸ failed)
      next target found =>
        split
        · trivial
        · have start : (if linkIsAbsolute target then Path.root else p).hasNull = false := by
            split
            · rfl
            · exact null
          have inside := deeper (p.child n :: pending) _ (linkSteps target) start
            (nullFreeSteps_link (free target (link_of_lstat found)))
          split
          next q done => exact ih (by rw [done] at inside; exact inside) others
          next => trivial
          next e failed => rw [failed] at inside; exact inside
      next => exact ih child others

theorem resolveWithin_nullFree (free : d.NullFree) {depth : Nat} {pending : List Path}
    {steps : List Step} (null : p.hasNull = false) (clean : NullFreeSteps steps) :
    (resolveWithin d passes depth pending p steps).NullFree := by
  induction depth generalizing pending p steps with
  | zero => trivial
  | succ depth ih =>
    exact resolveSteps_nullFree free (fun _ _ _ null clean => ih null clean) null clean

/-- **A path without a null character** is not refused for one. -/
theorem resolvePast_ne_null (free : d.NullFree) (null : p.hasNull = false) :
    d.resolvePast passes p ≠ .error (.disk .nullCharacter) := by
  have start : (if p.isAbsolute then Path.root else Path.here).hasNull = false := by
    split <;> rfl
  have trail : (d.trail passes p).NullFree :=
    resolveWithin_nullFree free start (nullFreeSteps_path null)
  rw [resolvePast]
  split
  next e failed =>
    rw [failed] at trail
    exact fun same => trail (by cases same; rfl)
  next => nofun
  next q done =>
    rw [absolute]
    split <;> nofun

theorem resolveStrict_ne_null (free : d.NullFree) (null : p.hasNull = false) :
    d.resolveStrict p ≠ .error (.disk .nullCharacter) :=
  resolvePast_ne_null free null

end Disk

end FileTags
