/-
  Paths from a current directory that has been removed.

  The directory that is left of a removed one is reached by steps up.  A path that goes there first
  leads wherever the rest of it leads from there, so that what is known of paths from a directory
  that is in its place is known of such a path as well.

  * `Disk.remnant` has the directory that is left as its current directory, and `Disk.viaUps` is a
    path from there as it reads from the removed one;
  * `Disk.lookup_viaUps`, `Disk.trail_viaUps`: such a path is looked up and followed like the one
    from there, unless it is too long.
-/
import FileTags.Proofs.Disk.Sound

namespace FileTags

open Node

namespace Path

variable {p : Path} {n : Name} {names : List Name} {k : Nat}

/-- A path is at least as long as what is left of it after a step up at its beginning. -/
theorem size_up_le : (⟨.relative, names⟩ : Path).toString.utf8ByteSize ≤
    (⟨.relative, Name.up :: names⟩ : Path).toString.utf8ByteSize := by
  cases names with
  | nil => decide +kernel
  | cons n names =>
    have text : ∀ m ms, (⟨.relative, m :: ms⟩ : Path).toString =
        String.ofList (Text.join ['/'] ((m :: ms).map (·.text.toList))) := by
      intro m ms
      rw [Path.toString, toChars, if_neg (by simp [here])]
      rfl
    rw [text, text, List.map_cons (l := n :: names), List.map_cons, Text.join_cons_cons,
      String.ofList_append, String.utf8ByteSize_append]
    exact Nat.le_add_left _ _

theorem size_ups_le (k : Nat) : (⟨.relative, names⟩ : Path).toString.utf8ByteSize ≤
    (⟨.relative, List.replicate k Name.up ++ names⟩ : Path).toString.utf8ByteSize := by
  induction k with
  | zero => exact Nat.le_refl _
  | succ k ih => exact ih.trans size_up_le

theorem stepUp_child (ne : n ≠ Name.up) : (p.child n).stepUp = p := by
  simp [stepUp, name?, child, parent, ne]

end Path

theorem climb_ups (k : Nat) (steps : List Step) :
    climb k (List.replicate k .up ++ steps) = .ok (0, steps) := by
  induction k with
  | zero => rw [List.replicate_zero, List.nil_append, climb]
  | succ k ih => exact ih

/-- A path that leaves what has been removed starts with steps up. -/
theorem names_of_climb {k : Nat} {names : List Name} {steps : List Step}
    (climbed : climb k (names.map Step.ofName) = .ok (0, steps)) :
    ∃ rest, names = List.replicate k Name.up ++ rest ∧ steps = rest.map Step.ofName := by
  induction k generalizing names with
  | zero =>
    rw [climb] at climbed
    cases climbed
    exact ⟨names, rfl, rfl⟩
  | succ k ih =>
    cases names with
    | nil => cases climbed
    | cons n names =>
      rw [List.map_cons, Step.ofName] at climbed
      split at climbed
      · next up =>
        obtain ⟨rest, same, steps⟩ := ih climbed
        exact ⟨rest, by rw [up, same]; rfl, steps⟩
      · cases climbed

/-- A trail with another reading of its path. -/
def Trail.map (f : Path → Path) : Trail → Trail
  | done p => done (f p)
  | failed e => failed e
  | loop p => loop (f p)

namespace Disk

variable {d : Disk} {p q : Path} {loc : Location} {n : Name} {follow : Bool}
  {passes : DiskError → Bool} {pending : List Path} {steps : List Step}

/-! ## The directory that is left -/

/-- The disk with what is left of the current directory as its current directory. -/
def remnant (d : Disk) : Disk := { d with current := ⟨d.current.base, 0⟩ }

/-- A path from the directory that is left, as it reads from the current one. -/
def viaUps (d : Disk) (p : Path) : Path :=
  if p.isAbsolute then p else ⟨.relative, List.replicate d.current.removed Name.up ++ p.names⟩

theorem viaUps_absolute (absolute : p.isAbsolute = true) : d.viaUps p = p := if_pos absolute

theorem viaUps_relative (names : List Name) : d.viaUps ⟨.relative, names⟩ =
    ⟨.relative, List.replicate d.current.removed Name.up ++ names⟩ := rfl

theorem isAbsolute_viaUps : (d.viaUps p).isAbsolute = p.isAbsolute := by
  rw [viaUps]
  split
  · rfl
  · next relative => exact (eq_false_of_ne_true relative).symm

/-- A path starts at the top, or it is only names. -/
theorem eq_relative (relative : p.isAbsolute = false) : p = ⟨.relative, p.names⟩ := by
  obtain ⟨anchor, names⟩ := p
  cases anchor with
  | relative => rfl
  | root => cases relative
  | doubleRoot => cases relative

theorem viaUps_inj : d.viaUps p = d.viaUps q ↔ p = q := by
  refine ⟨fun same => ?_, congrArg d.viaUps⟩
  have kinds : p.isAbsolute = q.isAbsolute := by
    rw [← isAbsolute_viaUps (d := d), same, isAbsolute_viaUps]
  cases absolute : p.isAbsolute with
  | true => rwa [viaUps_absolute absolute, viaUps_absolute (kinds ▸ absolute)] at same
  | false =>
    have relative : q.isAbsolute = false := kinds ▸ absolute
    rw [eq_relative absolute, eq_relative relative] at same ⊢
    rw [viaUps_relative, viaUps_relative] at same
    rw [List.append_cancel_left (Path.mk.inj same).2]

theorem viaUps_child : d.viaUps (p.child n) = (d.viaUps p).child n := by
  cases absolute : p.isAbsolute with
  | true => rw [viaUps_absolute absolute, viaUps_absolute (p := p.child n) absolute]
  | false =>
    rw [eq_relative absolute, viaUps_relative, Path.child, viaUps_relative, Path.child,
      List.append_assoc]

theorem viaUps_stepUp : d.viaUps p.stepUp = (d.viaUps p).stepUp := by
  cases absolute : p.isAbsolute with
  | true =>
    rw [viaUps_absolute absolute, viaUps_absolute (Path.isAbsolute_stepUp.trans absolute)]
  | false =>
    rcases List.eq_nil_or_concat' p.names with empty | ⟨names, n, last⟩
    · rw [eq_relative absolute, empty]
      have ups : ∀ m ∈ (d.viaUps ⟨.relative, []⟩).names, m = Name.up := fun m there => by
        rw [viaUps_relative, List.append_nil] at there
        exact List.eq_of_mem_replicate there
      rw [Path.stepUp_of_ups (p := ⟨.relative, []⟩) rfl nofun, viaUps_child,
        Path.stepUp_of_ups (isAbsolute_viaUps.trans rfl) ups]
    · have parts : p = (⟨.relative, names⟩ : Path).child n := by
        rw [eq_relative absolute, last]
        rfl
      rw [parts, viaUps_child]
      by_cases up : n = Name.up
      · subst up
        have twice : ∀ q : Path, (q.child Name.up).stepUp = (q.child Name.up).child Name.up := by
          intro q
          simp [Path.stepUp, Path.name?, Path.child]
        rw [twice, twice, viaUps_child, viaUps_child]
      · rw [Path.stepUp_child up, Path.stepUp_child up]

theorem foldl_viaUps (steps : List Step) (p : Path) :
    steps.foldl Path.step (d.viaUps p) = d.viaUps (steps.foldl Path.step p) := by
  induction steps generalizing p with
  | nil => rfl
  | cons step rest ih =>
    cases step with
    | self => exact ih p
    | up => exact (congrArg (rest.foldl Path.step) viaUps_stepUp.symm).trans (ih p.stepUp)
    | down n => exact (congrArg (rest.foldl Path.step) viaUps_child.symm).trans (ih (p.child n))

theorem mem_viaUps : (d.viaUps p) ∈ pending.map d.viaUps ↔ p ∈ pending := by
  simp [viaUps_inj]

/-- The directory that is left is where its location says. -/
theorem Sound.placed_remnant (sound : d.Sound) : d.remnant.Placed :=
  ⟨rfl, sound.grounded, sound.plain sound.grounded⟩

/-! ## Looking up -/

theorem hasNull_viaUps : (d.viaUps p).hasNull = p.hasNull := by
  cases absolute : p.isAbsolute with
  | true => rw [viaUps_absolute absolute]
  | false =>
    have ups : (List.replicate d.current.removed Name.up).any ('\x00' ∈ ·.text.toList) = false := by
      rw [List.any_eq_false]
      intro m there
      rw [List.eq_of_mem_replicate there]
      decide
    rw [eq_relative absolute, viaUps_relative, Path.hasNull, List.any_append, ups, Bool.false_or]
    rfl

theorem size_viaUps_le : p.toString.utf8ByteSize ≤ (d.viaUps p).toString.utf8ByteSize := by
  cases absolute : p.isAbsolute with
  | true => rw [viaUps_absolute absolute]
  | false =>
    rw [eq_relative absolute, viaUps_relative]
    exact Path.size_ups_le d.current.removed

theorem lookup_remnant (absolute : p.isAbsolute = true) :
    d.remnant.lookup follow p = d.lookup follow p := by
  have start : d.remnant.start p = d.start p := by
    rw [start, start, if_pos absolute, if_pos absolute]
  rw [lookup, lookup, start]
  rfl

/-- **A path out of a removed directory** is looked up like the rest of it, unless it is too
    long. -/
theorem lookup_viaUps (follow : Bool) (p : Path) :
    d.lookup follow (d.viaUps p) = d.remnant.lookup follow p ∨
      d.lookup follow (d.viaUps p) = .error .nameTooLong := by
  cases absolute : p.isAbsolute with
  | true => exact .inl (by rw [viaUps_absolute absolute, lookup_remnant absolute])
  | false =>
    have null := hasNull_viaUps (d := d) (p := p)
    have le := size_viaUps_le (d := d) (p := p)
    have start : d.start (d.viaUps p) = d.current := by
      rw [Disk.start, isAbsolute_viaUps, absolute]
      rfl
    have start' : d.remnant.start p = ⟨d.current.base, 0⟩ := by
      rw [Disk.start, absolute]
      rfl
    have steps : (d.viaUps p).steps = List.replicate d.current.removed .up ++ p.steps := by
      rw [eq_relative absolute, viaUps_relative, Path.steps, List.map_append, List.map_replicate]
      rfl
    rw [lookup, lookup, null]
    split
    · exact .inl rfl
    · by_cases long : pathLimit < (d.viaUps p).toString.utf8ByteSize
      · right
        rw [if_pos long]
      · left
        rw [if_neg long, if_neg fun longer => long (Nat.lt_of_lt_of_le longer le), start, start',
          steps]
        simp only [climb_ups, climb]
        rfl

/-- A path that is found leaves what has been removed. -/
theorem exists_viaUps (found : d.lookup follow p = .ok (.found loc)) :
    ∃ q, p = d.viaUps q ∧ d.remnant.lookup follow q = .ok (.found loc) := by
  obtain ⟨q, rfl⟩ : ∃ q, p = d.viaUps q := by
    cases absolute : p.isAbsolute with
    | true => exact ⟨p, (viaUps_absolute absolute).symm⟩
    | false =>
      have start : d.start p = d.current := by rw [start, absolute]; rfl
      obtain ⟨-, -, ⟨steps, climbed, -⟩ | ⟨k, steps, -, same⟩⟩ := lookup_cases found
      · rw [start] at climbed
        obtain ⟨rest, names, -⟩ := names_of_climb climbed
        exact ⟨⟨.relative, rest⟩, by rw [eq_relative absolute, names, viaUps_relative]⟩
      · cases same
  refine ⟨q, rfl, ?_⟩
  rcases lookup_viaUps (d := d) follow q with same | long
  · exact same.symm.trans found
  · rw [long] at found
    cases found

theorem lstat_viaUps : d.lstat (d.viaUps p) = d.remnant.lstat p ∨
    d.lstat (d.viaUps p) = .error .nameTooLong := by
  rcases lookup_viaUps (d := d) false p with same | long
  · left
    rw [lstat, lstat, Disk.node, Disk.node, same]
    rfl
  · right
    rw [lstat, Disk.node, long]

/-! ## Resolving -/

/-- Two trails are the same, read from the directory that is left and from the removed one, unless
    the one from there has come to a path that is too long. -/
def SameTrail (d : Disk) (far near : Trail) : Prop :=
  far = near.map d.viaUps ∨ far = .failed .nameTooLong

theorem resolveSteps_viaUps (stops : passes .nameTooLong = false)
    {far near : List Path → Path → List Step → Trail}
    (within : ∀ pending p steps,
      d.SameTrail (far (pending.map d.viaUps) (d.viaUps p) steps) (near pending p steps))
    (pending : List Path) (p : Path) (steps : List Step) :
    d.SameTrail (resolveSteps d passes far (pending.map d.viaUps) (d.viaUps p) steps)
      (resolveSteps d.remnant passes near pending p steps) := by
  induction steps generalizing p with
  | nil => exact .inl rfl
  | cons step rest ih =>
    cases step with
    | self => exact ih p
    | up =>
      rw [resolveSteps, resolveSteps, ← viaUps_stepUp]
      exact ih p.stepUp
    | down n =>
      rw [resolveSteps, resolveSteps, ← viaUps_child]
      rcases lstat_viaUps (d := d) (p := p.child n) with same | long
      · rw [same]
        cases d.remnant.lstat (p.child n) with
        | error e =>
          dsimp only
          split
          · exact ih (p.child n)
          · exact .inl rfl
        | ok node =>
          cases node with
          | link target =>
            simp only [mem_viaUps]
            split
            · exact .inl (congrArg Trail.loop (foldl_viaUps rest (p.child n)))
            · have start : (if linkIsAbsolute target then .root else d.viaUps p) =
                  d.viaUps (if linkIsAbsolute target then .root else p) := by
                split <;> rfl
              rw [start, ← List.map_cons]
              rcases within (p.child n :: pending) (if linkIsAbsolute target then .root else p)
                (linkSteps target) with inside | refused
              · rw [inside]
                cases near (p.child n :: pending) (if linkIsAbsolute target then .root else p)
                  (linkSteps target) with
                | done q => exact ih q
                | failed e => exact .inl rfl
                | loop q => exact .inl (congrArg Trail.loop (foldl_viaUps rest q))
              · rw [refused]
                exact .inr rfl
          | _ => exact ih (p.child n)
      · rw [long]
        dsimp only
        rw [stops]
        exact .inr rfl

/-- **A path out of a removed directory** is resolved like the rest of it, unless a path on the way
    is too long. -/
theorem resolveWithin_viaUps (stops : passes .nameTooLong = false) (depth : Nat)
    (pending : List Path) (p : Path) (steps : List Step) :
    d.SameTrail (resolveWithin d passes depth (pending.map d.viaUps) (d.viaUps p) steps)
      (resolveWithin d.remnant passes depth pending p steps) := by
  induction depth generalizing pending p steps with
  | zero => exact .inl rfl
  | succ depth ih => exact resolveSteps_viaUps stops ih pending p steps

theorem resolveSteps_ups {inner : List Path → Path → List Step → Trail} (j k : Nat)
    (rest : List Step) :
    resolveSteps d passes inner pending ⟨.relative, List.replicate j Name.up⟩
      (List.replicate k .up ++ rest) =
    resolveSteps d passes inner pending ⟨.relative, List.replicate (j + k) Name.up⟩ rest := by
  induction k generalizing j with
  | zero => rfl
  | succ k ih =>
    have ups : ∀ m ∈ List.replicate j Name.up, m = Name.up := fun m => List.eq_of_mem_replicate
    rw [List.replicate_succ, List.cons_append, resolveSteps,
      Path.stepUp_of_ups (p := ⟨.relative, _⟩) rfl ups, Path.child, ← List.replicate_succ', ih,
      Nat.succ_add_eq_add_succ]

/-- **A path out of a removed directory** is followed like the rest of it, unless a path on the way
    is too long. -/
theorem trail_viaUps (stops : passes .nameTooLong = false) (p : Path) :
    d.SameTrail (d.trail passes (d.viaUps p)) (resolveWithin d.remnant passes d.nesting []
      (if p.isAbsolute then .root else .here) p.steps) := by
  have same := resolveWithin_viaUps (d := d) stops d.nesting []
    (if p.isAbsolute then .root else .here) p.steps
  rw [trail, isAbsolute_viaUps]
  cases absolute : p.isAbsolute with
  | true =>
    rw [absolute] at same
    rwa [viaUps_absolute absolute]
  | false =>
    rw [absolute] at same
    have steps : (d.viaUps p).steps = List.replicate d.current.removed .up ++ p.steps := by
      rw [eq_relative absolute, viaUps_relative, Path.steps, List.map_append, List.map_replicate]
      rfl
    have here : d.viaUps .here = ⟨.relative, List.replicate d.current.removed Name.up⟩ := by
      rw [Path.here, viaUps_relative, List.append_nil]
    rw [if_neg Bool.false_ne_true, here] at same
    have on : resolveWithin d passes d.nesting [] .here
        (List.replicate d.current.removed .up ++ p.steps) = resolveWithin d passes d.nesting []
          ⟨.relative, List.replicate (0 + d.current.removed) Name.up⟩ p.steps :=
      resolveSteps_ups 0 d.current.removed p.steps
    rwa [steps, if_neg Bool.false_ne_true, on, Nat.zero_add]

end Disk

end FileTags
