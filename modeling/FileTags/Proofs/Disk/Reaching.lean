/-
  What paths lead to, all links followed.

  A path is followed through a tree step by step: a link is replaced by the location that it leads
  to, seen from its own directory, and a step up takes the last name away.  Links may be nested,
  but a link that leads back to itself leads nowhere.

  * `Node.Reaches` says where some steps lead, with links nested to some depth at most;
    `Reaches.unique`: they lead to one place only;
  * `Disk.ResolvesTo` says what a path leads to;
  * `Disk.tells_resolveWithin`: a path that is resolved is resolved to what it leads to, and
    `Disk.resolveWithin_of_reaches`: a path that leads somewhere is resolved, unless a path on the
    way is too long for the disk.
-/
import FileTags.Proofs.Disk.Leading
import Mathlib.Data.List.Perm.Subperm
import Mathlib.Data.Nat.Find

namespace FileTags

open Node

/-! ## Steps through a tree -/

namespace Node

/-- Steps lead from a location to another one, links being nested to a depth of `k` at most. -/
inductive Reaches (top : Node) : Nat → Location → List Step → Location → Prop
  | nil {k : Nat} {loc : Location} : Reaches top k loc [] loc
  | self {k : Nat} {loc m : Location} {rest : List Step} (on : Reaches top k loc rest m) :
      Reaches top k loc (.self :: rest) m
  | up {k : Nat} {loc m : Location} {rest : List Step} (on : Reaches top k loc.dropLast rest m) :
      Reaches top k loc (.up :: rest) m
  | down {k : Nat} {loc m : Location} {n : Name} {rest : List Step} {f : Face}
      (there : top.face? (loc ++ [n]) = some f) (plain : ∀ target, f ≠ .link target)
      (on : Reaches top k (loc ++ [n]) rest m) : Reaches top k loc (.down n :: rest) m
  | link {k : Nat} {loc l m : Location} {n : Name} {rest : List Step} {target : String}
      (there : top.face? (loc ++ [n]) = some (.link target))
      (inner : Reaches top k (if linkIsAbsolute target then [] else loc) (linkSteps target) l)
      (on : Reaches top (k + 1) l rest m) : Reaches top (k + 1) loc (.down n :: rest) m

variable {top : Node} {j k : Nat} {loc l m : Location} {steps : List Step}

theorem Reaches.mono (reached : Reaches top j loc steps m) (le : j ≤ k) :
    Reaches top k loc steps m := by
  induction reached generalizing k with
  | nil => exact .nil
  | self _ ih => exact .self (ih le)
  | up _ ih => exact .up (ih le)
  | down there plain _ ih => exact .down there plain (ih le)
  | link there _ _ inner on =>
    cases k with
    | zero => cases le
    | succ k => exact .link there (inner (Nat.le_of_succ_le_succ le)) (on le)

/-- **Steps lead to one place** only. -/
theorem Reaches.unique (reached : Reaches top j loc steps l)
    (reached' : Reaches top k loc steps m) : l = m := by
  induction reached generalizing k m with
  | nil =>
    cases reached'
    rfl
  | self _ ih =>
    cases reached' with
    | self on => exact ih on
  | up _ ih =>
    cases reached' with
    | up on => exact ih on
  | down there plain _ ih =>
    cases reached' with
    | down _ _ on => exact ih on
    | link there' _ _ => exact absurd (Option.some.inj (there.symm.trans there')) (plain _)
  | link there _ _ inner on =>
    cases reached' with
    | down there' plain' _ => exact absurd (Option.some.inj (there'.symm.trans there)) (plain' _)
    | link there' inner' on' =>
      cases Option.some.inj (there.symm.trans there')
      obtain rfl := inner inner'
      exact on on'

/-- What the link at a location holds leads somewhere. -/
def Settled (top : Node) (k : Nat) (loc : Location) : Prop :=
  ∃ dir n target l, loc = dir ++ [n] ∧ top.face? loc = some (.link target) ∧
    Reaches top k (if linkIsAbsolute target then [] else dir) (linkSteps target) l

/-! ## The links of a tree -/

mutual

/-- The locations of the links of a tree. -/
def linkPlaces : Node → List Location
  | link _ => [[]]
  | dir es => entryLinkPlaces es
  | _ => []

/-- The locations of the links in some entries. -/
def entryLinkPlaces : List (Name × Node) → List Location
  | [] => []
  | (n, node) :: es => node.linkPlaces.map (n :: ·) ++ entryLinkPlaces es

end

mutual

theorem length_linkPlaces : ∀ node : Node, node.linkPlaces.length = node.linkCount
  | file _ _ _ => rfl
  | device => rfl
  | link _ => rfl
  | dir es => length_entryLinkPlaces es

theorem length_entryLinkPlaces : ∀ es, (entryLinkPlaces es).length = entriesLinkCount es
  | [] => rfl
  | (n, node) :: es => by
    rw [entryLinkPlaces, List.length_append, List.length_map, length_linkPlaces node,
      length_entryLinkPlaces es, entriesLinkCount]

end

variable {node : Node} {n : Name} {es : List (Name × Node)} {target : String}

theorem mem_entryLinkPlaces (found : es.lookup n = some node) (there : loc ∈ node.linkPlaces) :
    n :: loc ∈ entryLinkPlaces es := by
  induction es with
  | nil => cases found
  | cons e es ih =>
    obtain ⟨m, other⟩ := e
    rw [lookup_entry] at found
    rw [entryLinkPlaces, List.mem_append]
    split at found
    · next same =>
      cases found
      exact .inl (List.mem_map.2 ⟨loc, there, by rw [same]⟩)
    · exact .inr (ih found)

theorem mem_linkPlaces (there : top.at? loc = some (.link target)) : loc ∈ top.linkPlaces := by
  induction loc generalizing top with
  | nil =>
    cases there
    exact List.mem_singleton_self _
  | cons n loc ih =>
    rw [at?, Option.bind_eq_some_iff] at there
    obtain ⟨sub, child, there⟩ := there
    obtain ⟨es, rfl⟩ := child?_eq_some child
    exact mem_entryLinkPlaces child (ih there)

end Node

/-! ## Steps that paths and links hold -/

/-- No step down is a step up by its name. -/
def ProperSteps (steps : List Step) : Prop := ∀ n, Step.down n ∈ steps → n ≠ Name.up

theorem ProperSteps.tail {step : Step} {steps : List Step}
    (proper : ProperSteps (step :: steps)) : ProperSteps steps :=
  fun n there => proper n (List.mem_cons_of_mem step there)

theorem properSteps_path (p : Path) : ProperSteps p.steps := by
  intro n there
  obtain ⟨m, -, same⟩ := List.mem_map.1 there
  rw [Step.ofName] at same
  split at same
  · cases same
  · next ne =>
    cases same
    exact ne

theorem properSteps_link (target : String) : ProperSteps (linkSteps target) := by
  intro n there
  obtain ⟨piece, -, same⟩ := List.mem_map.1 there
  rw [Step.ofChars] at same
  cases name : Name.ofChars? piece with
  | none => rw [name] at same; cases same
  | some m =>
    rw [name, Option.elim_some, Step.ofName] at same
    split at same
    · cases same
    · next ne =>
      cases same
      exact ne

namespace Disk

variable {d : Disk} {p q x : Path} {loc l m : Location} {n : Name} {k depth : Nat}
  {passes : DiskError → Bool} {pending : List Path} {places : List Location} {steps : List Step}

/-! ## What is resolved is reached -/

/-- A path leads to a location, all links on the way and at the end followed. -/
def ResolvesTo (d : Disk) (p : Path) (loc : Location) : Prop :=
  ∃ k, Reaches d.top k (d.start p).base p.steps loc

/-- What is known of a path that has been followed: it is resolved to what it leads to, by names
    alone, or there is an entry below such a path that the disk cannot look up. -/
def Tells (d : Disk) (loc : Location) (steps : List Step) : Trail → Prop
  | .done q => ∃ k m, Reaches d.top k loc steps m ∧ d.Leads q m
  | .failed e => ∃ q l n, d.Leads q l ∧ d.lstat (q.child n) = .error e
  | .loop _ => True

theorem Tells.of_same {t : Trail} {rest : List Step} (told : d.Tells l rest t)
    (same : ∀ k m, Reaches d.top k l rest m → Reaches d.top k loc steps m) :
    d.Tells loc steps t := by
  cases t with
  | done q => exact told.imp fun k => Exists.imp fun m both => ⟨same k m both.1, both.2⟩
  | failed e => exact told
  | loop q => trivial

theorem tells_resolveSteps {inner : List Path → Path → List Step → Trail}
    (top : d.top.face = .dir)
    (within : ∀ pending p loc steps, d.Leads p loc → ProperSteps steps →
      d.Tells loc steps (inner pending p steps))
    (leads : d.Leads p loc) (proper : ProperSteps steps) :
    d.Tells loc steps (resolveSteps d (fun _ => false) inner pending p steps) := by
  induction steps generalizing p loc with
  | nil => exact ⟨0, loc, .nil, leads⟩
  | cons step rest ih =>
    have others := proper.tail
    cases step with
    | self => exact (ih leads others).of_same fun k m => .self
    | up => exact (ih leads.stepUp others).of_same fun k m => .up
    | down n =>
      have ne := proper n List.mem_cons_self
      rw [resolveSteps]
      split
      · next e failed => exact ⟨p, loc, n, leads, failed⟩
      · next target found =>
        have there := face?_of_at? (leads.at?_child ne found)
        split
        · trivial
        · have start : d.Leads (if linkIsAbsolute target then .root else p)
              (if linkIsAbsolute target then [] else loc) := by
            split
            · exact .root top
            · exact leads
          have told := within (p.child n :: pending) _ _ _ start (properSteps_link target)
          split
          · next q done =>
            rw [done] at told
            obtain ⟨j, l, inner', leads'⟩ := told
            have told' := ih leads' others
            revert told'
            cases resolveSteps d (fun _ => false) inner pending q rest with
            | done q' =>
              rintro ⟨k, m, reached, leads''⟩
              have deeper := inner'.mono (Nat.le_max_left j k)
              have on := reached.mono ((Nat.le_max_right j k).trans (Nat.le_succ _))
              exact ⟨max j k + 1, m, .link there deeper on, leads''⟩
            | failed e => exact id
            | loop q' => exact id
          · trivial
          · next e failed =>
            rw [failed] at told
            exact told
      · next node plain found =>
        have there := face?_of_at? (leads.at?_child ne found)
        have face : ∀ target, node.face ≠ .link target := fun target same =>
          plain target (face_eq_link.1 same ▸ rfl)
        exact (ih (.down leads ne there face) others).of_same fun k m => .down there face

/-- **What is resolved is reached**, and the resolved path leads there by its names alone. -/
theorem tells_resolveWithin (top : d.top.face = .dir) (leads : d.Leads p loc)
    (proper : ProperSteps steps) :
    d.Tells loc steps (resolveWithin d (fun _ => false) depth pending p steps) := by
  induction depth generalizing pending p loc steps with
  | zero => trivial
  | succ depth ih =>
    exact tells_resolveSteps top (fun pending p loc steps leads proper => ih leads proper) leads
      proper

/-! ## What is reached is resolved -/

theorem Leads.unique (leads : d.Leads p l) (leads' : d.Leads p m) : l = m := by
  have same := Except.ok.inj (leads.absolute.symm.trans leads'.absolute)
  exact congrArg Path.names same

/-- A walk to a directory by names alone goes on, unless a name is too long. -/
theorem Leads.descend_dir (leads : d.Leads p loc) (dir : d.top.face? loc = some .dir)
    (follow : Bool) (rest : List Step) :
    descend d.top follow (d.start p).base (p.steps ++ rest) = descend d.top follow loc rest ∨
    descend d.top follow (d.start p).base (p.steps ++ rest) = .failed .nameTooLong := by
  induction leads generalizing rest with
  | root => exact .inl rfl
  | here => exact .inl rfl
  | @up p loc leads _ ups ih =>
    rw [Path.steps_child_up, List.append_assoc, start_child]
    exact ih (leads.dir_of_ups ups) (.up :: rest)
  | @down p loc n f leads ne there plain ih =>
    rw [Path.steps_child ne, List.append_assoc, start_child, List.singleton_append]
    rcases ih (face?_of_concat there) (.down n :: rest) with on | failed
    · rw [on, descend_down, dir]
      split
      · exact .inr rfl
      · exact .inl rfl
    · exact .inr failed

/-- What there is at an entry is found, unless its path is too long or holds a null character. -/
theorem Leads.lstat_child (leads : d.Leads p loc) (ne : n ≠ Name.up) {f : Face}
    (there : d.top.face? (loc ++ [n]) = some f) :
    (∃ node, d.lstat (p.child n) = .ok node ∧ node.face = f) ∨
    d.lstat (p.child n) = .error .nameTooLong ∨ d.lstat (p.child n) = .error .nullCharacter := by
  by_cases null : (p.child n).hasNull = true
  · right; right
    rw [lstat, Disk.node, Disk.lookup, if_pos null]
  by_cases long : pathLimit < (p.child n).toString.utf8ByteSize
  · right; left
    rw [lstat, Disk.node, Disk.lookup, if_neg null, if_pos long]
  have looked : d.lookup false (p.child n) =
      travel d.top false linkLimit (d.start p).base (p.steps ++ [.down n]) := by
    rw [lookup_eq_travel (p := p.child n) (eq_false_of_ne_true null) (Nat.le_of_not_lt long)
      leads.removed, Path.steps_child ne, start_child]
  have failing : descend d.top false (d.start p).base (p.steps ++ [.down n]) =
      .failed .nameTooLong → d.lstat (p.child n) = .error .nameTooLong := fun failed => by
    rw [lstat, Disk.node, looked, travel_of_failed failed]
  rcases leads.descend_dir (face?_of_concat there) false [.down n] with on | failed
  · rw [descend_down, there] at on
    split at on
    · exact .inr (.inl (failing on))
    · have came : descend d.top false (d.start p).base (p.steps ++ [.down n]) =
          .found (loc ++ [n]) := by
        rw [on]
        cases f <;> rfl
      obtain ⟨node, at_, face⟩ := Option.map_eq_some_iff.1 there
      refine .inl ⟨node, ?_, face⟩
      rw [lstat, Disk.node, looked, travel_of_found came]
      simp only [at_]
  · exact .inr (.inl (failing failed))

/-- What is known of a path that leads to a location: it is resolved to it, or there is a path on
    the way that the disk refuses. -/
def Settles (d : Disk) (m : Location) (t : Trail) : Prop :=
  (∃ q, t = .done q ∧ d.Leads q m) ∨ t = .failed .nameTooLong ∨ t = .failed .nullCharacter

/-- The links that are being resolved, and where they are.  None of them leads anywhere with links
    nested less deep than `k`, so that none of them is met again where they are nested so deep. -/
structure Pending (d : Disk) (k : Nat) (pending : List Path) (places : List Location) : Prop where
  located : ∀ p loc n, p.child n ∈ pending → d.Leads p loc → loc ++ [n] ∈ places
  links : ∀ loc ∈ places, loc ∈ d.top.linkPlaces
  nodup : places.Nodup
  unsettled : ∀ loc ∈ places, ∀ j < k, ¬ Settled d.top j loc

namespace Pending

theorem nil : d.Pending k [] [] := ⟨nofun, nofun, List.nodup_nil, nofun⟩

/-- There are no more of them than links. -/
theorem length_le (w : d.Pending k pending places) : places.length ≤ d.top.linkCount := by
  rw [← length_linkPlaces]
  exact (List.subperm_of_subset w.nodup w.links).length_le

theorem cons {j : Nat} {target : String} (w : d.Pending k pending places) (leads : d.Leads p loc)
    (there : d.top.face? (loc ++ [n]) = some (.link target)) (less : j < k)
    (settled : Settled d.top j (loc ++ [n])) (least : ∀ i < j, ¬ Settled d.top i (loc ++ [n])) :
    d.Pending j (p.child n :: pending) ((loc ++ [n]) :: places) := by
  have fresh : loc ++ [n] ∉ places := fun old => w.unsettled _ old j less settled
  refine ⟨fun p' loc' n' among leads' => ?_, ?_, List.nodup_cons.2 ⟨fresh, w.nodup⟩, ?_⟩
  · rcases List.mem_cons.1 among with same | old
    · obtain ⟨rfl, rfl⟩ := Path.child_inj same
      obtain rfl := leads.unique leads'
      exact List.mem_cons_self
    · exact List.mem_cons_of_mem _ (w.located p' loc' n' old leads')
  · obtain ⟨node, at_, face⟩ := Option.map_eq_some_iff.1 there
    obtain rfl := face_eq_link.1 face
    exact List.forall_mem_cons.2 ⟨mem_linkPlaces at_, w.links⟩
  · exact List.forall_mem_cons.2
      ⟨least, fun old among i below => w.unsettled old among i (below.trans less)⟩

end Pending

/-- How deep links have to be nested at least. -/
theorem exists_least {P : Nat → Prop} (holds : P k) : ∃ j ≤ k, P j ∧ ∀ i < j, ¬ P i := by
  classical
  have some_ : ∃ j, P j := ⟨k, holds⟩
  exact ⟨Nat.find some_, Nat.find_min' some_ holds, Nat.find_spec some_,
    fun i below => Nat.find_min some_ below⟩

/-- **What is reached is resolved**, unless a path on the way is too long or holds a null
    character. -/
theorem resolveWithin_of_reaches (top : d.top.face = .dir) (leads : d.Leads p loc)
    (proper : ProperSteps steps) (reached : Reaches d.top k loc steps m)
    (w : d.Pending k pending places) (enough : d.top.linkCount < depth + places.length) :
    d.Settles m (resolveWithin d (fun _ => false) depth pending p steps) := by
  induction depth generalizing pending places p loc steps k m with
  | zero =>
    have few := w.length_le
    omega
  | succ depth deeper =>
    rw [resolveWithin]
    induction reached generalizing p with
    | nil => exact .inl ⟨p, rfl, leads⟩
    | self _ ih => exact ih leads proper.tail w
    | up _ ih => exact ih leads.stepUp proper.tail w
    | @down k loc m n rest f there plain _ ih =>
      have ne := proper n List.mem_cons_self
      rw [resolveSteps]
      rcases leads.lstat_child ne there with ⟨node, found, rfl⟩ | long | null
      · rw [found]
        cases node with
        | link target => exact absurd rfl (plain target)
        | _ => exact ih (.down leads ne there plain) proper.tail w
      · rw [long]
        exact .inr (.inl rfl)
      · rw [null]
        exact .inr (.inr rfl)
    | @link k loc l m n rest target there inner _ _ on =>
      have ne := proper n List.mem_cons_self
      rw [resolveSteps]
      rcases leads.lstat_child ne there with ⟨node, found, face⟩ | long | null
      · obtain rfl := face_eq_link.1 face
        have settled : Settled d.top k (loc ++ [n]) := ⟨loc, n, target, l, rfl, there, inner⟩
        have fresh : p.child n ∉ pending := fun old =>
          w.unsettled _ (w.located p loc n old leads) k (Nat.lt_succ_self k) settled
        obtain ⟨j, le, settled', least⟩ :=
          exists_least (P := fun i => Settled d.top i (loc ++ [n])) settled
        have w' := w.cons leads there (Nat.lt_succ_of_le le) settled' least
        obtain ⟨dir, n', target', l', same, there', inner'⟩ := settled'
        obtain ⟨rfl, last⟩ := List.append_inj' same rfl
        cases List.singleton_inj.1 last
        cases Option.some.inj (there.symm.trans there')
        obtain rfl := inner.unique inner'
        have start : d.Leads (if linkIsAbsolute target then .root else p)
            (if linkIsAbsolute target then [] else loc) := by
          split
          · exact .root top
          · exact leads
        have below : d.Settles l (resolveWithin d (fun _ => false) depth (p.child n :: pending)
            (if linkIsAbsolute target then .root else p) (linkSteps target)) := by
          refine deeper start (properSteps_link target) inner' w' ?_
          rw [List.length_cons]
          omega
        rw [found]
        simp only [if_neg fresh]
        rcases below with ⟨q, done, leads'⟩ | failed | failed
        · rw [done]
          exact on leads' proper.tail w
        · rw [failed]
          exact .inr (.inl rfl)
        · rw [failed]
          exact .inr (.inr rfl)
      · rw [long]
        exact .inr (.inl rfl)
      · rw [null]
        exact .inr (.inr rfl)

end Disk

end FileTags
