/-
  Where walks lead.

  * `descend_within`, `travel_within`, `Disk.present_within`: what is found on a tree is found at
    the same place on a tree with more in it;
  * `DiskError.OfWalk` are the errors with which a walk ends, `travel_failed`;
  * `travel_append`: a walk to a directory goes on from there.
-/
import FileTags.Proofs.Disk.Trees

namespace FileTags

open Node

/-! ## Walks on a tree with more in it -/

section
variable {s t top : Node} {follow : Bool} {loc l dir : Location} {steps rest more : List Step}
  {target : String} {n : Name} {budget : Nat} {e : DiskError}

/-- A walk sees the faces of a tree. -/
theorem descend_down : descend top follow loc (.down n :: rest) =
    if nameLimit < n.byteSize then .failed .nameTooLong
    else match top.face? (loc ++ [n]) with
      | none => if rest.isEmpty then .absent loc n else .failed .notFound
      | some .dir => descend top follow (loc ++ [n]) rest
      | some (.link target) =>
        if rest.isEmpty && !follow then .found (loc ++ [n]) else .link loc target rest
      | some .leaf => if rest.isEmpty then .found (loc ++ [n]) else .failed .notDirectory := by
  rw [descend, face?]
  cases top.at? (loc ++ [n]) with
  | none => rfl
  | some node => cases node <;> rfl

theorem descend_last (top : Node) (loc : Location) (n : Name) :
    descend top false loc [.down n] = .failed .nameTooLong ∨
    descend top false loc [.down n] = .absent loc n ∨
    descend top false loc [.down n] = .found (loc ++ [n]) := by
  rw [descend_down]
  split
  · exact .inl rfl
  · split
    · exact .inr (.inl rfl)
    · exact .inr (.inr rfl)
    · exact .inr (.inr rfl)
    · exact .inr (.inr rfl)

/-- A walk ends at an entry that is no link. -/
theorem descend_entry (short : n.byteSize ≤ nameLimit) {f : Face}
    (entry : top.face? (loc ++ [n]) = some f) (plain : ∀ target, f ≠ .link target) :
    descend top follow loc [.down n] = .found (loc ++ [n]) := by
  rw [descend_down, if_neg (Nat.not_lt.2 short), entry]
  cases f with
  | dir => rfl
  | link target => exact absurd rfl (plain target)
  | leaf => rfl

/-- A walk has come somewhere: to its end, or to a link. -/
def Arrival.Hits : Arrival → Prop
  | .found _ => True
  | .link _ _ _ => True
  | _ => False

theorem descend_within (w : Within s t) (hits : (descend s follow loc steps).Hits) :
    descend t follow loc steps = descend s follow loc steps := by
  induction steps generalizing loc with
  | nil => rfl
  | cons step rest ih =>
    cases step with
    | self => exact ih hits
    | up => exact ih hits
    | down n =>
      rw [descend_down] at hits
      rw [descend_down, descend_down]
      split at hits
      · cases hits
      · next short =>
        rw [if_neg short, if_neg short]
        cases there : s.face? (loc ++ [n]) with
        | none =>
          rw [there] at hits
          cases rest <;> cases hits
        | some f =>
          rw [there] at hits
          rw [w _ f there]
          cases f with
          | dir => exact ih hits
          | link target => rfl
          | leaf => rfl

theorem travel_of_found (came : descend top follow loc steps = .found l) :
    travel top follow budget loc steps = .ok (.found l) := by
  rw [travel, came]

theorem travel_of_failed (came : descend top follow loc steps = .failed e) :
    travel top follow budget loc steps = .error e := by
  rw [travel, came]

theorem travel_of_absent (came : descend top follow loc steps = .absent dir n) :
    travel top follow budget loc steps = .ok (.absent dir n) := by
  rw [travel, came]

/-- The place to go on from where a link stands. -/
theorem travel_of_link (came : descend top follow loc steps = .link dir target rest) :
    travel top follow (budget + 1) loc steps =
      travel top follow budget (if linkIsAbsolute target then [] else dir)
        (linkSteps target ++ rest) := by
  rw [travel, came]

theorem travel_found_cases (found : travel top follow budget loc steps = .ok (.found l)) :
    descend top follow loc steps = .found l ∨
    ∃ left dir target rest, budget = left + 1 ∧
      descend top follow loc steps = .link dir target rest ∧
      travel top follow left (if linkIsAbsolute target then [] else dir)
        (linkSteps target ++ rest) = .ok (.found l) := by
  rw [travel] at found
  cases came : descend top follow loc steps with
  | found l' =>
    rw [came] at found
    cases found
    exact .inl rfl
  | absent dir n => rw [came] at found; cases found
  | failed e => rw [came] at found; cases found
  | link dir target rest =>
    rw [came] at found
    cases budget with
    | zero => cases found
    | succ left => exact .inr ⟨left, dir, target, rest, rfl, rfl, found⟩

theorem travel_ne_removed {w : Whereabouts} :
    travel top follow budget loc steps ≠ .ok (.removed w) := by
  induction budget generalizing loc steps with
  | zero =>
    rw [travel]
    cases descend top follow loc steps <;> nofun
  | succ budget ih =>
    cases came : descend top follow loc steps with
    | found l => rw [travel_of_found came]; nofun
    | absent dir n => rw [travel_of_absent came]; nofun
    | failed e => rw [travel_of_failed came]; nofun
    | link dir target rest => rw [travel_of_link came]; exact ih

theorem travel_within (w : Within s t) (found : travel s follow budget loc steps = .ok (.found l)) :
    travel t follow budget loc steps = .ok (.found l) := by
  induction budget generalizing loc steps with
  | zero =>
    rcases travel_found_cases found with came | ⟨left, dir, target, rest, none, -⟩
    · exact travel_of_found ((descend_within w (came ▸ trivial)).trans came)
    · cases none
  | succ budget ih =>
    rcases travel_found_cases found with came | ⟨left, dir, target, rest, same, came, on⟩
    · exact travel_of_found ((descend_within w (came ▸ trivial)).trans came)
    · cases same
      rw [travel_of_link ((descend_within w (came ▸ trivial)).trans came)]
      exact ih on

/-! ## Errors -/

/-- The errors with which a walk ends. -/
def DiskError.OfWalk (e : DiskError) : Prop :=
  e = .notFound ∨ e = .notDirectory ∨ e = .tooManyLinks ∨ e = .nameTooLong

instance (e : DiskError) : Decidable e.OfWalk := inferInstanceAs (Decidable (_ ∨ _ ∨ _ ∨ _))

/-- They say no more than that there is nothing, or that a name is too long. -/
theorem DiskError.OfWalk.isMiss_or (walk : e.OfWalk) : e.isMiss = true ∨ e = .nameTooLong := by
  rcases walk with rfl | rfl | rfl | rfl
  · exact .inl rfl
  · exact .inl rfl
  · exact .inl rfl
  · exact .inr rfl

theorem descend_failed (failed : descend top follow loc steps = .failed e) : e.OfWalk := by
  fun_induction descend top follow loc steps
  case case2 ih | case3 ih | case7 ih => exact ih failed
  all_goals
    cases failed
    try decide

theorem travel_failed (failed : travel top follow budget loc steps = .error e) : e.OfWalk := by
  induction budget generalizing loc steps with
  | zero =>
    rw [travel] at failed
    split at failed
    · cases failed
    · cases failed
    next came =>
      cases failed
      exact descend_failed came
    · cases failed
      decide
  | succ budget ih =>
    rw [travel] at failed
    split at failed
    · cases failed
    · cases failed
    next came =>
      cases failed
      exact descend_failed came
    · exact ih failed

theorem climb_failed {removed : Nat} (failed : climb removed steps = .error e) : e.OfWalk := by
  fun_induction climb removed steps
  case case3 ih | case4 ih => exact ih failed
  case case5 =>
    cases failed
    split <;> decide
  all_goals cases failed

/-! ## Walks that go on -/

theorem descend_append_of_found (came : descend top true loc steps = .found l)
    (there : top.face? l = some .dir) :
    descend top follow loc (steps ++ more) = descend top follow l more := by
  induction steps generalizing loc with
  | nil =>
    cases came
    rfl
  | cons step rest ih =>
    cases step with
    | self => exact ih came
    | up => exact ih came
    | down n =>
      rw [List.cons_append, descend_down]
      rw [descend_down] at came
      split at came
      · cases came
      · next short =>
        rw [if_neg short]
        cases face : top.face? (loc ++ [n]) with
        | none => rw [face] at came; cases rest <;> cases came
        | some f =>
          rw [face] at came
          cases f with
          | dir => exact ih came
          | link target => simp at came
          | leaf =>
            cases rest with
            | nil =>
              cases came
              rw [there] at face
              cases face
            | cons step rest => cases came

theorem descend_append_of_link (came : descend top true loc steps = .link dir target rest)
    (ne : more ≠ []) :
    descend top follow loc (steps ++ more) = .link dir target (rest ++ more) := by
  induction steps generalizing loc with
  | nil => cases came
  | cons step steps ih =>
    cases step with
    | self => exact ih came
    | up => exact ih came
    | down n =>
      rw [List.cons_append, descend_down]
      rw [descend_down] at came
      split at came
      · cases came
      · next short =>
        rw [if_neg short]
        cases face : top.face? (loc ++ [n]) with
        | none => rw [face] at came; cases steps <;> cases came
        | some f =>
          rw [face] at came
          cases f with
          | dir => exact ih came
          | link target =>
            simp only [Bool.not_true, Bool.and_false, Bool.false_eq_true, if_false] at came
            cases came
            simp [ne]
          | leaf => cases steps <;> cases came

/-- **A walk to a directory goes on** from there, with the links that are left to follow. -/
theorem travel_append (found : travel top true budget loc steps = .ok (.found dir))
    (there : top.face? dir = some .dir) (ne : more ≠ []) :
    ∃ left, ∀ follow, travel top follow budget loc (steps ++ more) =
      travel top follow left dir more := by
  induction budget generalizing loc steps with
  | zero =>
    rcases travel_found_cases found with ended | ⟨left, dir, target, rest, none, -⟩
    · refine ⟨0, fun follow => ?_⟩
      rw [travel, travel, descend_append_of_found ended there]
    · cases none
  | succ budget ih =>
    rcases travel_found_cases found with ended | ⟨left, dir', target, rest, same, linked, on⟩
    · refine ⟨budget + 1, fun follow => ?_⟩
      rw [travel, travel, descend_append_of_found ended there]
    · cases same
      obtain ⟨left, further⟩ := ih on
      refine ⟨left, fun follow => ?_⟩
      rw [travel_of_link (descend_append_of_link linked ne), ← List.append_assoc, further]

/-- What climbs out of removed directories does so whatever follows. -/
theorem climb_append {removed : Nat} (climbed : climb removed steps = .ok (0, rest)) :
    climb removed (steps ++ more) = .ok (0, rest ++ more) := by
  induction steps generalizing removed with
  | nil =>
    cases removed with
    | zero =>
      rw [climb] at climbed ⊢
      cases climbed
      rfl
    | succ removed => cases climbed
  | cons step steps ih =>
    cases removed with
    | zero =>
      rw [climb] at climbed ⊢
      cases climbed
      rfl
    | succ removed =>
      cases step with
      | self => exact ih climbed
      | up => exact ih climbed
      | down n => cases climbed

end

namespace Disk

variable {d d' : Disk} {p : Path} {follow : Bool} {loc : Location} {node : Node} {n : Name}

/-! ## Paths on a disk with more in it -/

theorem lookup_of_node (there : d.node follow p = .ok node) :
    (∃ loc, d.lookup follow p = .ok (.found loc) ∧ d.top.at? loc = some node) ∨
    ∃ w, d.lookup follow p = .ok (.removed w) ∧ node = .dir [] := by
  rw [Disk.node] at there
  split at there
  · cases there
  · cases there
  · next w removed =>
    cases there
    exact .inr ⟨w, removed, rfl⟩
  · next loc found =>
    split at there
    · cases there
    · next sub at_ =>
      cases there
      exact .inl ⟨loc, found, at_⟩

theorem lookup_within (w : Within d.top d'.top) (same : d'.start p = d.start p)
    (there : d.node follow p = .ok node) : d'.lookup follow p = d.lookup follow p := by
  have spots := lookup_of_node there
  rw [lookup] at spots
  rw [lookup, lookup, same]
  split
  · rfl
  · next null =>
    rw [if_neg null] at spots
    split
    · rfl
    · next long =>
      rw [if_neg long] at spots
      dsimp only at spots ⊢
      split
      · rfl
      · next steps climbed =>
        rw [climbed] at spots
        rcases spots with ⟨loc, found, -⟩ | ⟨w', removed, -⟩
        · exact (travel_within w found).trans found.symm
        · exact absurd removed travel_ne_removed
      · rfl

theorem node_within (w : Within d.top d'.top) (same : d'.start p = d.start p)
    (there : d.node follow p = .ok node) :
    ∃ node', d'.node follow p = .ok node' ∧ node'.face = node.face := by
  have spots := lookup_within w same there
  rcases lookup_of_node there with ⟨loc, found, at_⟩ | ⟨out, removed, rfl⟩
  · have faces := w loc node.face (face?_of_at? at_)
    obtain ⟨node', at_', face⟩ := Option.map_eq_some_iff.1 faces
    exact ⟨node', by simp only [Disk.node, spots, found, at_'], face⟩
  · exact ⟨.dir [], by simp only [Disk.node, spots, removed], rfl⟩

theorem present_iff : d.present p = .ok true ↔ ∃ node, d.stat p = .ok node := by
  rw [present, leadsTo]
  cases d.stat p with
  | ok node => simp
  | error e => cases e <;> simp [DiskError.isMiss]

theorem isDir_iff : d.isDir p = .ok true ↔ ∃ node, d.stat p = .ok node ∧ node.face = .dir := by
  rw [isDir, leadsTo]
  cases d.stat p with
  | ok node => simp [isDir_iff_face]
  | error e => cases e <;> simp [DiskError.isMiss]

theorem present_within (w : Within d.top d'.top) (same : d'.start p = d.start p)
    (there : d.present p = .ok true) : d'.present p = .ok true := by
  obtain ⟨node, found⟩ := present_iff.1 there
  obtain ⟨node', found', -⟩ := node_within w same found
  exact present_iff.2 ⟨node', found'⟩

end Disk

end FileTags
