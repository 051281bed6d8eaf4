/-
  The entries of a directory that has been found.

  A path to an entry of a directory goes on from where the directory has been found, also if that
  took links or steps out of a removed directory.

  * `Disk.lookup_vacant`: where the directory has no such entry, the path misses it there;
  * `Disk.lookup_sibling`: if a path to one entry is accepted, so is the path to an entry with a
    name of as many bytes.
-/
import FileTags.Proofs.Disk.Growing

namespace FileTags

open Node

/-- What is joined with a last piece ends in it. -/
theorem Text.exists_join_concat {α : Type _} (sep : List α) (pieces : List (List α)) :
    ∃ before, ∀ last, Text.join sep (pieces ++ [last]) = before ++ last := by
  induction pieces with
  | nil => exact ⟨[], fun last => rfl⟩
  | cons piece pieces ih =>
    obtain ⟨before, same⟩ := ih
    refine ⟨piece ++ sep ++ before, fun last => ?_⟩
    obtain ⟨next, rest, cons⟩ := List.exists_cons_of_ne_nil
      (List.append_ne_nil_of_right_ne_nil pieces (List.cons_ne_nil last []))
    rw [List.cons_append, cons, Text.join_cons_cons, ← cons, same]
    simp only [List.append_assoc]

/-- The paths of entries have as many bytes more as their names. -/
theorem Path.exists_size_child (p : Path) :
    ∃ before, ∀ n, (p.child n).toString.utf8ByteSize = before + n.byteSize := by
  obtain ⟨before, same⟩ := Text.exists_join_concat ['/'] (p.names.map (·.text.toList))
  refine ⟨(String.ofList (anchorText p.anchor ++ before)).utf8ByteSize, fun n => ?_⟩
  have ne : p.child n ≠ here := fun same => by simp [child, here] at same
  have pieces : (p.child n).names.map (·.text.toList) =
      p.names.map (·.text.toList) ++ [n.text.toList] := List.map_append
  rw [Path.toString, toChars, if_neg ne, pieces, same, ← List.append_assoc, String.ofList_append,
    String.utf8ByteSize_append, String.ofList_toList]
  rfl

namespace Disk

variable {d : Disk} {p : Path} {loc dir : Location} {n m : Name} {follow : Bool} {spot : Spot}

theorem travel_of_lookup_child (found : d.lookup true p = .ok (.found dir))
    (there : d.top.face? dir = some .dir) (ne : n ≠ Name.up)
    (looked : d.lookup follow (p.child n) = .ok spot) :
    ∃ left, travel d.top follow left dir [.down n] = .ok spot := by
  obtain ⟨null, size⟩ := usable_of_lookup looked
  obtain ⟨left, on⟩ := lookup_child_of_found found there ne null size
  exact ⟨left, (on follow).symm.trans looked⟩

/-- **An entry that a directory does not have** is missed there. -/
theorem lookup_vacant (found : d.lookup true p = .ok (.found dir))
    (there : d.top.face? dir = some .dir) (ne : n ≠ Name.up)
    (vacant : d.top.face? (dir ++ [n]) = none)
    (looked : d.lookup follow (p.child n) = .ok spot) : spot = .absent dir n := by
  obtain ⟨left, walked⟩ := travel_of_lookup_child found there ne looked
  by_cases long : nameLimit < n.byteSize
  · have failed : descend d.top follow dir [.down n] = .failed .nameTooLong := by
      rw [descend_down, if_pos long]
    rw [travel_of_failed failed] at walked
    cases walked
  · have absent : descend d.top follow dir [.down n] = .absent dir n := by
      rw [descend_down, if_neg long, vacant]
      rfl
    rw [travel_of_absent absent] at walked
    cases walked
    rfl

/-- What is missed as an entry of a directory is missed there. -/
theorem eq_of_absent_child (found : d.lookup true p = .ok (.found dir))
    (there : d.top.face? dir = some .dir) (ne : n ≠ Name.up)
    (missed : d.lookup false (p.child n) = .ok (.absent loc m)) : loc = dir ∧ m = n := by
  obtain ⟨left, walked⟩ := travel_of_lookup_child found there ne missed
  rcases descend_last d.top dir n with failed | absent | came
  · rw [travel_of_failed failed] at walked
    cases walked
  · rw [travel_of_absent absent] at walked
    cases walked
    exact ⟨rfl, rfl⟩
  · rw [travel_of_found came] at walked
    cases walked

/-- **An entry whose name has as many bytes** as one that is accepted is found as well. -/
theorem lookup_sibling (found : d.lookup true p = .ok (.found dir))
    (there : d.top.face? dir = some .dir) (accepted : d.lookup follow (p.child n) = .ok spot)
    (ne : m ≠ Name.up) (clean : '\x00' ∉ m.text.toList) (bytes : m.byteSize = n.byteSize)
    (short : m.byteSize ≤ nameLimit) {f : Face} (entry : d.top.face? (dir ++ [m]) = some f)
    (plain : ∀ target, f ≠ .link target) :
    d.lookup follow (p.child m) = .ok (.found (dir ++ [m])) := by
  obtain ⟨null, size⟩ := usable_of_lookup accepted
  have null' : (p.child m).hasNull = false := by
    rw [Path.hasNull_child, Bool.or_eq_false_iff] at null ⊢
    exact ⟨null.1, decide_eq_false clean⟩
  have size' : (p.child m).toString.utf8ByteSize ≤ pathLimit := by
    obtain ⟨before, same⟩ := p.exists_size_child
    rwa [same, bytes, ← same]
  exact lookup_entry found there ne null' size' short entry plain follow

end Disk

end FileTags
