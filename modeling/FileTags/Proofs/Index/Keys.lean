/-
  Spellings of a path, and the one that is stored.

  The key of a path, as it is written, is the text of the path: empty components and components `.`
  are dropped, `..` stays, as do exactly two leading slashes, and nothing is left of a path but `.`
  if it has neither slashes in front nor components.

  * `Path.toList_key`: how a key is made from a text;
  * `Path.key_key`: a key is its own key;
  * `Path.key_eq_iff`: two texts have the same key if they have the same slashes in front and the
    same components;
  * `Index.run_keyed`: updates see the keys of their paths only;
  * `Index.keys_address_files`: in every state that updates lead to, a record is found by the text
    of its path, and by every other text with that key.
-/
import FileTags.Proofs.Index.Reading
import FileTags.Proofs.Index.Run

namespace FileTags

open Text

/-! ## Keys -/

namespace Path

/-- The stored form of a path, as it is written. -/
def key (text : String) : String := (Path.ofString text).toString

/-- The slashes in front that are kept: none, or two, or one for any other number. -/
def rootOf (cs : List Char) : List Char :=
  match (cs.takeWhile (· == '/')).length with
  | 0 => []
  | 2 => ['/', '/']
  | _ => ['/']

/-- The components that are kept: what stands between slashes, unless it is empty or `.`. -/
def componentsOf (cs : List Char) : List (List Char) :=
  (splitOn '/' cs).filter fun piece => piece ≠ [] ∧ piece ≠ ['.']

variable {cs : List Char} {s t text : String}

theorem anchorText_anchorOf (cs : List Char) : anchorText (anchorOf cs) = rootOf cs := by
  simp only [anchorOf, rootOf]
  cases (cs.takeWhile (· == '/')).length with
  | zero => rfl
  | succ n =>
    cases n with
    | zero => rfl
    | succ n => cases n <;> rfl

theorem filterMap_ofChars? {pieces : List (List Char)} (free : ∀ piece ∈ pieces, '/' ∉ piece) :
    (pieces.filterMap Name.ofChars?).map (·.text.toList) =
      pieces.filter fun piece => piece ≠ [] ∧ piece ≠ ['.'] := by
  induction pieces with
  | nil => rfl
  | cons piece pieces ih =>
    obtain ⟨first, others⟩ := List.forall_mem_cons.1 free
    by_cases kept : piece ≠ [] ∧ piece ≠ ['.']
    · have isName : IsName piece := ⟨kept.1, kept.2, first⟩
      rw [List.filter_cons_of_pos (by simpa using kept), ← ih others]
      simp [Name.ofChars?, isName]
    · have noName : ¬IsName piece := fun h => kept ⟨h.1, h.2.1⟩
      rw [List.filter_cons_of_neg (by simpa using kept), ← ih others]
      simp [Name.ofChars?, noName]

/-- The components of the path that a text denotes. -/
theorem map_names_ofChars (cs : List Char) :
    (ofChars cs).names.map (·.text.toList) = componentsOf cs :=
  filterMap_ofChars? fun _ => not_mem_of_mem_splitOn

theorem ofChars_eq_here_iff : ofChars cs = here ↔ rootOf cs = [] ∧ componentsOf cs = [] := by
  rw [← anchorText_anchorOf, ← map_names_ofChars, List.map_eq_nil_iff]
  constructor
  · intro same
    have anchor : anchorOf cs = .relative := congrArg Path.anchor same
    exact ⟨anchor ▸ rfl, congrArg Path.names same⟩
  · rintro ⟨root, names⟩
    have anchor : anchorOf cs = .relative := anchorText_injective root
    cases h : ofChars cs with
    | mk a ns =>
      rw [h] at names
      rw [show a = anchorOf cs from (congrArg Path.anchor h).symm, anchor]
      exact congrArg (Path.mk .relative) names

/-- **How a key is made**: the slashes in front, then the components with single slashes between
    them, and `.` where neither is left. -/
theorem toList_key (text : String) :
    (key text).toList =
      if rootOf text.toList = [] ∧ componentsOf text.toList = [] then ['.']
      else rootOf text.toList ++ Text.join ['/'] (componentsOf text.toList) := by
  rw [key, Path.toString, String.toList_ofList, toChars]
  simp only [ofString, ofChars_eq_here_iff, map_names_ofChars]
  rw [show (ofChars text.toList).anchor = anchorOf text.toList from rfl, anchorText_anchorOf]

/-- **A key is its own key.** -/
@[simp] theorem key_key (text : String) : key (key text) = key text := by
  rw [key, key, ofString_toString]

@[simp] theorem ofString_key (text : String) : Path.ofString (key text) = .ofString text := by
  rw [key, ofString_toString]

theorem key_eq_iff_ofString : key s = key t ↔ Path.ofString s = .ofString t :=
  Path.toString_injective.eq_iff

/-- Texts of the same path have the same slashes in front and the same components. -/
theorem key_eq_iff :
    key s = key t ↔
      rootOf s.toList = rootOf t.toList ∧ componentsOf s.toList = componentsOf t.toList := by
  rw [key_eq_iff_ofString]
  constructor
  · intro same
    rw [← anchorText_anchorOf, ← anchorText_anchorOf, ← map_names_ofChars, ← map_names_ofChars]
    exact ⟨congrArg (anchorText ·.anchor) same, congrArg (·.names.map (·.text.toList)) same⟩
  · rintro ⟨root, components⟩
    have keys : key s = key t := by
      apply String.toList_injective
      rw [toList_key, toList_key, root, components]
    exact key_eq_iff_ofString.1 keys

end Path

/-! ## Updates at other spellings of their paths -/

/-- An update at the keys of its paths. -/
def Update.keyed : Update → Update
  | .add path tag => .add (Path.key path) tag
  | .remove path tag => .remove (Path.key path) tag
  | .removeFile path => .removeFile (Path.key path)
  | .move old new => .move (Path.key old) (Path.key new)

namespace Index

variable {ix : Index} {us vs : List Update} {s t : String}

theorem perform_keyed (ix : Index) (u : Update) : ix.perform u.keyed = ix.perform u := by
  cases u <;> simp only [Update.keyed, perform, Path.ofString_key]

/-- **A run sees the keys of its paths only.** -/
theorem run_keyed (ix : Index) (us : List Update) : ix.run (us.map Update.keyed) = ix.run us := by
  induction us generalizing ix with
  | nil => rfl
  | cons u us ih =>
    have rest := ih (ix.perform u).2
    simp only [run] at rest
    simp only [run, List.map_cons, runUpdates, perform_keyed, rest]

theorem run_congr (same : us.map Update.keyed = vs.map Update.keyed) : ix.run us = ix.run vs := by
  rw [← run_keyed ix us, same, run_keyed]

theorem nodup_texts (k : Keyed ix) : (ix.all.map (·.path.toString)).Nodup := by
  have strict := List.pairwise_map.2 (pairwise_path_all k)
  rw [List.map_map] at strict
  exact strict.imp ne_of_lt

/-- **Keys address the files.**  A key is made from the slashes in front of a text and the
    components in it, it is its own key, and texts have the same key if these two are the same.
    Such texts are the same to every update, in its answer and in the tables it leaves, and to
    every reading; so runs that differ in the spelling of paths only do not differ at all.  In
    every state that updates lead to, the paths of records are keys, no two of them the same, and
    each reads its record. -/
theorem keys_address_files :
    (∀ text, Path.key (Path.key text) = Path.key text) ∧
    (∀ text, (Path.key text).toList =
      if Path.rootOf text.toList = [] ∧ Path.componentsOf text.toList = [] then ['.']
      else Path.rootOf text.toList ++ join ['/'] (Path.componentsOf text.toList)) ∧
    (∀ s t, Path.key s = Path.key t ↔ Path.rootOf s.toList = Path.rootOf t.toList ∧
      Path.componentsOf s.toList = Path.componentsOf t.toList) ∧
    (∀ (ix : Index) us vs, us.map Update.keyed = vs.map Update.keyed → ix.run us = ix.run vs) ∧
    (∀ (ix : Index) s t, Path.key s = Path.key t →
      ix.get (.ofString s) = ix.get (.ofString t) ∧
      ix.contains (.ofString s) = ix.contains (.ofString t)) ∧
    ∀ updates,
      let ix := (empty.run updates).2
      (ix.all.map (·.path.toString)).Nodup ∧
      ∀ r ∈ ix.all, Path.key r.path.toString = r.path.toString ∧
        ix.get (.ofString r.path.toString) = .ok r := by
  refine ⟨Path.key_key, Path.toList_key, fun s t => Path.key_eq_iff, fun ix us vs => run_congr,
    ?_, ?_⟩
  · intro ix s t same
    rw [Path.key_eq_iff_ofString.1 same]
    exact ⟨rfl, rfl⟩
  · intro updates ix
    have k : Keyed ix := (run_consistent Consistent.empty updates).toKeyed
    refine ⟨nodup_texts k, fun r there => ?_⟩
    rw [Path.key, Path.ofString_toString]
    exact ⟨rfl, get_of_mem_all k there⟩

/-- A file that is tagged under one spelling of its path and moved under another. -/
theorem spellings_address_file :
    let us := [Update.add "./a//b" (.bare "x"), .move "a/b/." "c"]
    let vs := [Update.add "a/b/" (.bare "x"), .move "a/b" ".//c/"]
    us ≠ vs ∧ us.map Update.keyed = vs.map Update.keyed ∧ empty.run us = empty.run vs ∧
      (empty.run us).1 = [.done, .done] ∧
      (empty.run us).2.get (.ofString "c/.") = (empty.run us).2.get (.ofString "c") ∧
      (empty.run us).2.get (.ofString "c") = .ok ⟨.ofString "c", ["x"], []⟩ := by
  intro us vs
  have keys : us.map Update.keyed = vs.map Update.keyed := by decide +kernel
  have c : Path.key "c/." = Path.key "c" := by decide +kernel
  have ⟨_, _, _, runs, reads, _⟩ := keys_address_files
  refine ⟨by decide, keys, runs empty us vs keys, by decide +kernel, (reads _ _ _ c).1, ?_⟩
  decide +kernel

end Index

end FileTags
