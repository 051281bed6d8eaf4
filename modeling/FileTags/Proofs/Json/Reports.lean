/-
  Reports in JSON lose nothing.

  * `Shown` is what a report says of one record, and `Shown.Of` what it should say: the path as it
    is shown, the set of its tags in order, and its attributes in order;
  * `report_json`: a report in JSON is plain text that is read as one object for each record, and
    two reports are the same text only if they say the same of the same number of records.
-/
import FileTags.Proofs.Json.Values
import FileTags.Proofs.Order
import FileTags.Report

namespace FileTags

open Text

/-- What a report in JSON says of a record. -/
structure Shown where
  path : String
  tags : List String
  attributes : List (String × String)

namespace Shown

/-- The object that says it. -/
def toJson (shown : Shown) : Json :=
  .object [
    ("path", .string shown.path),
    ("tags", .array (shown.tags.map .string)),
    ("attributes", .array (shown.attributes.map fun (key, value) =>
      .array [.string key, .string value]))]

/-- Whether it is what a report should say of a record that is seen from a directory. -/
structure Of (root : Option Path) (r : Record) (shown : Shown) : Prop where
  path : shown.path = toString (r.displayPath root)
  ascending : shown.tags.Pairwise (· < ·)
  mem_tags : ∀ tag, tag ∈ shown.tags ↔ tag ∈ r.tags
  sorted : shown.attributes.Pairwise pairLE
  perm : shown.attributes.Perm r.attributes

end Shown

/-- Two records agree in all that a report says of them. -/
structure Record.Agree (root root' : Option Path) (r s : Record) : Prop where
  path : r.displayPath root = s.displayPath root'
  tags : ∀ tag, tag ∈ r.tags ↔ tag ∈ s.tags
  attributes : r.attributes.Perm s.attributes

namespace Record

variable {root root' : Option Path} {r s : Record}

/-- What a report says of a record. -/
def shown (root : Option Path) (r : Record) : Shown where
  path := toString (r.displayPath root)
  tags := r.sortedTags
  attributes := r.sortedAttributes

theorem shown_of (root : Option Path) (r : Record) : (r.shown root).Of root r where
  path := rfl
  ascending := by
    simpa only [shown, sortedTags, sortTexts_eraseDups] using
      (Finset.sortedLT_sort r.tags.toFinset).pairwise
  mem_tags tag := by simp [shown, sortedTags, sortTexts_eraseDups]
  sorted := List.pairwise_mergeSort' pairLE r.attributes
  perm := List.mergeSort_perm _ _

/-- The same is said of two records if and only if they agree. -/
theorem shown_eq_iff : r.shown root = s.shown root' ↔ r.Agree root root' s := by
  have left := shown_of root r
  have right := shown_of root' s
  constructor
  · intro same
    rw [same] at left
    exact ⟨Path.toString_injective (left.path.symm.trans right.path),
      fun tag => (left.mem_tags tag).symm.trans (right.mem_tags tag),
      left.perm.symm.trans right.perm⟩
  · rintro ⟨path, tags, attributes⟩
    have sameTags : r.tags.toFinset = s.tags.toFinset := by
      ext tag
      simpa using tags tag
    have sameAttributes : r.sortedAttributes = s.sortedAttributes :=
      ((left.perm.trans attributes).trans right.perm.symm).eq_of_pairwise' left.sorted right.sorted
    rw [shown, shown, path, sortedTags, sortedTags, sortTexts_eraseDups, sortTexts_eraseDups,
      sameTags, sameAttributes]

end Record

theorem Shown.toJson_injective : Function.Injective Shown.toJson := by
  rintro ⟨path, tags, attributes⟩ ⟨path', tags', attributes'⟩ same
  simp only [Shown.toJson, Json.object.injEq, List.cons.injEq, Prod.mk.injEq, Json.string.injEq,
    Json.array.injEq, true_and, and_true] at same
  obtain ⟨rfl, words, pairs⟩ := same
  have string : Function.Injective Json.string := fun _ _ => Json.string.inj
  have pair : Function.Injective fun (a : String × String) =>
      Json.array [.string a.1, .string a.2] := fun a b same => by simpa [Prod.ext_iff] using same
  obtain rfl := List.map_injective_iff.2 string words
  obtain rfl := List.map_injective_iff.2 pair pairs
  rfl

/-- **Reports in JSON lose nothing.**  A report is written with line feeds and printable ASCII; it
    is read as an array with one object for each record, in order, which says what it should; and
    two reports are the same text if and only if their records agree one by one. -/
theorem report_json (root : Option Path) (records : List Record) :
    (∀ c ∈ (report .json root records).toList, Json.IsPlain c) ∧
      (∃ shown : List Shown,
        Json.read? (report .json root records) = some (.array (shown.map Shown.toJson)) ∧
          List.Forall₂ (Shown.Of root) records shown) ∧
      ∀ (root' : Option Path) (others : List Record),
        report .json root records = report .json root' others ↔
          List.Forall₂ (Record.Agree root root') records others := by
  have written (root : Option Path) (records : List Record) : report .json root records =
      (Json.array ((records.map (Record.shown root)).map Shown.toJson)).render := by
    rw [List.map_map]
    rfl
  refine ⟨Json.isPlain_render _, ⟨records.map (Record.shown root), ?_, ?_⟩, ?_⟩
  · rw [written, Json.read?_render]
  · rw [List.forall₂_map_right_iff, List.forall₂_same]
    exact fun r _ => r.shown_of root
  · intro root' others
    rw [written, written, Json.render_injective.eq_iff, Json.array.injEq,
      (List.map_injective_iff.2 Shown.toJson_injective).eq_iff, ← List.forall₂_eq_eq_eq,
      List.forall₂_map_left_iff, List.forall₂_map_right_iff]
    simp only [Record.shown_eq_iff]

end FileTags
