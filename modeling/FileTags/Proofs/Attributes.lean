/-
  The attributes of a record.

  * `Record.first?_eq_some_iff`: the first value under a key is the least one;
  * `Record.holds_attr_iff`: an attribute condition with an open value asks whether there is one;
  * `sortByAttribute_stable`: records sorted by a key are those without it and then the others by
    their least values, where records that are not told apart keep their order; how the attributes
    of a record are listed makes no difference.
-/
import FileTags.Query.Expr
import FileTags.Proofs.Order
import Mathlib.Order.Bounds.Basic

namespace FileTags

/-! ## The first value under a key -/

theorem head?_sortTexts {texts : List String} {v : String} :
    (sortTexts texts).head? = some v ↔ IsLeast {w | w ∈ texts} v := by
  have sorted : (sortTexts texts).Pairwise (· ≤ ·) := List.pairwise_mergeSort' (· ≤ ·) texts
  have members : ∀ w, w ∈ sortTexts texts ↔ w ∈ texts := fun w => List.mem_mergeSort
  constructor
  · intro first
    obtain ⟨rest, same⟩ := List.head?_eq_some_iff.1 first
    rw [same] at sorted
    refine ⟨(members v).1 (same ▸ List.mem_cons_self), fun w there => ?_⟩
    rcases List.mem_cons.1 (same ▸ (members w).2 there) with rfl | later
    · exact le_rfl
    · exact (List.pairwise_cons.1 sorted).1 w later
  · rintro ⟨there, least⟩
    obtain ⟨u, rest, same⟩ := List.exists_cons_of_ne_nil (List.ne_nil_of_mem ((members v).2 there))
    rw [same] at sorted
    have le : v ≤ u := least ((members u).1 (same ▸ List.mem_cons_self))
    rw [same, List.head?_cons, Option.some_inj]
    rcases List.mem_cons.1 (same ▸ (members v).2 there) with e | later
    · exact e.symm
    · exact le_antisymm ((List.pairwise_cons.1 sorted).1 v later) le

namespace Record

variable {r : Record} {key v : String}

theorem mem_valuesUnder :
    v ∈ (r.attributes.filter (·.1 == key)).map (·.2) ↔ (key, v) ∈ r.attributes := by
  simp only [List.mem_map, List.mem_filter, beq_iff_eq]
  constructor
  · rintro ⟨⟨k, w⟩, ⟨there, rfl⟩, rfl⟩
    exact there
  · exact fun there => ⟨(key, v), ⟨there, rfl⟩, rfl⟩

/-- **The first value under a key is the least one.** -/
theorem first?_eq_some_iff : r.first? key = some v ↔ IsLeast {w | (key, w) ∈ r.attributes} v := by
  rw [first?, values, head?_sortTexts]
  simp only [mem_valuesUnder]

theorem first?_eq_none_iff : r.first? key = none ↔ ∀ v, (key, v) ∉ r.attributes := by
  have members : ∀ v, v ∈ r.values key ↔ (key, v) ∈ r.attributes := fun v =>
    List.mem_mergeSort.trans mem_valuesUnder
  rw [first?, List.head?_eq_none_iff, List.eq_nil_iff_forall_not_mem]
  exact forall_congr' fun v => not_congr (members v)

end Record

/-! ## Records without a key -/

/-- Whether a record has no attribute with a key, as a search expression asks for it. -/
def Record.lacks (key : String) (r : Record) : Bool :=
  !(Query.Expr.attr (some key) none).holds r

/-- Two records have the same attributes, in whatever order and however often. -/
def Record.SameAttributes (r s : Record) : Prop := ∀ a, a ∈ r.attributes ↔ a ∈ s.attributes

namespace Record

variable {r s : Record} {key v : String}

theorem holds_attr_iff :
    (Query.Expr.attr (some key) none).holds r = true ↔ ∃ v, (key, v) ∈ r.attributes := by
  simp only [Query.Expr.holds, hasAttribute, Option.all_some, Option.all_none, Option.isNone_some,
    Bool.and_true, Bool.false_and, Bool.or_false, List.any_eq_true, beq_iff_eq]
  constructor
  · rintro ⟨⟨k, v⟩, there, rfl⟩
    exact ⟨v, there⟩
  · rintro ⟨v, there⟩
    exact ⟨(key, v), there, rfl⟩

theorem lacks_iff : r.lacks key = true ↔ r.first? key = none := by
  rw [lacks, Bool.not_eq_true', ← Bool.not_eq_true, holds_attr_iff, first?_eq_none_iff]
  exact not_exists

theorem SameAttributes.first? (same : r.SameAttributes s) (key : String) :
    r.first? key = s.first? key := by
  refine Option.ext fun v => ?_
  have members : {w | (key, w) ∈ r.attributes} = {w | (key, w) ∈ s.attributes} :=
    Set.ext fun w => same (key, w)
  rw [first?_eq_some_iff, first?_eq_some_iff, members]

end Record

/-! ## Sorting -/

section
variable {key : String} {records : List Record} {r s : Record}

theorem beforeByAttribute_iff : beforeByAttribute key r s = true ↔
    ∀ v, r.first? key = some v → ∃ w, s.first? key = some w ∧ v ≤ w := by
  rw [beforeByAttribute]
  cases r.first? key <;> cases s.first? key <;> simp

theorem beforeByAttribute_trans (key : String) (r s t : Record)
    (hrs : beforeByAttribute key r s = true) (hst : beforeByAttribute key s t = true) :
    beforeByAttribute key r t = true := by
  rw [beforeByAttribute_iff] at *
  intro v first
  obtain ⟨w, second, le⟩ := hrs v first
  obtain ⟨u, third, le'⟩ := hst w second
  exact ⟨u, third, le.trans le'⟩

theorem beforeByAttribute_total (key : String) (r s : Record) :
    (beforeByAttribute key r s || beforeByAttribute key s r) = true := by
  rw [beforeByAttribute, beforeByAttribute]
  cases r.first? key <;> cases s.first? key <;> simp [le_total]

theorem sortByAttribute_perm : (sortByAttribute key records).Perm records :=
  List.mergeSort_perm _ _

theorem sortByAttribute_pairwise :
    (sortByAttribute key records).Pairwise fun r s => beforeByAttribute key r s = true :=
  List.pairwise_mergeSort (beforeByAttribute_trans key) (beforeByAttribute_total key) records

/-- Records that are not told apart keep their order. -/
theorem filter_sortByAttribute (least : Option String) :
    (sortByAttribute key records).filter (fun r => decide (r.first? key = least)) =
      records.filter fun r => decide (r.first? key = least) := by
  have alike : (records.filter fun r => decide (r.first? key = least)).Pairwise fun r s =>
      beforeByAttribute key r s = true := by
    refine List.pairwise_of_forall_mem_list fun r hr s hs => ?_
    have first : r.first? key = least := of_decide_eq_true (List.mem_filter.1 hr).2
    have second : s.first? key = least := of_decide_eq_true (List.mem_filter.1 hs).2
    rw [beforeByAttribute_iff]
    exact fun v found => ⟨v, by rw [second, ← first, found], le_rfl⟩
  have kept : (records.filter fun r => decide (r.first? key = least)).Sublist
      (sortByAttribute key records) :=
    List.sublist_mergeSort (beforeByAttribute_trans key) (beforeByAttribute_total key) alike
      List.filter_sublist
  have both := kept.filter fun r => decide (r.first? key = least)
  simp only [List.filter_filter, Bool.and_self] at both
  refine (both.eq_of_length ?_).symm
  exact (sortByAttribute_perm.filter _).length_eq.symm

/-- Those without the key come first. -/
theorem sortByAttribute_eq :
    sortByAttribute key records = records.filter (·.lacks key) ++
      (sortByAttribute key records).filter (!·.lacks key) := by
  have first : (sortByAttribute key records).Pairwise fun r s =>
      s.lacks key = true → r.lacks key = true := by
    refine sortByAttribute_pairwise.imp fun {r s} before lacking => ?_
    rw [Record.lacks_iff] at *
    rw [beforeByAttribute_iff] at before
    refine Option.eq_none_iff_forall_ne_some.2 fun v found => ?_
    obtain ⟨w, held, -⟩ := before v found
    rw [lacking] at held
    cases held
  have same : (sortByAttribute key records).filter (·.lacks key) =
      records.filter (·.lacks key) := by
    have lacks : (fun r : Record => r.lacks key) = fun r => decide (r.first? key = none) :=
      funext fun r => Bool.eq_iff_iff.2 (Record.lacks_iff.trans decide_eq_true_iff.symm)
    rw [lacks]
    exact filter_sortByAttribute none
  rw [← same]
  exact eq_filter_append_filter first

/-- The others follow by their least values. -/
theorem pairwise_having : ((sortByAttribute key records).filter (!·.lacks key)).Pairwise fun r s =>
    ∃ v w, IsLeast {u | (key, u) ∈ r.attributes} v ∧ IsLeast {u | (key, u) ∈ s.attributes} w ∧
      v ≤ w := by
  refine List.Pairwise.imp_of_mem (fun {r s} hr _ before => ?_)
    (sortByAttribute_pairwise.sublist List.filter_sublist)
  have held : r.first? key ≠ none := by
    have lacking := (List.mem_filter.1 hr).2
    rw [Bool.not_eq_true', ← Bool.not_eq_true, Record.lacks_iff] at lacking
    exact lacking
  obtain ⟨v, first⟩ := Option.ne_none_iff_exists'.1 held
  obtain ⟨w, second, le⟩ := beforeByAttribute_iff.1 before v first
  exact ⟨v, w, Record.first?_eq_some_iff.1 first, Record.first?_eq_some_iff.1 second, le⟩

/-- Records with the same attributes are sorted in the same way. -/
theorem sortByAttribute_map {α : Type} {l : List α} {f g : α → Record}
    (same : ∀ a ∈ l, (f a).SameAttributes (g a)) :
    ∃ sorted : List α, sorted.Perm l ∧ sortByAttribute key (l.map f) = sorted.map f ∧
      sortByAttribute key (l.map g) = sorted.map g := by
  refine ⟨l.mergeSort fun a b => beforeByAttribute key (f a) (f b), List.mergeSort_perm _ _, ?_, ?_⟩
  · exact (List.map_mergeSort (f := f) (s := beforeByAttribute key) fun a _ b _ => rfl).symm
  · refine (List.map_mergeSort (f := g) (s := beforeByAttribute key) fun a ha b hb => ?_).symm
    rw [beforeByAttribute, beforeByAttribute, (same a ha).first? key, (same b hb).first? key]

/-- **Sorting by a key is stable.**  The records that a search for the key does not find come first,
    then the others by their least values under it.  Those without the key, and those with the same
    least value, keep their order.  How often and in which order a record lists its attributes makes
    no difference, and nor does sorting again. -/
theorem sortByAttribute_stable (key : String) (records : List Record) :
    (sortByAttribute key records).Perm records ∧
    (∃ having, sortByAttribute key records =
        records.filter (fun r => !(Query.Expr.attr (some key) none).holds r) ++ having ∧
      having.Pairwise fun r s => ∃ v w, IsLeast {u | (key, u) ∈ r.attributes} v ∧
        IsLeast {u | (key, u) ∈ s.attributes} w ∧ v ≤ w) ∧
    (∀ least : Option String,
      (sortByAttribute key records).filter (fun r => decide (r.first? key = least)) =
        records.filter fun r => decide (r.first? key = least)) ∧
    (∀ r : Record, r.first? key = none ↔ (Query.Expr.attr (some key) none).holds r = false) ∧
    (∀ (r : Record) v, r.first? key = some v ↔ IsLeast {u | (key, u) ∈ r.attributes} v) ∧
    (∀ pairs : List (Record × Record), (∀ p ∈ pairs, p.1.SameAttributes p.2) →
      ∃ sorted : List (Record × Record), sorted.Perm pairs ∧
        sortByAttribute key (pairs.map (·.1)) = sorted.map (·.1) ∧
        sortByAttribute key (pairs.map (·.2)) = sorted.map (·.2)) ∧
    sortByAttribute key (sortByAttribute key records) = sortByAttribute key records := by
  refine ⟨sortByAttribute_perm, ⟨_, sortByAttribute_eq, pairwise_having⟩, filter_sortByAttribute,
    fun r => ?_, fun r v => Record.first?_eq_some_iff, fun pairs same => sortByAttribute_map same,
    List.mergeSort_of_pairwise sortByAttribute_pairwise⟩
  rw [← Record.lacks_iff, Record.lacks, Bool.not_eq_true']

end

end FileTags
