/-
  The orders in which records and their contents are shown: texts by code points, pairs of texts
  by the first and then by the second, paths by their texts or by their components.

  * `pairLE` and `Path.textLE` are the orders of pairs and of paths; both are linear;
  * `Path.Before` is the strict order of paths by their components, which tell paths apart
    (`Path.parts_injective`);
  * `mergeSort_eq_sort`: a list without repetitions, sorted, is its set of members, sorted.
-/
import FileTags.Record
import Mathlib.Data.Finset.Sort
import Mathlib.Data.Prod.Lex
import Mathlib.Data.String.Basic

namespace FileTags

/-- The order of pairs of texts: by the first, then by the second. -/
def pairLE (a b : String × String) : Prop := a.1 < b.1 ∨ a.1 = b.1 ∧ a.2 ≤ b.2

instance : DecidableRel pairLE := fun _ _ => inferInstanceAs (Decidable (_ ∨ _))

theorem pairLE_iff_toLex {a b : String × String} : pairLE a b ↔ toLex a ≤ toLex b :=
  Prod.Lex.toLex_le_toLex.symm

instance : IsTrans (String × String) pairLE where
  trans a b c hab hbc := by
    rw [pairLE_iff_toLex] at *
    exact hab.trans hbc

instance : Std.Antisymm pairLE where
  antisymm a b hab hba := by
    rw [pairLE_iff_toLex] at *
    exact toLex.injective (le_antisymm hab hba)

instance : Std.Total pairLE where
  total a b := by
    rw [pairLE_iff_toLex, pairLE_iff_toLex]
    exact le_total _ _

namespace Path

/-- The order of paths by their texts. -/
def textLE (p q : Path) : Prop := p.toString ≤ q.toString

instance : DecidableRel textLE := fun _ _ => inferInstanceAs (Decidable (_ ≤ _))

theorem toString_injective : Function.Injective Path.toString :=
  Function.LeftInverse.injective ofString_toString

instance : IsTrans Path textLE where
  trans _ _ _ hpq hqr := le_trans hpq hqr

instance : Std.Antisymm textLE where
  antisymm _ _ hpq hqp := toString_injective (le_antisymm hpq hqp)

instance : Std.Total textLE where
  total _ _ := le_total _ _

/-! ## Paths by their components -/

/-- The strict order of paths by their components. -/
def Before (p q : Path) : Prop := p.parts < q.parts

theorem order_iff {p q : Path} : p.order q = true ↔ p.parts ≤ q.parts := by
  have lex : q.parts.lex p.parts = true ↔ q.parts < p.parts := by
    simp only [List.lex_eq_true_iff_lex, decide_eq_true_eq]
    exact Iff.rfl
  rw [order, Bool.not_eq_true', ← Bool.not_eq_true, lex, not_lt]

theorem slash_not_mem {names : List Name} {text : String} (slash : '/' ∈ text.toList) :
    text ∉ names.map (·.text) := by
  intro there
  obtain ⟨n, -, rfl⟩ := List.mem_map.1 there
  exact n.isName.2.2 slash

theorem parts_of_relative {p : Path} (relative : p.anchor = .relative) :
    p.parts = p.names.map (·.text) := by
  simp [parts, isAbsolute, relative]

theorem parts_of_absolute {p : Path} (absolute : p.anchor ≠ .relative) :
    p.parts = String.ofList (anchorText p.anchor) :: p.names.map (·.text) := by
  simp [parts, isAbsolute, absolute]

theorem slash_mem_anchorText {a : Anchor} (absolute : a ≠ .relative) : '/' ∈ anchorText a := by
  cases a with
  | relative => exact absurd rfl absolute
  | root | doubleRoot => exact List.mem_cons_self

theorem anchorText_injective : Function.Injective anchorText := by
  intro a b same
  cases a <;> cases b <;> first | rfl | cases same

/-- No component reads like an anchor. -/
theorem relative_of_parts {p q : Path} (same : p.parts = q.parts)
    (relative : p.anchor = .relative) : q.anchor = .relative := by
  by_contra absolute
  rw [parts_of_relative relative, parts_of_absolute absolute] at same
  have slash : '/' ∈ (String.ofList (anchorText q.anchor)).toList := by
    simpa using slash_mem_anchorText absolute
  exact slash_not_mem slash (same ▸ List.mem_cons_self)

theorem parts_injective : Function.Injective Path.parts := by
  intro p q same
  have ext : p.anchor = q.anchor → p.names.map (·.text) = q.names.map (·.text) → p = q := by
    intro anchor names
    obtain ⟨a, ns⟩ := p
    obtain ⟨b, ms⟩ := q
    obtain rfl : a = b := anchor
    obtain rfl : ns = ms := List.map_injective_iff.2 (fun _ _ => Name.ext) names
    rfl
  by_cases relative : p.anchor = .relative
  · have relative' := relative_of_parts same relative
    rw [parts_of_relative relative, parts_of_relative relative'] at same
    exact ext (relative.trans relative'.symm) same
  · have absolute' : q.anchor ≠ .relative := fun h => relative (relative_of_parts same.symm h)
    rw [parts_of_absolute relative, parts_of_absolute absolute'] at same
    obtain ⟨anchor, names⟩ := List.cons.inj same
    exact ext (anchorText_injective (String.ofList_injective anchor)) names

end Path

/-! ## Sorting -/

section
variable {α : Type} [DecidableEq α] (r : α → α → Prop) [DecidableRel r] [IsTrans α r]
  [Std.Antisymm r] [Std.Total r]

theorem mergeSort_eq_sort {l : List α} (nodup : l.Nodup) :
    l.mergeSort (fun a b => decide (r a b)) = l.toFinset.sort r := by
  have sorted := List.pairwise_mergeSort' r l
  have perm : l.mergeSort (fun a b => decide (r a b)) |>.Perm (l.toFinset.sort r) :=
    (List.mergeSort_perm _ _).trans
      ((Finset.sort_perm_toList _ r).trans (List.toFinset_toList nodup)).symm
  exact perm.eq_of_pairwise' sorted (Finset.pairwise_sort _ r)

theorem sort_filter {keep : α → Bool} {s : Finset α} :
    (s.filter (keep · = true)).sort r = (s.sort r).filter keep := by
  have members : s.filter (keep · = true) = ((s.sort r).filter keep).toFinset := by
    rw [List.toFinset_filter, Finset.sort_toFinset]
  rw [members]
  exact (List.toFinset_sort r ((Finset.sort_nodup s r).filter keep)).2
    ((Finset.pairwise_sort s r).filter keep)

end

/-- A list where the members with a property come first. -/
theorem eq_filter_append_filter {α : Type} {p : α → Bool} {l : List α}
    (first : l.Pairwise fun a b => p b = true → p a = true) :
    l = l.filter p ++ l.filter (!p ·) := by
  induction l with
  | nil => rfl
  | cons a l ih =>
    obtain ⟨head, tail⟩ := List.pairwise_cons.1 first
    by_cases h : p a = true
    · rw [List.filter_cons_of_pos h, List.filter_cons_of_neg (by simp [h]), List.cons_append,
        ← ih tail]
    · have none : l.filter p = [] :=
        List.filter_eq_nil_iff.2 fun b there held => h (head b there held)
      have all : l.filter (!p ·) = l := List.filter_eq_self.2 fun b there => by
        simpa using fun held => h (head b there held)
      simp [h, none, all]

theorem nodup_eraseDups {α : Type} [BEq α] [LawfulBEq α] (l : List α) : l.eraseDups.Nodup := by
  induction size : l.length using Nat.strongRecOn generalizing l with
  | ind size ih =>
    cases l with
    | nil => exact List.nodup_nil
    | cons a l =>
      rw [List.eraseDups_cons, List.nodup_cons]
      have fewer := List.length_filter_le (fun b => !b == a) l
      rw [List.length_cons] at size
      exact ⟨by simp, ih _ (by omega) _ rfl⟩

theorem eraseDups_of_nodup {texts : List String} (nodup : texts.Nodup) :
    texts.eraseDups = texts := by
  induction texts with
  | nil => rfl
  | cons text texts ih =>
    obtain ⟨absent, rest⟩ := List.nodup_cons.1 nodup
    have others : texts.filter (fun other => !other == text) = texts :=
      List.filter_eq_self.2 fun other there => by
        have ne : other ≠ text := fun e => absent (e ▸ there)
        simp [ne]
    rw [List.eraseDups_cons, others, ih rest]

theorem sortTexts_eq_sort {texts : List String} (nodup : texts.Nodup) :
    sortTexts texts = texts.toFinset.sort (· ≤ ·) :=
  mergeSort_eq_sort (· ≤ ·) nodup

/-- The members of a list, each once and in order, are determined by the set of them. -/
theorem sortTexts_eraseDups (texts : List String) :
    sortTexts texts.eraseDups = texts.toFinset.sort (· ≤ ·) := by
  have same : texts.eraseDups.toFinset = texts.toFinset := by
    ext text
    simp
  rw [sortTexts_eq_sort (nodup_eraseDups texts), same]

theorem sortPairs_eq_sort {pairs : List (String × String)} (nodup : pairs.Nodup) :
    sortPairs pairs = pairs.toFinset.sort pairLE :=
  mergeSort_eq_sort pairLE nodup

end FileTags
