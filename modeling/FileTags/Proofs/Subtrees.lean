/-
  Subtrees in sorted lists of paths.

  Sorted by their components, the paths at and below a directory stand side by side, the directory
  first; sorted as texts they may not.

  * `filter_isInfix`: what stands between two members of a sorted list and has what they have in
    common belongs to one block with them;
  * `Path.Covers` says that a path is another one or lies above it, `Path.Covers.between` that it
    covers all that stands between two paths it covers;
  * `Path.filter_covers_isInfix`: the paths that a path covers are one block of a sorted list, and
    `Path.head?_filter_covers`: the path itself is the first of them.
-/
import FileTags.Proofs.Order
import Mathlib.Data.List.Infix
import Mathlib.Data.List.Lex

namespace FileTags

/-! ## Blocks of sorted lists -/

section
variable {α : Type} {r : α → α → Prop} {p : α → Bool} {l : List α}

/-- What a convex condition picks of a sorted list stands side by side. -/
theorem filter_isInfix (sorted : l.Pairwise r)
    (convex : ∀ a ∈ l, ∀ b ∈ l, ∀ c ∈ l, r a b → r b c → p a = true → p c = true → p b = true) :
    l.filter p <:+: l := by
  induction l with
  | nil => exact List.infix_rfl
  | cons a l ih =>
    obtain ⟨head, tail⟩ := List.pairwise_cons.1 sorted
    by_cases picked : p a = true
    · have first : l.Pairwise fun b c => p c = true → p b = true :=
        tail.imp_of_mem fun {b c} hb hc order kept => convex a List.mem_cons_self b
          (List.mem_cons_of_mem a hb) c (List.mem_cons_of_mem a hc) (head b hb) order picked kept
      refine ⟨[], l.filter (!p ·), ?_⟩
      rw [List.filter_cons_of_pos picked, List.nil_append, List.cons_append,
        ← eq_filter_append_filter first]
    · rw [List.filter_cons_of_neg picked]
      exact List.infix_cons (ih tail fun a ha b hb c hc => convex a (List.mem_cons_of_mem _ ha) b
        (List.mem_cons_of_mem _ hb) c (List.mem_cons_of_mem _ hc))

/-- What stands between two lists with a common beginning begins like them. -/
theorem prefix_between [LinearOrder α] {t a b c : List α} (ha : t <+: a) (hc : t <+: c)
    (hab : a < b) (hbc : b < c) : t <+: b := by
  induction t generalizing a b c with
  | nil => exact List.nil_prefix
  | cons x t ih =>
    obtain ⟨a, rfl⟩ := ha
    obtain ⟨c, rfl⟩ := hc
    rw [List.cons_append] at hab hbc
    cases b with
    | nil => exact absurd hab (List.not_lt_nil _)
    | cons y b =>
      rw [List.cons_lt_cons_iff] at hab hbc
      have e : x = y := by
        rcases hab with lt | ⟨e, -⟩
        · rcases hbc with lt' | ⟨e, -⟩
          · exact absurd (lt.trans lt') (lt_irrefl x)
          · exact e.symm
        · exact e
      subst e
      have below := (hab.resolve_left (lt_irrefl x)).2
      have above := (hbc.resolve_left (lt_irrefl x)).2
      exact List.cons_prefix_cons.2
        ⟨rfl, ih (List.prefix_append t a) (List.prefix_append t c) below above⟩

end

/-! ## Paths and what is below them -/

namespace Path

/-- A path is another one or lies above it. -/
def Covers (top p : Path) : Prop := p.anchor = top.anchor ∧ top.names <+: p.names

instance (top p : Path) : Decidable (top.Covers p) := inferInstanceAs (Decidable (_ ∧ _))

variable {top p q r : Path}

theorem isSome_relativeTo? : (p.relativeTo? top).isSome = true ↔ top.Covers p := by
  rw [relativeTo?, Covers]
  split
  · next same =>
    rw [Option.isSome_map, Option.isSome_iff_exists]
    simp only [dropNames?_eq_some_iff, same, true_and]
    exact exists_congr fun rest => eq_comm
  · next other => simp [other]

theorem Covers.refl (p : Path) : p.Covers p := ⟨rfl, List.prefix_rfl⟩

theorem Covers.trans (hpq : p.Covers q) (hqr : q.Covers r) : p.Covers r :=
  ⟨hqr.1.trans hpq.1, hpq.2.trans hqr.2⟩

theorem before_iff (same : p.anchor = q.anchor) :
    p.Before q ↔ p.names.map (·.text) < q.names.map (·.text) := by
  by_cases relative : p.anchor = .relative
  · rw [Before, parts_of_relative relative, parts_of_relative (same ▸ relative)]
  · rw [Before, parts_of_absolute relative, parts_of_absolute (same ▸ relative), same,
      List.cons_lt_cons_iff]
    simp

theorem not_before_self (p : Path) : ¬ p.Before p := lt_irrefl p.parts

theorem Before.asymm (hpq : p.Before q) : ¬ q.Before p := lt_asymm hpq

theorem Covers.before (covers : top.Covers p) (ne : p ≠ top) : top.Before p := by
  obtain ⟨anchor, names⟩ := covers
  obtain ⟨rest, same⟩ := names
  have more : rest ≠ [] := by
    rintro rfl
    rw [List.append_nil] at same
    exact ne (by cases p; cases top; cases anchor; cases same; rfl)
  obtain ⟨n, rest, rfl⟩ := List.exists_cons_of_ne_nil more
  rw [before_iff anchor.symm, ← same, List.map_append]
  conv_lhs => rw [← List.append_nil (top.names.map (·.text))]
  exact List.append_left_lt (List.nil_lt_cons _ _)

theorem covers_child (p : Path) (n : Name) : p.Covers (p.child n) :=
  ⟨rfl, List.prefix_append _ _⟩

theorem Covers.before_child {n : Name} (covers : (p.child n).Covers q) : p.Before q := by
  refine ((covers_child p n).trans covers).before ?_
  rintro rfl
  have shorter := covers.2.length_le
  rw [child, List.length_append, List.length_singleton] at shorter
  omega

/-- What is below a directory is ordered by the names in it. -/
theorem Covers.before_of_lt {n m : Name} (less : n.text < m.text) (hq : (p.child n).Covers q)
    (hr : (p.child m).Covers r) : q.Before r := by
  obtain ⟨anchor, names, same⟩ := hq
  obtain ⟨anchor', names', same'⟩ := hr
  rw [before_iff (anchor.trans anchor'.symm), ← same, ← same']
  simp only [child, List.map_append, List.append_assoc]
  exact List.append_left_lt (List.cons_lt_cons_iff.2 (.inl less))

/-- A path covers all that stands between two paths it covers. -/
theorem Covers.between (hp : top.Covers p) (hr : top.Covers r) (anchor : q.anchor = top.anchor)
    (hpq : p.Before q) (hqr : q.Before r) : top.Covers q := by
  rw [before_iff (hp.1.trans anchor.symm)] at hpq
  rw [before_iff (anchor.trans hr.1.symm)] at hqr
  have texts := prefix_between (hp.2.map (·.text)) (hr.2.map (·.text)) hpq hqr
  exact ⟨anchor, (List.prefix_map_iff_of_injective fun _ _ => Name.ext).1 texts⟩

section
variable {α : Type} {f : α → Path} {l : List α} {a : α}

/-- **A subtree is one block** of a sorted list. -/
theorem filter_covers_isInfix (sorted : l.Pairwise fun a b => (f a).Before (f b)) {anchor : Anchor}
    (anchors : ∀ a ∈ l, (f a).anchor = anchor) (top : Path) :
    (l.filter fun a => decide (top.Covers (f a))) <:+: l := by
  refine filter_isInfix sorted fun a ha b hb c hc hab hbc covers covers' => ?_
  simp only [decide_eq_true_eq] at covers covers' ⊢
  exact covers.between covers' ((anchors b hb).trans ((anchors a ha).symm.trans covers.1)) hab hbc

/-- The top of a subtree is the first of its block. -/
theorem head?_filter_covers (sorted : l.Pairwise fun a b => (f a).Before (f b)) (there : a ∈ l) :
    (l.filter fun b => decide ((f a).Covers (f b))).head? = some a := by
  have among : a ∈ l.filter fun b => decide ((f a).Covers (f b)) :=
    List.mem_filter.2 ⟨there, decide_eq_true (.refl _)⟩
  obtain ⟨b, rest, same⟩ := List.exists_cons_of_ne_nil (List.ne_nil_of_mem among)
  have order := sorted.sublist (List.filter_sublist (p := fun b => decide ((f a).Covers (f b))))
  rw [same] at among order ⊢
  rcases List.mem_cons.1 among with rfl | later
  · rfl
  · have before : (f b).Before (f a) := (List.pairwise_cons.1 order).1 a later
    have first : b ∈ l.filter fun b => decide ((f a).Covers (f b)) := by
      rw [same]
      exact List.mem_cons_self
    have covers : (f a).Covers (f b) := of_decide_eq_true (List.mem_filter.1 first).2
    by_cases e : f b = f a
    · exact absurd (e ▸ before) (not_before_self _)
    · exact absurd before (covers.before e).asymm

end

end Path

end FileTags
