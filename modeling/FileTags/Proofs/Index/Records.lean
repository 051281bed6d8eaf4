/-
  What the records of an index say about its files.

  * `Record.Carries` and `Ledger.Carries` say that a file carries a tag; `Ledger.carries_iff` ties
    the two together;
  * `Ledger.carries_add` and `Ledger.carries_remove`: what writing and deleting a tag change, and
    `Index.Keyed.foldl_add` and `Index.Keyed.foldl_remove`, what it changes to do so many times;
  * `Ledger.map_path_all`: the records of a ledger are one for each of its paths;
  * `Index.Tagged` says that a record of an index carries a tag; `Index.Consistent.all_of_carries`
    and `Index.Consistent.all_eq_of_tagged`: what files carry tells the records of an index.
-/
import FileTags.Proofs.Index.Run

namespace FileTags

/-- A file with this record carries a tag. -/
def Record.Carries (r : Record) : Tag → Prop
  | .bare word => word ∈ r.tags
  | .pair key value => (key, value) ∈ r.attributes

/-- A record with those of its tags that are kept. -/
def Record.restrict (r : Record) (keep : Tag → Bool) : Record where
  path := r.path
  tags := r.tags.filter (keep <| .bare ·)
  attributes := r.attributes.filter fun (key, value) => keep (.pair key value)

theorem Record.mem_carried {r : Record} {t : Tag} : t ∈ r.carried ↔ r.Carries t := by
  cases t with
  | bare word => simp [carried, Carries, sortedTags, sortTexts]
  | pair key value => simp [carried, Carries]

theorem Record.countP_carried {r : Record} (nodup : r.tags.Nodup) (counted : Tag → Bool) :
    r.carried.countP counted = r.tags.countP (counted <| .bare ·) +
      r.attributes.countP fun (key, value) => counted (.pair key value) := by
  have same : r.sortedTags.Perm r.tags := by
    rw [sortedTags, eraseDups_of_nodup nodup]
    exact List.mergeSort_perm _ _
  rw [carried, List.countP_append, List.countP_map, List.countP_map, same.countP_eq]
  rfl

theorem Record.restrict_true {r : Record} : r.restrict (fun _ => true) = r := by
  simp [restrict]

theorem Record.isEmpty_restrict_false {r : Record} :
    (r.restrict fun _ => false).isEmpty = true := by
  simp [restrict, isEmpty]

theorem Record.isEmpty_iff {r : Record} : r.isEmpty = true ↔ ∀ t, ¬ r.Carries t := by
  simp only [isEmpty, Bool.and_eq_true, List.isEmpty_iff, List.eq_nil_iff_forall_not_mem]
  constructor
  · rintro ⟨tags, attributes⟩ t
    cases t with
    | bare word => exact tags word
    | pair key value => exact attributes (key, value)
  · exact fun bare => ⟨fun word => bare (.bare word), fun a => bare (.pair a.1 a.2)⟩

namespace Holdings

/-- What a file carries, if that is anything. -/
def ifAny (h : Holdings) : Option Holdings := if h = ∅ then none else some h

/-- What a file carries of the tags that are kept. -/
def restrict (h : Holdings) (keep : Tag → Bool) : Holdings where
  words := h.words.filter fun word => keep (.bare word) = true
  attributes := h.attributes.filter fun a => keep (.pair a.1 a.2) = true

variable {h : Holdings} {p : Path} {t : Tag} {keep : Tag → Bool}

theorem exists_ifAny : (∃ h', h.ifAny = some h' ∧ t ∈ h') ↔ t ∈ h := by
  unfold ifAny
  split
  · next empty => simp [empty]
  · simp

theorem ifAny_ne : h.ifAny ≠ some ∅ := by
  unfold ifAny
  split
  · nofun
  · next ne => exact fun e => ne (Option.some.inj e)

/-- Entries that are not empty are told apart by what is carried. -/
theorem entry_ext {a b : Option Holdings} (ha : a ≠ some ∅) (hb : b ≠ some ∅)
    (same : ∀ t, (∃ h, a = some h ∧ t ∈ h) ↔ ∃ h, b = some h ∧ t ∈ h) : a = b := by
  cases a with
  | none =>
    cases b with
    | none => rfl
    | some h =>
      have bare : h = ∅ := eq_empty_iff.2 fun t ht => by simpa using (same t).2 ⟨h, rfl, ht⟩
      exact absurd (congrArg some bare) hb
  | some h =>
    cases b with
    | none =>
      have bare : h = ∅ := eq_empty_iff.2 fun t ht => by simpa using (same t).1 ⟨h, rfl, ht⟩
      exact absurd (congrArg some bare) ha
    | some h' => exact congrArg some (ext fun t => by simpa using same t)

theorem carries_record : (h.record p).Carries t ↔ t ∈ h := by
  cases t with
  | bare word => exact Finset.mem_sort _
  | pair key value => exact Finset.mem_sort _

theorem isEmpty_record : (h.record p).isEmpty = true ↔ h = ∅ := by
  simp only [Record.isEmpty_iff, carries_record, eq_empty_iff]

@[simp] theorem mem_restrict : t ∈ h.restrict keep ↔ t ∈ h ∧ keep t = true := by
  cases t <;> simp [restrict]

theorem record_restrict : (h.restrict keep).record p = (h.record p).restrict keep := by
  simp only [record, restrict, Record.restrict, Record.mk.injEq, true_and]
  exact ⟨sort_filter _, sort_filter _⟩

end Holdings

namespace Ledger

/-- The file at a path carries a tag. -/
def Carries (m : Ledger) (p : Path) (t : Tag) : Prop := ∃ h, m.lookup p = some h ∧ t ∈ h

variable {m : Ledger} {p q : Path} {t u : Tag} {h : Holdings} {r : Record}

theorem mem_all : r ∈ m.all ↔ ∃ h, m.lookup r.path = some h ∧ h.record r.path = r := by
  simp only [all, List.mem_filterMap, Option.map_eq_some_iff, Finset.mem_sort, Finmap.mem_keys]
  constructor
  · rintro ⟨p, -, h, there, rfl⟩
    exact ⟨h, there, rfl⟩
  · rintro ⟨h, there, same⟩
    exact ⟨r.path, Finmap.mem_of_lookup_eq_some there, h, there, same⟩

theorem carries_iff : m.Carries p t ↔ ∃ r ∈ m.all, r.path = p ∧ r.Carries t := by
  constructor
  · rintro ⟨h, there, row⟩
    exact ⟨h.record p, mem_all.2 ⟨h, there, rfl⟩, rfl, Holdings.carries_record.2 row⟩
  · rintro ⟨r, there, rfl, row⟩
    obtain ⟨h, there, same⟩ := mem_all.1 there
    exact ⟨h, there, Holdings.carries_record.1 (same ▸ row)⟩

theorem map_path_all (m : Ledger) : m.all.map (·.path) = m.keys.sort Path.textLE := by
  rw [all, List.map_filterMap]
  conv_rhs => rw [← List.filterMap_some (l := m.keys.sort Path.textLE)]
  refine List.filterMap_congr fun p there => ?_
  rw [Finset.mem_sort, Finmap.mem_keys] at there
  obtain ⟨h, found⟩ := Finmap.mem_iff.1 there
  simp [found, Holdings.record]

/-- What is at a path after a tag has been put to another or to it. -/
theorem lookup_add : (m.add p t).lookup q =
    if q = p then some (((m.lookup q).getD ∅).insert t) else m.lookup q := by
  rw [add, lookup_insert]
  split
  · next e => rw [e]
  · rfl

/-- What is left at a path after a tag has been taken from another or from it. -/
theorem lookup_remove : (m.remove p t).lookup q =
    if q = p then (m.lookup q).bind fun h => (h.erase t).ifAny else m.lookup q := by
  unfold remove
  split
  · next absent =>
    split
    · next e => rw [e, absent, Option.bind_none]
    · rfl
  · next held found =>
    by_cases gone : held.erase t = ∅
    · rw [if_pos gone, lookup_erase]
      split
      · next e => rw [e, found, Option.bind_some, Holdings.ifAny, if_pos gone]
      · rfl
    · rw [if_neg gone, lookup_insert]
      split
      · next e => rw [e, found, Option.bind_some, Holdings.ifAny, if_neg gone]
      · rfl

theorem carries_add : (m.add p t).Carries q u ↔ (q = p ∧ u = t) ∨ m.Carries q u := by
  rw [Carries, lookup_add]
  by_cases e : q = p
  · subst e
    cases h : m.lookup q <;> simp [Carries, h]
  · simp [Carries, e]

theorem carries_remove : (m.remove p t).Carries q u ↔ ¬ (q = p ∧ u = t) ∧ m.Carries q u := by
  rw [Carries, lookup_remove]
  by_cases e : q = p
  · subst e
    cases h : m.lookup q with
    | none => simp [Carries, h]
    | some held => simp [Carries, h, Holdings.exists_ifAny]
  · simp [Carries, e]

theorem carries_erase : Carries (m.erase p) q u ↔ q ≠ p ∧ m.Carries q u := by
  rw [Carries, lookup_erase]
  by_cases e : q = p <;> simp [Carries, e]

/-- What is carried after a move has been carried before it. -/
theorem exists_carries_of_move {m' : Ledger} {old new : Path} (moved : m.move old new = .ok m')
    (carried : m'.Carries p t) : ∃ q, m.Carries q t := by
  unfold move at moved
  split at moved
  · cases moved
  · next held found =>
    split at moved
    · cases moved
      exact ⟨p, carried⟩
    · cases moved
      obtain ⟨h, there, row⟩ := carried
      rw [lookup_insert] at there
      split at there
      · cases there
        exact ⟨old, held, found, row⟩
      · exact ⟨p, (carries_erase.1 ⟨h, there, row⟩).2⟩

/-! ## Restricting -/

section
variable {m' : Ledger} {keep : Path → Tag → Bool}

/-- A ledger without empty entries is pinned down by what its files carry. -/
theorem lookup_of_carries (filled : ∀ p, m'.lookup p ≠ some ∅)
    (kept : ∀ p t, m'.Carries p t ↔ m.Carries p t ∧ keep p t = true) :
    m'.lookup p = (m.lookup p).bind fun h => (h.restrict (keep p)).ifAny := by
  refine Holdings.entry_ext (filled p) ?_ fun t => (kept p t).trans ?_
  · cases m.lookup p with
    | none => nofun
    | some h => exact Holdings.ifAny_ne
  · rw [Carries]
    cases m.lookup p <;> simp [Holdings.exists_ifAny]

theorem all_of_carries (filled : ∀ p, m'.lookup p ≠ some ∅)
    (kept : ∀ p t, m'.Carries p t ↔ m.Carries p t ∧ keep p t = true) :
    m'.all = (m.all.map fun r => r.restrict (keep r.path)).filter (!·.isEmpty) := by
  have lookups := fun p => lookup_of_carries filled kept (p := p)
  have paths : m'.keys = m.keys.filter fun p => (m'.lookup p).isSome = true := by
    ext p
    rw [Finset.mem_filter, Finmap.mem_keys, Finmap.mem_keys, Finmap.lookup_isSome]
    refine ⟨fun there => ⟨?_, there⟩, fun both => both.2⟩
    rw [← Finmap.lookup_isSome, lookups] at there
    exact Finmap.lookup_isSome.1 (Option.isSome_of_isSome_bind there)
  rw [all, paths, sort_filter, List.filterMap_filter, all, List.map_filterMap,
    List.filter_filterMap]
  refine List.filterMap_congr fun p there => ?_
  rw [lookups]
  cases m.lookup p with
  | none => rfl
  | some h =>
    have row : (h.record p).restrict (keep (h.record p).path) = (h.restrict (keep p)).record p :=
      Holdings.record_restrict.symm
    simp only [Option.bind_some, Option.map_some, row, Holdings.ifAny]
    by_cases bare : h.restrict (keep p) = ∅ <;> simp [bare, Holdings.isEmpty_record, Option.filter]

end

end Ledger

/-! ## Records of an index -/

namespace Index

variable {ix ix' : Index}

theorem Keyed.mem_all (k : Keyed ix) {r : Record} : r ∈ ix.all ↔ ix.get? r.path = some r := by
  rw [all_eq k, Ledger.mem_all, get?_eq k, Option.map_eq_some_iff]

/-- The record at a path carries a tag. -/
def Tagged (ix : Index) (p : Path) (t : Tag) : Prop := ∃ r ∈ ix.all, r.path = p ∧ r.Carries t

theorem tagged_iff (k : Keyed ix) {p : Path} {t : Tag} :
    ix.Tagged p t ↔ ix.ledger.Carries p t := by
  rw [Ledger.carries_iff, ← all_eq k, Tagged]

theorem forall_path_all {P : Path → Prop} (files : ∀ row ∈ ix.files, P row.2) :
    ∀ r ∈ ix.all, P r.path := by
  intro r there
  obtain ⟨row, sorted, rfl⟩ := List.mem_map.1 there
  exact files row ((List.mergeSort_perm _ _).subset sorted)

theorem Keyed.nodup_tags (k : Keyed ix) {r : Record} (there : r ∈ ix.all) : r.tags.Nodup := by
  rw [all_eq k] at there
  obtain ⟨h, -, same⟩ := Ledger.mem_all.1 there
  rw [← same]
  exact Finset.sort_nodup _ _

/-- The records of an index whose files carry what is kept of another one. -/
theorem Consistent.all_of_carries (c : Consistent ix') (k : Keyed ix) {keep : Path → Tag → Bool}
    (kept : ∀ p t, ix'.ledger.Carries p t ↔ ix.ledger.Carries p t ∧ keep p t = true) :
    ix'.all = (ix.all.map fun r => r.restrict (keep r.path)).filter (!·.isEmpty) := by
  rw [all_eq c.toKeyed, all_eq k]
  exact Ledger.all_of_carries (fun p => lookup_ledger_ne_empty c) kept

/-- To keep some files as they are is to leave out the others. -/
theorem Consistent.filter_restrict (c : Consistent ix) (keep : Path → Bool) :
    (ix.all.map fun r => r.restrict fun _ => keep r.path).filter (!·.isEmpty) =
      ix.all.filter (keep ·.path) := by
  have filled : ix.all.filter ((!·.isEmpty) ∘ fun r => r.restrict fun _ => keep r.path) =
      ix.all.filter (keep ·.path) := by
    refine List.filter_congr fun r there => ?_
    rw [Function.comp]
    cases keep r.path with
    | true => rw [Record.restrict_true, isEmpty_of_mem_all c there]; rfl
    | false => rw [Record.isEmpty_restrict_false]; rfl
  have same : ∀ r ∈ ix.all.filter (keep ·.path), (r.restrict fun _ => keep r.path) = r := by
    intro r there
    rw [(List.mem_filter.1 there).2, Record.restrict_true]
  rw [List.filter_map, filled]
  exact (List.map_congr_left same).trans (List.map_id _)

/-- The records of an index are determined by what they carry. -/
theorem Consistent.all_eq_of_tagged (c : Consistent ix) (c' : Consistent ix')
    (same : ∀ p t, ix'.Tagged p t ↔ ix.Tagged p t) : ix'.all = ix.all := by
  have kept : ∀ p t, ix'.ledger.Carries p t ↔ ix.ledger.Carries p t ∧ true = true := fun p t => by
    rw [← tagged_iff c'.toKeyed, same, tagged_iff c.toKeyed, and_iff_left rfl]
  rw [c'.all_of_carries c.toKeyed kept, c.filter_restrict fun _ => true, List.filter_true]

end Index

/-! ## Many changes -/

namespace Index.Keyed

variable {ix : Index} {p : Path} {t : Tag}

theorem add (k : Keyed ix) : Keyed (ix.add p t) := by
  rw [add_eq]
  exact k.enter.write (mem_ids.2 ⟨p, mem_files_enter⟩)

theorem remove (k : Keyed ix) : Keyed (ix.remove p t) := by
  cases h : ix.id? p with
  | none => rw [remove_of_id?_none h]; exact k
  | some id => rw [remove_of_id?_some h]; exact k.delete.prune

/-- Tags written to a file are carried by it, and nothing else changes. -/
theorem foldl_add (k : Keyed ix) (tags : List Tag) :
    let ix' := tags.foldl (·.add p ·) ix
    Keyed ix' ∧ ∀ q u, ix'.ledger.Carries q u ↔ (q = p ∧ u ∈ tags) ∨ ix.ledger.Carries q u := by
  induction tags generalizing ix with
  | nil => exact ⟨k, fun q u => by simp⟩
  | cons t tags ih =>
    obtain ⟨k', carries⟩ := ih (k.add (p := p) (t := t))
    refine ⟨k', fun q u => (carries q u).trans ?_⟩
    rw [ledger_add k, Ledger.carries_add, List.mem_cons]
    tauto

/-- Tags deleted from files are not carried by them, and nothing else changes. -/
theorem foldl_remove (k : Keyed ix) (rows : List (Path × Tag)) :
    let ix' := rows.foldl (fun ix row => ix.remove row.1 row.2) ix
    Keyed ix' ∧ ∀ q u, ix'.ledger.Carries q u ↔ (q, u) ∉ rows ∧ ix.ledger.Carries q u := by
  induction rows generalizing ix with
  | nil => exact ⟨k, fun q u => by simp⟩
  | cons row rows ih =>
    obtain ⟨k', carries⟩ := ih (k.remove (p := row.1) (t := row.2))
    refine ⟨k', fun q u => (carries q u).trans ?_⟩
    rw [ledger_remove k, Ledger.carries_remove, List.mem_cons, Prod.ext_iff]
    tauto

end Index.Keyed

theorem Index.Consistent.foldl_remove {ix : Index} (c : ix.Consistent) (rows : List (Path × Tag)) :
    Consistent (rows.foldl (fun ix row => ix.remove row.1 row.2) ix) := by
  induction rows generalizing ix with
  | nil => exact c
  | cons row rows ih => exact ih c.remove

end FileTags
