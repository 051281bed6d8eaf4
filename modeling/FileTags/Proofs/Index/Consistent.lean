/-
  The tables of an index fit together.

  Numbers and paths of files are keys, the numbers given so far are below the next one, no row
  is there twice, rows for tags and attributes refer to files that are there, and every file that
  is there carries something.

  * `Index.Has` says that a row gives a tag to the file with a number;
  * `Index.Keyed` is what the keys of the tables ensure, also while a file carries nothing;
  * `Index.Consistent` is what holds between two operations: `Consistent.add`,
    `Consistent.remove`, `Consistent.discard` and `Consistent.move`.
-/
import FileTags.Index
import Mathlib.Data.List.Nodup

namespace FileTags.Index

/-! ## Rows of a number -/

/-- The numbers of files. -/
def ids (ix : Index) : List FileId := ix.files.map (·.1)

/-- A row gives a tag to the file with a number. -/
def Has (ix : Index) (id : FileId) : Tag → Prop
  | .bare word => (id, word) ∈ ix.tags
  | .pair key value => (id, key, value) ∈ ix.attributes

/-- Writes the row of a tag. -/
def write (ix : Index) (id : FileId) : Tag → Index
  | .bare word => { ix with tags := insertRow (id, word) ix.tags }
  | .pair key value => { ix with attributes := insertRow (id, key, value) ix.attributes }

/-- Deletes the row of a tag. -/
def delete (ix : Index) (id : FileId) : Tag → Index
  | .bare word => { ix with tags := ix.tags.filter (· ≠ (id, word)) }
  | .pair key value => { ix with attributes := ix.attributes.filter (· ≠ (id, key, value)) }

/-- Changes the path in the row of a file. -/
def rename (ix : Index) (id : FileId) (new : Path) : Index :=
  { ix with files := ix.files.map fun row => if row.1 = id then (id, new) else row }

section
variable {ix : Index} {id id' : FileId} {p q old new : Path} {t u : Tag}

/-! ## The operations in terms of rows -/

theorem add_eq : ix.add p t = (ix.enter p).2.write (ix.enter p).1 t := by
  cases t <;> rfl

theorem remove_of_id?_none (absent : ix.id? p = none) : ix.remove p t = ix := by
  cases t <;> simp [remove, removeTag, removeAttribute, absent]

theorem remove_of_id?_some (there : ix.id? p = some id) :
    ix.remove p t = (ix.delete id t).prune id := by
  cases t <;> simp [remove, removeTag, removeAttribute, delete, there]

theorem removeFile_of_id?_none (absent : ix.id? p = none) : ix.removeFile p = (false, ix) := by
  simp [removeFile, absent]

theorem removeFile_of_id?_some (there : ix.id? p = some id) :
    ix.removeFile p = (true, ix.erase id) := by
  simp [removeFile, there]

theorem move_of_id?_none (absent : ix.id? old = none) : ix.move old new = .error ⟨old⟩ := by
  simp [move, absent]

theorem move_self (there : ix.id? old = some id) : ix.move old old = .ok ix := by
  simp [move, there]

theorem move_of_ne (there : ix.id? old = some id) (ne : old ≠ new) :
    ix.move old new = .ok ((ix.discard new).rename id new) := by
  simp [move, there, ne, rename]

/-! ## Rows after a step -/

@[simp] theorem mem_insertRow {α : Type} [DecidableEq α] {row a : α} {rows : List α} :
    a ∈ insertRow row rows ↔ a = row ∨ a ∈ rows := by
  unfold insertRow
  split
  · next there =>
    constructor
    · exact Or.inr
    · rintro (rfl | h)
      · exact there
      · exact h
  · simp [or_comm]

theorem insertRow_nodup {α : Type} [DecidableEq α] {row : α} {rows : List α}
    (nodup : rows.Nodup) : (insertRow row rows).Nodup := by
  unfold insertRow
  split
  · exact nodup
  · next absent =>
    simpa using nodup.concat absent

@[simp] theorem has_write : (ix.write id t).Has id' u ↔ (id' = id ∧ u = t) ∨ ix.Has id' u := by
  cases t <;> cases u <;> simp [write, Has]

@[simp] theorem has_delete :
    (ix.delete id t).Has id' u ↔ ¬ (id' = id ∧ u = t) ∧ ix.Has id' u := by
  cases t <;> cases u <;> simp [delete, Has, and_comm, imp_iff_not_or]

@[simp] theorem has_erase : (ix.erase id).Has id' u ↔ id' ≠ id ∧ ix.Has id' u := by
  cases u <;> simp [erase, Has, and_comm]

@[simp] theorem has_rename : (ix.rename id new).Has id' u ↔ ix.Has id' u := by
  cases u <;> rfl

@[simp] theorem has_prune : (ix.prune id).Has id' u ↔ ix.Has id' u := by
  unfold prune
  split <;> cases u <;> rfl

@[simp] theorem has_enter : (ix.enter p).2.Has id' u ↔ ix.Has id' u := by
  unfold enter
  split <;> cases u <;> rfl

theorem carries_iff : ix.carries id = true ↔ ∃ t, ix.Has id t := by
  simp only [carries, Bool.or_eq_true, List.any_eq_true, beq_iff_eq]
  constructor
  · rintro (⟨⟨_, word⟩, row, rfl⟩ | ⟨⟨_, key, value⟩, row, rfl⟩)
    · exact ⟨.bare word, row⟩
    · exact ⟨.pair key value, row⟩
  · rintro ⟨t, row⟩
    cases t with
    | bare word => exact Or.inl ⟨_, row, rfl⟩
    | pair key value => exact Or.inr ⟨_, row, rfl⟩

@[simp] theorem files_write : (ix.write id t).files = ix.files := by
  cases t <;> rfl

@[simp] theorem files_delete : (ix.delete id t).files = ix.files := by
  cases t <;> rfl

theorem prune_of_has (carried : ∃ t, ix.Has id t) : ix.prune id = ix := by
  simp [prune, carries_iff.2 carried]

theorem prune_of_not (bare : ∀ t, ¬ ix.Has id t) :
    ix.prune id = { ix with files := ix.files.filter (·.1 ≠ id) } := by
  have : ¬ ix.carries id = true := fun h => (carries_iff.1 h).elim bare
  simp [prune, this]

/-! ## Looking up numbers -/

/-- The keys of the tables are keys, and rows for tags and attributes refer to files. -/
structure Keyed (ix : Index) : Prop where
  ids_nodup : ix.ids.Nodup
  paths_nodup : (ix.files.map (·.2)).Nodup
  lt_next : ∀ id ∈ ix.ids, id < ix.next
  tags_nodup : ix.tags.Nodup
  attributes_nodup : ix.attributes.Nodup
  refers : ∀ id t, ix.Has id t → id ∈ ix.ids

theorem mem_ids : id ∈ ix.ids ↔ ∃ p, (id, p) ∈ ix.files := by
  simp [ids]

theorem mem_files_of_id? (h : ix.id? p = some id) : (id, p) ∈ ix.files := by
  obtain ⟨⟨_, q⟩, found, rfl⟩ := Option.map_eq_some_iff.1 h
  obtain rfl : q = p := by simpa using List.find?_some found
  exact List.mem_of_find?_eq_some found

theorem id?_eq_none_iff : ix.id? p = none ↔ ∀ id, (id, p) ∉ ix.files := by
  simp only [id?, Option.map_eq_none_iff, List.find?_eq_none, decide_eq_true_eq]
  constructor
  · exact fun absent id row => absent (id, p) row rfl
  · rintro absent ⟨id, q⟩ row rfl
    exact absent id row

theorem mem_paths_iff : p ∈ ix.files.map (·.2) ↔ (ix.id? p).isSome := by
  rw [← Option.ne_none_iff_isSome, Ne, id?_eq_none_iff]
  simp

namespace Keyed

theorem path_eq (k : Keyed ix) (hp : (id, p) ∈ ix.files) (hq : (id, q) ∈ ix.files) : p = q :=
  congrArg Prod.snd (List.inj_on_of_nodup_map k.ids_nodup hp hq rfl)

theorem id_eq (k : Keyed ix) (h : (id, p) ∈ ix.files) (h' : (id', p) ∈ ix.files) : id = id' :=
  congrArg Prod.fst (List.inj_on_of_nodup_map k.paths_nodup h h' rfl)

theorem id?_eq_some_iff (k : Keyed ix) : ix.id? p = some id ↔ (id, p) ∈ ix.files := by
  constructor
  · exact mem_files_of_id?
  · intro row
    cases h : ix.id? p with
    | none => exact absurd row (id?_eq_none_iff.1 h id)
    | some id' => rw [k.id_eq (mem_files_of_id? h) row]

end Keyed

/-! ## Keys stay keys -/

theorem enter_of_some (there : ix.id? p = some id) : ix.enter p = (id, ix) := by
  simp [enter, there]

theorem enter_of_none (absent : ix.id? p = none) : ix.enter p =
    (ix.next, { ix with files := ix.files ++ [(ix.next, p)], next := ix.next + 1 }) := by
  simp [enter, absent]

theorem mem_files_enter : ((ix.enter p).1, p) ∈ (ix.enter p).2.files := by
  cases h : ix.id? p with
  | none => simp [enter_of_none h]
  | some id => rw [enter_of_some h]; exact mem_files_of_id? h

namespace Keyed

theorem empty : Keyed empty := by
  constructor <;> simp [Index.empty, ids]
  rintro id (word | ⟨key, value⟩) row <;> cases row

theorem enter (k : Keyed ix) : Keyed (ix.enter p).2 := by
  cases h : ix.id? p with
  | some id => rw [enter_of_some h]; exact k
  | none =>
    have fresh : ix.next ∉ ix.ids := fun there => Nat.lt_irrefl _ (k.lt_next _ there)
    have new : p ∉ ix.files.map (·.2) := fun there => by
      rw [mem_paths_iff, h] at there
      cases there
    rw [enter_of_none h]
    refine ⟨?_, ?_, ?_, k.tags_nodup, k.attributes_nodup, ?_⟩
    · simpa [ids] using k.ids_nodup.concat fresh
    · simpa using k.paths_nodup.concat new
    · intro id there
      rcases (by simpa [ids] using there : (∃ q, (id, q) ∈ ix.files) ∨ id = ix.next) with old | rfl
      · exact Nat.lt_succ_of_lt (k.lt_next id (mem_ids.2 old))
      · exact Nat.lt_succ_self _
    · intro id t row
      have row : ix.Has id t := by cases t <;> exact row
      exact mem_ids.2 ((mem_ids.1 (k.refers id t row)).imp fun q => List.mem_append_left _)

theorem write (k : Keyed ix) (there : id ∈ ix.ids) : Keyed (ix.write id t) := by
  have refers : ∀ id' u, (ix.write id t).Has id' u → id' ∈ (ix.write id t).ids := by
    intro id' u row
    rw [ids, files_write]
    rcases has_write.1 row with ⟨rfl, -⟩ | row
    · exact there
    · exact k.refers id' u row
  cases t with
  | bare word =>
    exact ⟨k.ids_nodup, k.paths_nodup, k.lt_next, insertRow_nodup k.tags_nodup,
      k.attributes_nodup, refers⟩
  | pair key value =>
    exact ⟨k.ids_nodup, k.paths_nodup, k.lt_next, k.tags_nodup,
      insertRow_nodup k.attributes_nodup, refers⟩

theorem delete (k : Keyed ix) : Keyed (ix.delete id t) := by
  have refers : ∀ id' u, (ix.delete id t).Has id' u → id' ∈ (ix.delete id t).ids := by
    intro id' u row
    rw [ids, files_delete]
    exact k.refers id' u (has_delete.1 row).2
  cases t with
  | bare word =>
    exact ⟨k.ids_nodup, k.paths_nodup, k.lt_next, k.tags_nodup.filter _,
      k.attributes_nodup, refers⟩
  | pair key value =>
    exact ⟨k.ids_nodup, k.paths_nodup, k.lt_next, k.tags_nodup,
      k.attributes_nodup.filter _, refers⟩

/-- The row of a file may go when no other row refers to it any more. -/
theorem dropFile (k : Keyed ix) {ix' : Index} (files : ix'.files = ix.files.filter (·.1 ≠ id))
    (tags : ix'.tags.Sublist ix.tags) (attributes : ix'.attributes.Sublist ix.attributes)
    (next : ix'.next = ix.next) (left : ∀ id' u, ix'.Has id' u → id' ≠ id ∧ ix.Has id' u) :
    Keyed ix' := by
  have fewer : ix'.files.Sublist ix.files := files ▸ List.filter_sublist
  refine ⟨k.ids_nodup.sublist (fewer.map _), k.paths_nodup.sublist (fewer.map _), ?_,
    k.tags_nodup.sublist tags, k.attributes_nodup.sublist attributes, ?_⟩
  · intro id' there
    rw [next]
    exact k.lt_next id' ((fewer.map _).subset there)
  · intro id' u row
    obtain ⟨ne, row⟩ := left id' u row
    obtain ⟨p, there⟩ := mem_ids.1 (k.refers id' u row)
    refine mem_ids.2 ⟨p, ?_⟩
    rw [files]
    exact List.mem_filter.2 ⟨there, by simpa using ne⟩

theorem erase (k : Keyed ix) : Keyed (ix.erase id) :=
  k.dropFile rfl List.filter_sublist List.filter_sublist rfl fun _ _ row => has_erase.1 row

theorem discard (k : Keyed ix) : Keyed (ix.discard p) := by
  cases h : ix.id? p with
  | none => simpa [Index.discard, removeFile_of_id?_none h] using k
  | some id => simpa [Index.discard, removeFile_of_id?_some h] using k.erase

theorem prune (k : Keyed ix) : Keyed (ix.prune id) := by
  by_cases carried : ∃ t, ix.Has id t
  · rw [prune_of_has carried]
    exact k
  · have bare : ∀ t, ¬ ix.Has id t := not_exists.1 carried
    rw [prune_of_not bare]
    have left : ∀ id' u, ix.Has id' u → id' ≠ id := by
      rintro _ u row rfl
      exact bare u row
    refine k.dropFile rfl (List.Sublist.refl _) (List.Sublist.refl _) rfl ?_
    intro id' u row
    have row : ix.Has id' u := by cases u <;> exact row
    exact ⟨left id' u row, row⟩

theorem rename (k : Keyed ix) (free : ix.id? new = none) : Keyed (ix.rename id new) := by
  have ids_eq : (ix.rename id new).ids = ix.ids := by
    simp only [ids, Index.rename, List.map_map]
    refine List.map_congr_left fun row _ => ?_
    by_cases h : row.1 = id <;> simp [h]
  have files_nodup : ix.files.Nodup := k.ids_nodup.of_map _
  refine ⟨ids_eq ▸ k.ids_nodup, ?_, fun id' there => k.lt_next id' (ids_eq ▸ there),
    k.tags_nodup, k.attributes_nodup, ?_⟩
  · simp only [Index.rename, List.map_map]
    refine files_nodup.map_on ?_
    have other : ∀ row ∈ ix.files, new ≠ row.2 := fun row there e =>
      id?_eq_none_iff.1 free row.1 (e ▸ there)
    intro a ha b hb same
    by_cases hida : a.1 = id <;> by_cases hidb : b.1 = id
    · exact List.inj_on_of_nodup_map k.ids_nodup ha hb (hida.trans hidb.symm)
    · exact absurd (by simpa [hida, hidb] using same) (other b hb)
    · exact absurd (by simpa [hida, hidb] using same.symm) (other a ha)
    · exact List.inj_on_of_nodup_map k.paths_nodup ha hb (by simpa [hida, hidb] using same)
  · intro id' u row
    rw [ids_eq]
    exact k.refers id' u (has_rename.1 row)

end Keyed

/-! ## Numbers after a step -/

theorem id?_enter :
    (ix.enter p).2.id? q = if q = p then some (ix.enter p).1 else ix.id? q := by
  cases h : ix.id? p with
  | some id =>
    rw [enter_of_some h]
    split
    · next e => rw [e, h]
    · rfl
  | none =>
    rw [enter_of_none h]
    by_cases e : q = p
    · subst e
      have h := Option.map_eq_none_iff.1 h
      simp [id?, List.find?_append, h]
    · simp [id?, List.find?_append, e, Ne.symm e]

@[simp] theorem id?_write : (ix.write id t).id? q = ix.id? q := by
  cases t <;> rfl

@[simp] theorem id?_delete : (ix.delete id t).id? q = ix.id? q := by
  cases t <;> rfl

namespace Keyed

/-- Without the row of a file, its path has no number and the other paths keep theirs. -/
theorem id?_filter (k : Keyed ix) {ix' : Index} (k' : Keyed ix')
    (files : ix'.files = ix.files.filter (·.1 ≠ id)) (there : ix.id? p = some id) :
    ix'.id? q = if q = p then none else ix.id? q := by
  have mem : ∀ id', (id', q) ∈ ix'.files ↔ (id', q) ∈ ix.files ∧ id' ≠ id := by
    intro id'
    rw [files, List.mem_filter]
    simp
  by_cases e : q = p
  · subst e
    rw [if_pos rfl, id?_eq_none_iff]
    intro id' row
    obtain ⟨row, ne⟩ := (mem id').1 row
    exact ne (k.id_eq row (mem_files_of_id? there))
  · rw [if_neg e]
    refine Option.ext fun id' => ?_
    rw [k'.id?_eq_some_iff, k.id?_eq_some_iff, mem]
    refine ⟨And.left, fun row => ⟨row, ?_⟩⟩
    rintro rfl
    exact e (k.path_eq row (mem_files_of_id? there))

theorem id?_erase (k : Keyed ix) (there : ix.id? p = some id) :
    (ix.erase id).id? q = if q = p then none else ix.id? q :=
  k.id?_filter k.erase rfl there

theorem id?_discard (k : Keyed ix) :
    (ix.discard p).id? q = if q = p then none else ix.id? q := by
  cases h : ix.id? p with
  | none =>
    rw [Index.discard, removeFile_of_id?_none h]
    split
    · next e => rw [e, h]
    · rfl
  | some id =>
    rw [Index.discard, removeFile_of_id?_some h]
    exact k.id?_erase h

theorem id?_rename (k : Keyed ix) (there : ix.id? old = some id) (free : ix.id? new = none) :
    (ix.rename id new).id? q =
      if q = new then some id else if q = old then none else ix.id? q := by
  have k' : Keyed (ix.rename id new) := k.rename free
  have mem : ∀ id', (id', q) ∈ (ix.rename id new).files ↔
      (id' = id ∧ q = new) ∨ (id' ≠ id ∧ (id', q) ∈ ix.files) := by
    intro id'
    simp only [Index.rename, List.mem_map]
    constructor
    · rintro ⟨row, hrow, e⟩
      split at e
      · cases e
        exact Or.inl ⟨rfl, rfl⟩
      · next ne =>
        subst e
        exact Or.inr ⟨ne, hrow⟩
    · rintro (⟨rfl, rfl⟩ | ⟨ne, row⟩)
      · exact ⟨_, mem_files_of_id? there, by simp⟩
      · exact ⟨_, row, by simp [ne]⟩
  refine Option.ext fun id' => ?_
  rw [k'.id?_eq_some_iff, mem]
  split
  · next e =>
    subst e
    have : (id', q) ∉ ix.files := id?_eq_none_iff.1 free id'
    simp [this, eq_comm]
  · next ne =>
    split
    · next e =>
      subst e
      have : (id', q) ∈ ix.files → id' = id := fun row => k.id_eq row (mem_files_of_id? there)
      simpa [ne] using fun h => not_imp_not.2 this h
    · next ne' =>
      rw [k.id?_eq_some_iff]
      have : (id', q) ∈ ix.files → id' ≠ id := by
        rintro row rfl
        exact ne' (k.path_eq row (mem_files_of_id? there))
      simpa [ne] using this

end Keyed

/-! ## Consistent tables -/

/-- The tables between two operations: no file is there that carries nothing. -/
structure Consistent (ix : Index) : Prop extends Keyed ix where
  carries : ∀ id ∈ ix.ids, ∃ t, ix.Has id t

theorem mem_ids_enter (h : id ∈ (ix.enter p).2.ids) : id = (ix.enter p).1 ∨ id ∈ ix.ids := by
  cases e : ix.id? p with
  | some id' =>
    rw [enter_of_some e] at h
    exact Or.inr h
  | none =>
    rw [enter_of_none e] at h ⊢
    rcases (by simpa [ids] using h : (∃ q, (id, q) ∈ ix.files) ∨ id = ix.next) with old | last
    · exact Or.inr (mem_ids.2 old)
    · exact Or.inl last

theorem mem_ids_of_filter (h : id' ∈ (ix.files.filter (·.1 ≠ id)).map (·.1)) :
    id' ≠ id ∧ id' ∈ ix.ids := by
  obtain ⟨row, there, rfl⟩ := List.mem_map.1 h
  obtain ⟨there, ne⟩ := List.mem_filter.1 there
  exact ⟨by simpa using ne, List.mem_map_of_mem there⟩

namespace Consistent

theorem empty : Consistent empty := ⟨Keyed.empty, by simp [Index.empty, ids]⟩

theorem add (c : Consistent ix) : Consistent (ix.add p t) := by
  rw [add_eq]
  refine ⟨c.toKeyed.enter.write (mem_ids.2 ⟨p, mem_files_enter⟩), ?_⟩
  intro id there
  rw [ids, files_write] at there
  rcases mem_ids_enter there with rfl | old
  · exact ⟨t, has_write.2 (Or.inl ⟨rfl, rfl⟩)⟩
  · obtain ⟨u, row⟩ := c.carries id old
    exact ⟨u, has_write.2 (Or.inr (has_enter.2 row))⟩

theorem remove (c : Consistent ix) : Consistent (ix.remove p t) := by
  cases h : ix.id? p with
  | none => rw [remove_of_id?_none h]; exact c
  | some id =>
    rw [remove_of_id?_some h]
    refine ⟨c.toKeyed.delete.prune, ?_⟩
    have others : ∀ id' ≠ id, id' ∈ ix.ids → ∃ u, (ix.delete id t).Has id' u := by
      intro id' ne there
      obtain ⟨u, row⟩ := c.carries id' there
      exact ⟨u, has_delete.2 ⟨fun both => ne both.1, row⟩⟩
    intro id' there
    simp only [has_prune]
    by_cases carried : ∃ u, (ix.delete id t).Has id u
    · rw [prune_of_has carried, ids, files_delete] at there
      by_cases e : id' = id
      · exact e ▸ carried
      · exact others id' e there
    · rw [prune_of_not (not_exists.1 carried), ids, files_delete] at there
      obtain ⟨ne, there⟩ := mem_ids_of_filter there
      exact others id' ne there

theorem erase (c : Consistent ix) : Consistent (ix.erase id) := by
  refine ⟨c.toKeyed.erase, ?_⟩
  intro id' there
  obtain ⟨ne, there⟩ := mem_ids_of_filter there
  obtain ⟨u, row⟩ := c.carries id' there
  exact ⟨u, has_erase.2 ⟨ne, row⟩⟩

theorem discard (c : Consistent ix) : Consistent (ix.discard p) := by
  cases h : ix.id? p with
  | none => simpa [Index.discard, removeFile_of_id?_none h] using c
  | some id => simpa [Index.discard, removeFile_of_id?_some h] using c.erase

theorem rename (c : Consistent ix) (free : ix.id? new = none) : Consistent (ix.rename id new) := by
  refine ⟨c.toKeyed.rename free, ?_⟩
  intro id' there
  obtain ⟨row, hrow, rfl⟩ := List.mem_map.1 there
  obtain ⟨old, hold, rfl⟩ := List.mem_map.1 hrow
  obtain ⟨u, hu⟩ := c.carries old.1 (List.mem_map_of_mem hold)
  refine ⟨u, has_rename.2 ?_⟩
  split
  · next e => exact e ▸ hu
  · exact hu

theorem move {ix' : Index} (c : Consistent ix) (h : ix.move old new = .ok ix') :
    Consistent ix' := by
  cases e : ix.id? old with
  | none => simp [move_of_id?_none e] at h
  | some id =>
    by_cases ne : old = new
    · subst ne
      rw [move_self e] at h
      cases h
      exact c
    · rw [move_of_ne e ne] at h
      cases h
      exact c.discard.rename (by rw [c.toKeyed.id?_discard, if_pos rfl])

end Consistent

end

end FileTags.Index
