/-
  Removing what has been added.

  Removing tags takes their rows out of the tables, whether they have just been written or were
  there before, and drops the file once nothing refers to it.  A file that was entered for them is
  dropped in the end, so nothing is left of it but that its number is not given again.

  * `Index.SameTables` says that two indexes have the same rows; by `SameTables.alike` nothing
    tells them apart then;
  * `Index.filterRows` are the tables with those rows for tags that are kept;
  * `Index.Consistent.foldl_remove_eq`: removing tags one after the other takes out their rows and
    then drops the file if it is bare, wherever on the way that happens;
  * `Index.Consistent.remove_added`: tags that are removed need not have been added;
  * `Database.remove_undoes_add`: the same for what a text stands for.
-/
import FileTags.Proofs.Database.Finding
import FileTags.Proofs.Database.Policy
import FileTags.Proofs.Index.Commuting

namespace FileTags

namespace Index

/-- Two indexes have the same rows in all tables. -/
structure SameTables (ix ix' : Index) : Prop where
  files : ix.files = ix'.files
  tags : ix.tags = ix'.tags
  attributes : ix.attributes = ix'.attributes

theorem SameTables.refl (ix : Index) : ix.SameTables ix := ⟨rfl, rfl, rfl⟩

/-- The number of the next file shows nowhere. -/
theorem SameTables.alike {ix ix' : Index} (same : ix.SameTables ix') (c : Consistent ix)
    (c' : Consistent ix') : Alike ix ix' := by
  have holdings : ix.holdings = ix'.holdings := by
    funext id
    rw [Index.holdings, Index.holdings, same.tags, same.attributes]
  refine alike_of_ledger c c' ?_
  rw [ledger, ledger, same.files, holdings]

/-- The tables with those rows for tags that are kept. -/
def filterRows (ix : Index) (keep : FileId → Tag → Bool) : Index :=
  { ix with
    tags := ix.tags.filter fun (id, word) => keep id (.bare word)
    attributes := ix.attributes.filter fun (id, key, value) => keep id (.pair key value) }

/-- The tables without the rows of a file for some tags. -/
def without (ix : Index) (id : FileId) (tags : List Tag) : Index :=
  ix.filterRows fun id' t => !decide (id' = id ∧ t ∈ tags)

variable {ix : Index} {id id' : FileId} {p : Path} {t : Tag} {tags added removed : List Tag}
  {keep keep' : FileId → Tag → Bool}

/-! ## Rows that are kept -/

theorem filterRows_filterRows :
    (ix.filterRows keep).filterRows keep' = ix.filterRows fun id t => keep id t && keep' id t := by
  simp [filterRows, List.filter_filter, Bool.and_comm]

theorem filterRows_of_has (kept : ∀ id t, ix.Has id t → keep id t = true) :
    ix.filterRows keep = ix := by
  have tags : ix.tags.filter (fun row => keep row.1 (.bare row.2)) = ix.tags :=
    List.filter_eq_self.2 fun row there => kept row.1 (.bare row.2) there
  have attributes : ix.attributes.filter (fun row => keep row.1 (.pair row.2.1 row.2.2)) =
      ix.attributes :=
    List.filter_eq_self.2 fun row there => kept row.1 (.pair row.2.1 row.2.2) there
  simp only [filterRows, tags, attributes]

theorem filter_insertRow {α : Type} [DecidableEq α] {row : α} {rows : List α} {keep : α → Bool}
    (dropped : keep row = false) : (insertRow row rows).filter keep = rows.filter keep := by
  unfold insertRow
  split
  · rfl
  · simp [List.filter_append, dropped]

/-- A row that is not kept need not have been written. -/
theorem write_filterRows (dropped : keep id t = false) :
    (ix.write id t).filterRows keep = ix.filterRows keep := by
  cases t with
  | bare word =>
    have rows : (insertRow (id, word) ix.tags).filter (fun row => keep row.1 (.bare row.2)) =
        ix.tags.filter fun row => keep row.1 (.bare row.2) := filter_insertRow dropped
    simp only [write, filterRows, rows]
  | pair key value =>
    have rows : (insertRow (id, key, value) ix.attributes).filter
          (fun row => keep row.1 (.pair row.2.1 row.2.2)) =
        ix.attributes.filter fun row => keep row.1 (.pair row.2.1 row.2.2) :=
      filter_insertRow dropped
    simp only [write, filterRows, rows]

theorem delete_eq : ix.delete id t = ix.without id [t] := by
  cases t <;> simp [delete, without, filterRows, Prod.ext_iff]

theorem without_nil : ix.without id [] = ix :=
  filterRows_of_has fun _ _ _ => by simp

theorem delete_without : (ix.delete id t).without id tags = ix.without id (t :: tags) := by
  have both : ∀ id' u, (!decide (id' = id ∧ u ∈ [t]) && !decide (id' = id ∧ u ∈ tags)) =
      !decide (id' = id ∧ u ∈ t :: tags) := fun id' u => by
    by_cases same : id' = id <;> simp [same]
  simp only [delete_eq, without, filterRows_filterRows, both]

theorem without_of_bare (bare : ∀ t, ¬ ix.Has id t) : ix.without id tags = ix :=
  filterRows_of_has fun id' t row => by
    have other : id' ≠ id := fun e => bare t (e ▸ row)
    simp [other]

theorem foldl_write_without (sub : ∀ t ∈ added, t ∈ removed) :
    (added.foldl (·.write id ·) ix).without id removed = ix.without id removed := by
  induction added generalizing ix with
  | nil => rfl
  | cons t added ih =>
    obtain ⟨first, others⟩ := List.forall_mem_cons.1 sub
    rw [List.foldl_cons, ih others]
    exact write_filterRows (by simp [first])

/-! ## Removing one after the other -/

theorem Consistent.foldl_remove_tags (c : Consistent ix) :
    Consistent (tags.foldl (·.remove p ·) ix) := by
  have rows := c.foldl_remove (tags.map (p, ·))
  rw [List.foldl_map] at rows
  exact rows

theorem foldl_remove_of_id?_none (absent : ix.id? p = none) :
    tags.foldl (·.remove p ·) ix = ix := by
  induction tags with
  | nil => rfl
  | cons t tags ih => rw [List.foldl_cons, remove_of_id?_none absent, ih]

theorem Consistent.prune_eq (c : Consistent ix) (there : ix.id? p = some id) : ix.prune id = ix :=
  prune_of_has (c.carries id (mem_ids.2 ⟨p, mem_files_of_id? there⟩))

/-- **Removing tags takes out their rows**, and drops the file if nothing is left of it. -/
theorem Consistent.foldl_remove_eq (c : Consistent ix) (there : ix.id? p = some id) :
    tags.foldl (·.remove p ·) ix = (ix.without id tags).prune id := by
  induction tags generalizing ix with
  | nil => rw [List.foldl_nil, without_nil, c.prune_eq there]
  | cons t tags ih =>
    have there' : (ix.delete id t).id? p = some id := id?_delete.trans there
    rw [List.foldl_cons, remove_of_id?_some there, ← delete_without]
    by_cases left : ∃ u, (ix.delete id t).Has id u
    · have c' : Consistent (ix.remove p t) := c.remove
      rw [remove_of_id?_some there, prune_of_has left] at c'
      rw [prune_of_has left]
      exact ih c' there'
    · -- The file is dropped here: it has no rows left, and what follows does not find it.
      have bare := not_exists.1 left
      have k : Keyed (ix.delete id t) := c.toKeyed.delete
      have gone : ((ix.delete id t).prune id).id? p = none :=
        (k.id?_filter k.prune (by rw [prune_of_not bare]) there').trans (if_pos rfl)
      rw [foldl_remove_of_id?_none gone, without_of_bare bare]

/-- Removing what a file does not carry changes nothing. -/
theorem Consistent.foldl_remove_of_not_carries (c : Consistent ix)
    (bare : ∀ t ∈ tags, ¬ ix.ledger.Carries p t) : tags.foldl (·.remove p ·) ix = ix := by
  cases there : ix.id? p with
  | none => exact foldl_remove_of_id?_none there
  | some id =>
    have kept : ix.without id tags = ix := filterRows_of_has fun id' t row => by
      have absent : ¬ (id' = id ∧ t ∈ tags) := by
        rintro ⟨rfl, meant⟩
        exact bare t meant ⟨_, lookup_ledger_of_id? there, mem_holdings.2 row⟩
      simp [absent]
    rw [c.foldl_remove_eq there, kept, c.prune_eq there]

/-! ## Adding before -/

theorem Consistent.foldl_add (c : Consistent ix) : Consistent (added.foldl (·.add p ·) ix) := by
  induction added generalizing ix with
  | nil => exact c
  | cons t added ih => exact ih c.add

theorem foldl_add_of_id?_some (there : ix.id? p = some id) :
    added.foldl (·.add p ·) ix = added.foldl (·.write id ·) ix := by
  induction added generalizing ix with
  | nil => rfl
  | cons t added ih =>
    rw [List.foldl_cons, List.foldl_cons, add_eq, enter_of_some there]
    exact ih (id?_write.trans there)

theorem id?_foldl_write : (added.foldl (·.write id ·) ix).id? p = ix.id? p := by
  induction added generalizing ix with
  | nil => rfl
  | cons t added ih => rw [List.foldl_cons, ih, id?_write]

/-- A file is entered by the first tag that is added. -/
theorem foldl_add_enter (ne : added ≠ []) :
    added.foldl (·.add p ·) ix = added.foldl (·.add p ·) (ix.enter p).2 := by
  obtain ⟨t, added, rfl⟩ := List.exists_cons_of_ne_nil ne
  have there : (ix.enter p).2.id? p = some (ix.enter p).1 := id?_enter.trans (if_pos rfl)
  rw [List.foldl_cons, List.foldl_cons, add_eq, add_eq, enter_of_some there]

/-- Of a file that has been entered, nothing is left but its number. -/
theorem Consistent.remove_entered (c : Consistent ix) (absent : ix.id? p = none)
    (ne : added ≠ []) (sub : ∀ t ∈ added, t ∈ removed) :
    removed.foldl (·.remove p ·) (added.foldl (·.add p ·) ix) =
      { ix with next := ix.next + 1 } := by
  have k := c.toKeyed
  have c' : Consistent (added.foldl (·.add p ·) ix) := c.foldl_add
  have there : (ix.enter p).2.id? p = some ix.next := by
    rw [id?_enter, if_pos rfl, enter_of_none absent]
  have bare : ∀ t, ¬ (ix.enter p).2.Has ix.next t := fun t row =>
    Nat.lt_irrefl _ (k.lt_next _ (k.refers _ t (has_enter.1 row)))
  have others : ix.files.filter (·.1 ≠ ix.next) = ix.files :=
    List.filter_eq_self.2 fun row file =>
      decide_eq_true (k.lt_next row.1 (List.mem_map_of_mem file)).ne
  rw [foldl_add_enter ne, foldl_add_of_id?_some there] at c' ⊢
  rw [c'.foldl_remove_eq (id?_foldl_write.trans there), foldl_write_without sub,
    without_of_bare bare, prune_of_not bare, enter_of_none absent]
  simp only [List.filter_append, others]
  simp

/-- **Tags that are removed need not have been added.** -/
theorem Consistent.remove_added (c : Consistent ix) (sub : ∀ t ∈ added, t ∈ removed) :
    (removed.foldl (·.remove p ·) (added.foldl (·.add p ·) ix)).SameTables
      (removed.foldl (·.remove p ·) ix) := by
  cases there : ix.id? p with
  | some id =>
    have c' : Consistent (added.foldl (·.add p ·) ix) := c.foldl_add
    rw [foldl_add_of_id?_some there] at c' ⊢
    rw [c'.foldl_remove_eq (id?_foldl_write.trans there), foldl_write_without sub,
      ← c.foldl_remove_eq there]
    exact .refl _
  | none =>
    by_cases none : added = []
    · rw [none]
      exact .refl _
    · rw [c.remove_entered there none sub, foldl_remove_of_id?_none there]
      exact ⟨rfl, rfl, rfl⟩

end Index

/-! ## Texts -/

namespace Database

variable {db : Database} {d : Disk} {file known : Path}

/-- **Removing undoes adding.**  After the tags that a text stands for have been added and removed,
    the tables are as if they had only been removed; and if the file carried none of them, the
    tables are as they were.  Whatever follows, it makes no difference either. -/
theorem remove_undoes_add (consistent : db.index.Consistent)
    (inside : relativePath d db.root file = .ok known) (raw : String) :
    ∃ db₁ db₂ db₃, db.add d file raw = (.ok (db.config.tagsToAdd raw), db₁) ∧
      db₁.remove d file raw = (.ok (db.config.tagsToRemove raw), db₂) ∧
      db.remove d file raw = (.ok (db.config.tagsToRemove raw), db₃) ∧
      db₂.index.Consistent ∧ db₂.index.SameTables db₃.index ∧ db₂.index.Alike db₃.index ∧
      ((∀ t ∈ db.config.tagsToRemove raw, ¬ db.index.Tagged known t) →
        db₂.index.SameTables db.index ∧ db₂.index.Alike db.index) := by
  obtain ⟨db₁, added, path, config, index₁⟩ := exists_foldl_add inside raw
  have inside₁ : relativePath d db₁.root file = .ok known := by rw [root, path]; exact inside
  obtain ⟨db₂, removed, -, -, index₂⟩ := exists_foldl_remove inside₁ raw
  obtain ⟨db₃, alone, -, -, index₃⟩ := exists_foldl_remove inside raw
  rw [config] at removed index₂
  have sub : ∀ t ∈ db.config.tagsToAdd raw, t ∈ db.config.tagsToRemove raw := fun t there =>
    (Config.mem_tagsToAdd.1 there).1
  have same : db₂.index.SameTables db₃.index := by
    rw [index₂, index₁, index₃]
    exact consistent.remove_added sub
  have c₂ : db₂.index.Consistent := by
    rw [index₂, index₁]
    exact consistent.foldl_add.foldl_remove_tags
  have c₃ : db₃.index.Consistent := index₃ ▸ consistent.foldl_remove_tags
  refine ⟨db₁, db₂, db₃, added, removed, alone, c₂, same, same.alike c₂ c₃, fun bare => ?_⟩
  have untouched : db₃.index = db.index := by
    rw [index₃]
    refine consistent.foldl_remove_of_not_carries fun t meant carried => bare t meant ?_
    exact (Index.tagged_iff consistent.toKeyed).2 carried
  have restored : db₂.index.SameTables db.index := untouched ▸ same
  exact ⟨restored, restored.alike c₂ consistent⟩

/-- An alias for a word that is named twice, an attribute and a word that is not allowed, for a
    file that is not in the index. -/
theorem remove_undoes_add_alias :
    let a : Name := ⟨"a", by decide⟩
    let d : Disk := ⟨.dir [(a, .file ⟨0⟩ .empty 0)], ⟨[], 0⟩, ⟨1⟩⟩
    let config : Config :=
      { aliases := [("all", ["x", "k:v", "x", "no"])], blacklist := some ["no"] }
    let index := Index.empty.add (.ofString "b") (.bare "x")
    let db : Database := ⟨Path.root.child databaseName, config, index, none, none, []⟩
    let file := Path.ofString "a"
    ∃ db₁ db₂, db.add d file "all" = (.ok [.bare "x", .pair "k" "v", .bare "x"], db₁) ∧
      db₁.remove d file "all" =
        (.ok [.bare "x", .pair "k" "v", .bare "x", .bare "no"], db₂) ∧
      db₂.index.SameTables index := by
  intro a d config index db file
  have consistent : index.Consistent := Index.Consistent.empty.add
  have inside : relativePath d db.root file = .ok file := by decide
  have others : ∀ r ∈ index.all, r.path ≠ file := by decide +kernel
  obtain ⟨db₁, db₂, -, added, removed, -, -, -, -, restored⟩ :=
    remove_undoes_add consistent inside "all"
  refine ⟨db₁, db₂, added, removed, (restored ?_).1⟩
  rintro t - ⟨r, there, path, -⟩
  exact others r there path

end Database

end FileTags
