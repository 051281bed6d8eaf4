/-
  The order of search results.

  The index gives records in the order of the texts of their paths, where a name that goes on with a
  character before the slash comes between a directory and what is in it.  A search sorts them by
  the components of their paths.

  * `Database.search_perm`: a search gives the records that the index gives;
  * `Database.search_blocks`: they come in the order of components, and those at and below a
    directory side by side.
-/
import FileTags.Proofs.Database.Search
import FileTags.Proofs.Index.Reading
import FileTags.Proofs.Subtrees

namespace FileTags.Database

variable {db : Database} {e : Query.Expr}

theorem search_perm : (db.search e).Perm (db.index.search e) := List.mergeSort_perm _ _

theorem pairwise_index_search (k : db.index.Keyed) :
    (db.index.search e).Pairwise fun r s => r.path.toString < s.path.toString :=
  (List.pairwise_map.1 (Index.pairwise_path_all k)).sublist List.filter_sublist

theorem anchor_of_mem_search (relative : ∀ r ∈ db.index.all, r.path.isAbsolute = false)
    {r : Record} (there : r ∈ db.search e) : r.path.anchor = .relative := by
  simpa [Path.isAbsolute] using relative r (mem_search.1 there).1

theorem paths_search_every {index : Index}
    (sorted : index.files.Pairwise fun a b => decide (a.2.toString ≤ b.2.toString) = true) :
    (index.search .every).map (·.path) = index.files.map (·.2) := by
  have rows : index.sortedFiles = index.files := List.mergeSort_of_pairwise sorted
  have every : index.search .every = index.all := List.filter_eq_self.2 fun _ _ => rfl
  rw [every, Index.all, rows, List.map_map]
  rfl

/-- The records of an index may keep those of a directory apart. -/
theorem exists_apart : ∃ (index : Index) (dir : Path), index.Consistent ∧
    (∀ r ∈ index.all, r.path.isAbsolute = false) ∧
    let found := index.search .every
    ¬ found.filter (fun r => (r.path.relativeTo? dir).isSome) <:+: found := by
  -- The hyphen comes before the slash.
  let index := ((Index.empty.add (.ofString "a") (.bare "x")).add (.ofString "a-b") (.bare "x")).add
    (.ofString "a/c") (.bare "x")
  have c : index.Consistent := Index.Consistent.empty.add.add.add
  have rows : index.files.map (·.2) = [.ofString "a", .ofString "a-b", .ofString "a/c"] := by decide
  have paths : (index.search .every).map (·.path) =
      [.ofString "a", .ofString "a-b", .ofString "a/c"] :=
    (paths_search_every (by decide +kernel)).trans rows
  have relative : ∀ row ∈ index.files, row.2.isAbsolute = false := by decide
  have relative' : ∀ r ∈ index.all, r.path.isAbsolute = false :=
    Index.forall_path_all (P := fun p => p.isAbsolute = false) relative
  refine ⟨index, .ofString "a", c, relative', fun together => ?_⟩
  have moved := together.map (·.path)
  have picked : (fun r : Record => (r.path.relativeTo? (.ofString "a")).isSome) =
      (fun p : Path => (p.relativeTo? (.ofString "a")).isSome) ∘ (·.path) := rfl
  rw [picked, ← List.filter_map, paths] at moved
  revert moved
  decide

/-- **Search results keep directories together.**  A search gives the records that match, each once,
    in the order of the components of their paths.  The records at and below a directory stand side
    by side, that of the directory first.  The index has the same records in the order of the texts
    of their paths, where they may stand apart. -/
theorem search_blocks (k : db.index.Keyed)
    (relative : ∀ r ∈ db.index.all, r.path.isAbsolute = false) (e : Query.Expr) :
    (∀ r, r ∈ db.search e ↔ r ∈ db.index.all ∧ e.holds r = true) ∧
    ((db.search e).Pairwise fun r s => r.path.names.map (·.text) < s.path.names.map (·.text)) ∧
    (∀ dir : Path,
      let block := (db.search e).filter fun r => (r.path.relativeTo? dir).isSome
      block <:+: db.search e ∧ ∀ r ∈ db.search e, r.path = dir → block.head? = some r) ∧
    (db.index.search e).Perm (db.search e) ∧
    ((db.index.search e).Pairwise fun r s => r.path.toString < s.path.toString) ∧
    ∃ (index : Index) (dir : Path), index.Consistent ∧
      (∀ r ∈ index.all, r.path.isAbsolute = false) ∧
      let found := index.search .every
      ¬ found.filter (fun r => (r.path.relativeTo? dir).isSome) <:+: found := by
  have sorted : (db.search e).Pairwise fun r s => r.path.Before s.path := search_strict k
  have anchors : ∀ r ∈ db.search e, r.path.anchor = .relative :=
    fun r there => anchor_of_mem_search relative there
  refine ⟨fun r => mem_search, ?_, fun dir => ?_, search_perm.symm, pairwise_index_search k,
    exists_apart⟩
  · refine sorted.imp_of_mem fun {r s} hr hs before => ?_
    exact (Path.before_iff ((anchors r hr).trans (anchors s hs).symm)).1 before
  · have covered : (fun r : Record => (r.path.relativeTo? dir).isSome) =
        fun r => decide (dir.Covers r.path) :=
      funext fun r => Bool.eq_iff_iff.2 (Path.isSome_relativeTo?.trans decide_eq_true_iff.symm)
    rw [covered]
    refine ⟨Path.filter_covers_isInfix sorted anchors dir, ?_⟩
    rintro r there rfl
    exact Path.head?_filter_covers sorted there

/-- A directory, what is in it, and names that begin like its name. -/
theorem search_blocks_hyphen :
    let index := (((Index.empty.add (.ofString "a-b") (.bare "x")).add (.ofString "a/c")
      (.bare "x")).add (.ofString "a") (.bare "x")).add (.ofString "a.d") (.bare "y")
    let db : Database := ⟨.root, {}, index, none, none, []⟩
    let found := db.search (.tag "x")
    found.filter (fun r => (r.path.relativeTo? (.ofString "a")).isSome) <:+: found ∧
      (found.filter fun r => (r.path.relativeTo? (.ofString "a")).isSome).head? =
        some ⟨.ofString "a", ["x"], []⟩ := by
  intro index db found
  have c : index.Consistent := Index.Consistent.empty.add.add.add.add
  have k : db.index.Keyed := c.toKeyed
  have record : index.get? (.ofString "a") = some ⟨.ofString "a", ["x"], []⟩ := by
    have rows : index.get? (.ofString "a") =
        some ⟨.ofString "a", sortTexts ["x"], sortPairs []⟩ := rfl
    rw [rows, show sortTexts ["x"] = ["x"] from List.mergeSort_singleton _,
      show sortPairs [] = [] from List.mergeSort_nil]
  have rows : ∀ row ∈ index.files, row.2.isAbsolute = false := by decide
  have relative : ∀ r ∈ db.index.all, r.path.isAbsolute = false :=
    Index.forall_path_all (P := fun p => p.isAbsolute = false) rows
  obtain ⟨mem, -, blocks, -⟩ := search_blocks k relative (.tag "x")
  obtain ⟨block, head⟩ := blocks (.ofString "a")
  exact ⟨block, head _ ((mem _).2 ⟨k.mem_all.2 record, rfl⟩) rfl⟩

end FileTags.Database
