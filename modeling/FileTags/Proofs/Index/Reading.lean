/-
  All records at once, and one after the other.

  The record of a file has the rows with the number of the file.  All records may also be made in
  one pass over each table: each file gets a record without tags, and each row of the other two
  tables goes into the record with its number.  A row without a file ends such a pass.

  * `Index.scan` are all records from one pass over each table;
  * `Index.foldlM_putRow`: a pass over a table puts into each record the rows with its number;
  * `Index.scan_eq`: where the tables fit together, the passes make the records of all files;
  * `Index.reads_agree`: in every state that updates lead to, all records are those of single
    files, in strict order.
-/
import FileTags.Proofs.Index.Records

namespace FileTags

/-! ## Records in the making -/

namespace Record

/-- Puts a word into the set of words. -/
def putWord (r : Record) (word : String) : Record :=
  { r with tags := sortTexts (Index.insertRow word r.tags) }

/-- Puts an attribute behind the others. -/
def putAttribute (r : Record) (pair : String × String) : Record :=
  { r with attributes := r.attributes ++ [pair] }

variable {r : Record} {words : List String}

theorem putWord_sort {s : Finset String} {word : String} (tags : r.tags = s.sort (· ≤ ·)) :
    r.putWord word = { r with tags := (insert word s).sort (· ≤ ·) } := by
  have nodup : (Index.insertRow word r.tags).Nodup := by
    rw [tags]
    exact Index.insertRow_nodup (Finset.sort_nodup s _)
  have members : (Index.insertRow word r.tags).toFinset = insert word s := by
    ext w
    simp [tags]
  rw [putWord, sortTexts_eq_sort nodup, members]

theorem foldl_putWord {s : Finset String} (tags : r.tags = s.sort (· ≤ ·)) :
    words.foldl putWord r = { r with tags := (s ∪ words.toFinset).sort (· ≤ ·) } := by
  induction words generalizing r s with
  | nil => simp [← tags]
  | cons word words ih =>
    rw [List.foldl_cons, putWord_sort tags, ih rfl]
    simp [Finset.insert_union, Finset.union_insert]

theorem foldl_putAttribute (pairs : List (String × String)) :
    pairs.foldl putAttribute r = { r with attributes := r.attributes ++ pairs } := by
  induction pairs generalizing r with
  | nil => simp
  | cons pair pairs ih =>
    rw [List.foldl_cons, ih]
    simp [putAttribute]

end Record

namespace Index

variable {α : Type} {ix : Index} {id : FileId} {p : Path}

/-! ## Passes over the tables -/

/-- Puts what a row says into the record with its number, if there is one. -/
def putRow (put : Record → α → Record) (found : List (FileId × Record)) (row : FileId × α) :
    Option (List (FileId × Record)) :=
  if row.1 ∈ found.map (·.1) then
    some (found.map fun (id, r) => (id, if id = row.1 then put r row.2 else r))
  else none

/-- The rows for attributes, by the attributes. -/
def sortedAttributes (ix : Index) : List (FileId × String × String) :=
  ix.attributes.mergeSort fun a b => decide (pairLE a.2 b.2)

/-- A record without tags for each file, in the order of the texts of their paths. -/
def blanks (ix : Index) : List (FileId × Record) :=
  ix.sortedFiles.map fun (id, p) => (id, { path := p })

/-- All records, from one pass over each table. -/
def scan (ix : Index) : Option (List Record) := do
  let tagged ← ix.tags.foldlM (putRow Record.putWord) ix.blanks
  let found ← ix.sortedAttributes.foldlM (putRow Record.putAttribute) tagged
  return found.map (·.2)

/-- A row without a file. -/
example : scan ⟨[], [(1, "x")], [], 2⟩ = none := by decide +kernel

/-- What the rows with a number say. -/
def rowsOf (id : FileId) (rows : List (FileId × α)) : List α :=
  (rows.filter (·.1 == id)).map (·.2)

/-- **A pass over a table** puts into each record the rows with its number. -/
theorem foldlM_putRow {put : Record → α → Record} {rows : List (FileId × α)}
    {found : List (FileId × Record)} (there : ∀ row ∈ rows, row.1 ∈ found.map (·.1)) :
    rows.foldlM (putRow put) found =
      some (found.map fun (id, r) => (id, (rowsOf id rows).foldl put r)) := by
  induction rows generalizing found with
  | nil => simp [rowsOf]
  | cons row rows ih =>
    obtain ⟨first, others⟩ := List.forall_mem_cons.1 there
    rw [List.foldlM_cons, putRow, if_pos first, Option.bind_eq_bind, Option.bind_some, ih]
    · rw [List.map_map]
      refine congrArg some (List.map_congr_left fun entry _ => ?_)
      by_cases same : entry.1 = row.1
      · simp [rowsOf, same]
      · simp [rowsOf, same, Ne.symm same]
    · simpa [Function.comp_def] using others

/-- The rows of one file are in order if those of all files are. -/
theorem rowsOf_sortedAttributes :
    rowsOf id ix.sortedAttributes = sortPairs (rowsOf id ix.attributes) := by
  have perm : (rowsOf id ix.sortedAttributes).Perm (sortPairs (rowsOf id ix.attributes)) :=
    (((List.mergeSort_perm _ _).filter _).map _).trans (List.mergeSort_perm _ _).symm
  have sorted : ix.sortedAttributes.Pairwise fun a b => pairLE a.2 b.2 := by
    refine (List.pairwise_mergeSort (fun a b c hab hbc => ?_) (fun a b => ?_) _).imp
      of_decide_eq_true
    · exact decide_eq_true (IsTrans.trans _ _ _ (of_decide_eq_true hab) (of_decide_eq_true hbc))
    · simpa using Std.Total.total (r := pairLE) a.2 b.2
  exact perm.eq_of_pairwise' (List.pairwise_map.2 (sorted.filter _))
    (List.pairwise_mergeSort' pairLE _)

/-- The record of a file, made row by row. -/
theorem record_eq_foldl (k : Keyed ix) :
    (rowsOf id ix.sortedAttributes).foldl Record.putAttribute
      ((rowsOf id ix.tags).foldl Record.putWord { path := p }) = ix.record id p := by
  have blank : ({ path := p } : Record).tags = (∅ : Finset String).sort (· ≤ ·) := by simp
  have words : (rowsOf id ix.tags).toFinset.sort (· ≤ ·) = sortTexts (rowsOf id ix.tags) :=
    (sortTexts_eq_sort (nodup_rows k.tags_nodup)).symm
  rw [Record.foldl_putWord blank, Finset.empty_union, words, Record.foldl_putAttribute,
    rowsOf_sortedAttributes, List.nil_append]
  rfl

theorem mem_blanks_of_mem_ids (there : id ∈ ix.ids) : id ∈ ix.blanks.map (·.1) := by
  obtain ⟨p, file⟩ := mem_ids.1 there
  refine List.mem_map.2 ⟨(id, { path := p }), List.mem_map.2 ⟨(id, p), ?_, rfl⟩, rfl⟩
  exact List.mem_mergeSort.2 file

/-- **The passes make the records of all files**, if every row has its file. -/
theorem scan_eq (k : Keyed ix) : ix.scan = some ix.all := by
  have words : ∀ row ∈ ix.tags, row.1 ∈ ix.blanks.map (·.1) := fun row there =>
    mem_blanks_of_mem_ids (k.refers row.1 (.bare row.2) there)
  have pairs : ∀ row ∈ ix.sortedAttributes, row.1 ∈ ix.blanks.map (·.1) := fun row there =>
    mem_blanks_of_mem_ids (k.refers row.1 (.pair row.2.1 row.2.2) (List.mem_mergeSort.1 there))
  let tagged := ix.blanks.map fun (id, r) => (id, (rowsOf id ix.tags).foldl Record.putWord r)
  have first : ix.tags.foldlM (putRow Record.putWord) ix.blanks = some tagged :=
    foldlM_putRow words
  have second : ix.sortedAttributes.foldlM (putRow Record.putAttribute) tagged =
      some (tagged.map fun (id, r) =>
        (id, (rowsOf id ix.sortedAttributes).foldl Record.putAttribute r)) :=
    foldlM_putRow (by simpa [tagged, Function.comp_def] using pairs)
  rw [scan, first, Option.bind_eq_bind, Option.bind_some, second]
  refine congrArg some ?_
  simp only [tagged, blanks, List.map_map, all]
  exact List.map_congr_left fun row _ => record_eq_foldl k

/-! ## Single records -/

/-- The paths of all files, in strict order. -/
theorem pairwise_path_all (k : Keyed ix) :
    (ix.all.map (·.path)).Pairwise fun p q => p.toString < q.toString := by
  rw [all_eq k, Ledger.map_path_all]
  refine (Finset.pairwise_sort _ Path.textLE).imp₂ (fun p q le ne => ?_) (Finset.sort_nodup _ _)
  exact lt_of_le_of_ne le fun same => ne (Path.toString_injective same)

theorem mem_path_all (k : Keyed ix) : p ∈ ix.all.map (·.path) ↔ ∃ id, (id, p) ∈ ix.files := by
  rw [all_eq k, Ledger.map_path_all, Finset.mem_sort, keys_ledger, List.mem_toFinset]
  simp

theorem get_of_mem_all (k : Keyed ix) {r : Record} (there : r ∈ ix.all) :
    ix.get r.path = .ok r := by
  rw [get, k.mem_all.1 there]

theorem mem_all_of_get (k : Keyed ix) {r : Record} (read : ix.get p = .ok r) : r ∈ ix.all := by
  rw [get] at read
  split at read
  · next r' there =>
    obtain rfl := Except.ok.inj read
    obtain ⟨id, -, same⟩ := Option.map_eq_some_iff.1 there
    have path : r'.path = p := same ▸ rfl
    exact k.mem_all.2 (path ▸ there)
  · cases read

theorem exists_get_iff : (∃ r, ix.get p = .ok r) ↔ ix.contains p = true := by
  rw [get, get?, contains]
  cases ix.id? p <;> simp

/-- The attributes of a record, in strict order. -/
theorem pairwise_attributes (k : Keyed ix) {r : Record} (there : r ∈ ix.all) :
    r.attributes.Pairwise fun a b => toLex a < toLex b := by
  rw [all_eq k] at there
  obtain ⟨h, -, same⟩ := Ledger.mem_all.1 there
  rw [← same]
  refine (Finset.pairwise_sort h.attributes pairLE).imp₂ (fun a b le ne => ?_)
    (Finset.sort_nodup _ _)
  exact lt_of_le_of_ne (pairLE_iff_toLex.1 le) fun same => ne (toLex.injective same)

/-- **All records are those of the single files**, in every state that updates lead to.  The passes
    over the tables meet no row without its file, and make of each file the record that is read
    from its own rows. -/
theorem reads_agree (updates : List Update) :
    let ix := (empty.run updates).2
    (∃ paths : List Path, paths.Pairwise (fun p q => p.toString < q.toString) ∧
      (∀ p, p ∈ paths ↔ ∃ id, (id, p) ∈ ix.files) ∧ paths.length = ix.count ∧
      ix.all.map .ok = paths.map ix.get) ∧
    ix.scan = some ix.all ∧
    (∀ p, (∃ r, ix.get p = .ok r) ↔ ix.contains p = true) ∧
    (∀ p r, ix.get p = .ok r → r.attributes.Pairwise fun a b => toLex a < toLex b) ∧
    (∀ row ∈ ix.tags, ∃ p, (row.1, p) ∈ ix.files) ∧
    ∀ row ∈ ix.attributes, ∃ p, (row.1, p) ∈ ix.files := by
  intro ix
  have k : Keyed ix := (run_consistent Consistent.empty updates).toKeyed
  refine ⟨⟨ix.all.map (·.path), pairwise_path_all k, fun p => mem_path_all k, ?_, ?_⟩, scan_eq k,
    fun p => exists_get_iff, fun p r read => ?_, fun row there => ?_, fun row there => ?_⟩
  · rw [all, List.length_map, List.length_map, sortedFiles, List.length_mergeSort, count]
  · rw [List.map_map]
    exact List.map_congr_left fun r there => (get_of_mem_all k there).symm
  · exact pairwise_attributes k (mem_all_of_get k read)
  · exact mem_ids.1 (k.refers row.1 (.bare row.2) there)
  · exact mem_ids.1 (k.refers row.1 (.pair row.2.1 row.2.2) there)

end Index

end FileTags
