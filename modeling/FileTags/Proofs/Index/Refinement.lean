/-
  An index is a ledger kept in three tables.

  * `Index.ledger` is what the tables of an index say;
  * `Index.ledger_add`, `ledger_remove`, `ledger_discard` and `ledger_move`: each operation does
    to the tables what it does to the ledger;
  * `Index.get_eq`, `contains_eq`, `all_eq` and `count_eq`: the tables read as the ledger reads.
-/
import FileTags.Proofs.Index.Consistent
import FileTags.Proofs.Index.Ledger

namespace FileTags.Index

/-! ## What the tables say -/

/-- What the file with a number carries. -/
def holdings (ix : Index) (id : FileId) : Holdings where
  words := ((ix.tags.filter (·.1 == id)).map (·.2)).toFinset
  attributes := ((ix.attributes.filter (·.1 == id)).map (·.2)).toFinset

/-- What the files at the paths of an index carry. -/
def ledger (ix : Index) : Ledger :=
  (ix.files.map fun row => (⟨row.2, ix.holdings row.1⟩ : Sigma fun _ : Path => Holdings)).toFinmap

section
variable {ix ix' : Index} {id id' : FileId} {p q old new : Path} {t u : Tag}

@[simp] theorem mem_holdings : t ∈ ix.holdings id ↔ ix.Has id t := by
  cases t <;> simp [holdings, Has]

theorem holdings_congr (same : ∀ u, ix'.Has id u ↔ ix.Has id u) :
    ix'.holdings id = ix.holdings id :=
  Holdings.ext fun u => by rw [mem_holdings, mem_holdings, same]

theorem lookup_ledger : ix.ledger.lookup p = (ix.id? p).map ix.holdings := by
  rw [ledger, Finmap.dlookup_list_toFinmap, id?]
  generalize ix.holdings = holdings
  induction ix.files with
  | nil => rfl
  | cons row rows ih =>
    by_cases e : row.2 = p
    · subst e
      simp
    · rw [List.map_cons, List.dlookup_cons_ne _ _ (Ne.symm e), ih]
      simp [e]

theorem lookup_ledger_of_id? (there : ix.id? p = some id) :
    ix.ledger.lookup p = some (ix.holdings id) := by
  rw [lookup_ledger, there, Option.map_some]

theorem mem_ledger : p ∈ ix.ledger ↔ (ix.id? p).isSome := by
  rw [← Finmap.lookup_isSome, lookup_ledger, Option.isSome_map]

theorem ledger_empty : empty.ledger = ∅ := rfl

/-- Indexes with the same numbers and the same rows say the same. -/
theorem lookup_ledger_congr (numbers : ix'.id? q = ix.id? q)
    (rows : ∀ id, ix.id? q = some id → ∀ u, ix'.Has id u ↔ ix.Has id u) :
    ix'.ledger.lookup q = ix.ledger.lookup q := by
  rw [lookup_ledger, lookup_ledger, numbers]
  cases h : ix.id? q with
  | none => rfl
  | some id => exact congrArg some (holdings_congr (rows id h))

/-! ## Writing tags -/

theorem Keyed.id_ne (k : Keyed ix) (hp : ix.id? p = some id) (hq : ix.id? q = some id')
    (ne : q ≠ p) : id' ≠ id := by
  rintro rfl
  exact ne (k.path_eq (mem_files_of_id? hq) (mem_files_of_id? hp))

/-- Rows that change for one number change the entry of one path. -/
theorem ledger_change (k : Keyed ix) (there : ix.id? p = some id)
    (numbers : ∀ q, ix'.id? q = ix.id? q) (rows : ∀ id' ≠ id, ∀ u, ix'.Has id' u ↔ ix.Has id' u) :
    ix'.ledger = ix.ledger.insert p (ix'.holdings id) := by
  refine Finmap.ext_lookup fun q => ?_
  rw [Ledger.lookup_insert]
  split
  · next e => rw [e, lookup_ledger_of_id? ((numbers p).trans there)]
  · next ne => exact lookup_ledger_congr (numbers q) fun id' h => rows id' (k.id_ne there h ne)

theorem holdings_write : (ix.write id t).holdings id = (ix.holdings id).insert t :=
  Holdings.ext fun u => by simp

theorem holdings_delete : (ix.delete id t).holdings id = (ix.holdings id).erase t :=
  Holdings.ext fun u => by simp

theorem ledger_write (k : Keyed ix) (there : ix.id? p = some id) :
    (ix.write id t).ledger = ix.ledger.insert p ((ix.holdings id).insert t) := by
  rw [← holdings_write]
  exact ledger_change k there (fun _ => id?_write) fun id' ne u => by simp [ne]

theorem ledger_delete (k : Keyed ix) (there : ix.id? p = some id) :
    (ix.delete id t).ledger = ix.ledger.insert p ((ix.holdings id).erase t) := by
  rw [← holdings_delete]
  exact ledger_change k there (fun _ => id?_delete) fun id' ne u => by simp [ne]

theorem holdings_enter (k : Keyed ix) :
    (ix.enter p).2.holdings (ix.enter p).1 = (ix.ledger.lookup p).getD ∅ := by
  have rows : (ix.enter p).2.holdings (ix.enter p).1 = ix.holdings (ix.enter p).1 :=
    holdings_congr fun u => has_enter
  rw [rows, lookup_ledger]
  cases h : ix.id? p with
  | some id => simp [enter_of_some h]
  | none =>
    rw [enter_of_none h]
    refine Holdings.eq_empty_iff.2 fun t row => ?_
    -- The new number is above all numbers that rows refer to.
    exact Nat.lt_irrefl _ (k.lt_next _ (k.refers _ t (mem_holdings.1 row)))

theorem insert_ledger_enter {h : Holdings} :
    (ix.enter p).2.ledger.insert p h = ix.ledger.insert p h := by
  refine Finmap.ext_lookup fun q => ?_
  rw [Ledger.lookup_insert, Ledger.lookup_insert]
  split
  · rfl
  · next ne => exact lookup_ledger_congr (id?_enter.trans (if_neg ne)) fun _ _ _ => has_enter

theorem ledger_add (k : Keyed ix) : (ix.add p t).ledger = ix.ledger.add p t := by
  rw [add_eq, ledger_write k.enter (id?_enter.trans (if_pos rfl)), holdings_enter k,
    insert_ledger_enter, Ledger.add]

/-! ## Dropping files -/

/-- Without the row of a file, and with the rows of the others, its entry is gone. -/
theorem ledger_filter (k : Keyed ix) (k' : Keyed ix')
    (files : ix'.files = ix.files.filter (·.1 ≠ id)) (there : ix.id? p = some id)
    (rows : ∀ id' ≠ id, ∀ u, ix'.Has id' u ↔ ix.Has id' u) :
    ix'.ledger = ix.ledger.erase p := by
  refine Finmap.ext_lookup fun q => ?_
  have number := k.id?_filter k' files there (q := q)
  rw [Ledger.lookup_erase]
  split
  · next e => rw [lookup_ledger, number, if_pos e, Option.map_none]
  · next ne =>
    exact lookup_ledger_congr (number.trans (if_neg ne)) fun id' h => rows id' (k.id_ne there h ne)

theorem ledger_prune (k : Keyed ix) (there : ix.id? p = some id) :
    (ix.prune id).ledger =
      if ix.holdings id = ∅ then ix.ledger.erase p else ix.ledger := by
  by_cases bare : ∀ t, ¬ ix.Has id t
  · have gone : ix.holdings id = ∅ :=
      Holdings.eq_empty_iff.2 fun t row => bare t (mem_holdings.1 row)
    rw [if_pos gone]
    exact ledger_filter k k.prune (by rw [prune_of_not bare]) there fun _ _ _ => has_prune
  · obtain ⟨t, row⟩ := not_forall_not.1 bare
    have left : ix.holdings id ≠ ∅ := fun gone =>
      Holdings.eq_empty_iff.1 gone t (mem_holdings.2 row)
    rw [if_neg left, prune_of_has ⟨t, row⟩]

theorem ledger_remove (k : Keyed ix) : (ix.remove p t).ledger = ix.ledger.remove p t := by
  cases h : ix.id? p with
  | none => rw [remove_of_id?_none h, Ledger.remove, lookup_ledger, h]; rfl
  | some id =>
    rw [remove_of_id?_some h, ledger_prune k.delete (id?_delete.trans h), ledger_delete k h,
      holdings_delete, Ledger.erase_insert, Ledger.remove, lookup_ledger_of_id? h]

theorem removeFile_fst : (ix.removeFile p).1 = decide (p ∈ ix.ledger) := by
  cases h : ix.id? p with
  | none => simp [removeFile_of_id?_none h, mem_ledger, h]
  | some id => simp [removeFile_of_id?_some h, mem_ledger, h]

theorem ledger_discard (k : Keyed ix) : (ix.discard p).ledger = ix.ledger.erase p := by
  cases h : ix.id? p with
  | none =>
    have absent : ix.ledger.lookup p = none := by rw [lookup_ledger, h, Option.map_none]
    rw [discard, removeFile_of_id?_none h, Ledger.erase_of_lookup absent]
  | some id =>
    rw [discard, removeFile_of_id?_some h]
    exact ledger_filter k k.erase rfl h fun id' ne u => by simp [ne]

/-! ## Renaming files -/

theorem ledger_rename (k : Keyed ix) (there : ix.id? old = some id) (free : ix.id? new = none) :
    (ix.rename id new).ledger = (ix.ledger.erase old).insert new (ix.holdings id) := by
  refine Finmap.ext_lookup fun q => ?_
  have number := k.id?_rename there free (q := q)
  rw [Ledger.lookup_insert]
  split
  · next e =>
    rw [lookup_ledger, number, if_pos e, Option.map_some]
    exact congrArg some (holdings_congr fun _ => has_rename)
  · next ne =>
    rw [if_neg ne] at number
    rw [Ledger.lookup_erase]
    split
    · next e => rw [lookup_ledger, number, if_pos e, Option.map_none]
    · next ne' => exact lookup_ledger_congr (number.trans (if_neg ne')) fun _ _ _ => has_rename

theorem ledger_move (k : Keyed ix) :
    (ix.move old new).map ledger = ix.ledger.move old new := by
  cases h : ix.id? old with
  | none => rw [move_of_id?_none h, Ledger.move, lookup_ledger, h]; rfl
  | some id =>
    rw [Ledger.move, lookup_ledger_of_id? h]
    by_cases e : old = new
    · subst e
      simp [move_self h, Except.map]
    · have kd : Keyed (ix.discard new) := k.discard
      have there : (ix.discard new).id? old = some id := by rw [k.id?_discard, if_neg e, h]
      have free : (ix.discard new).id? new = none := by rw [k.id?_discard, if_pos rfl]
      have kept : (ix.discard new).holdings id = ix.holdings id := by
        have same : (ix.discard new).ledger.lookup old = ix.ledger.lookup old := by
          rw [ledger_discard k, Ledger.lookup_erase, if_neg e]
        rw [lookup_ledger_of_id? there, lookup_ledger_of_id? h] at same
        exact Option.some.inj same
      have moved : ((ix.discard new).rename id new).ledger =
          (ix.ledger.erase old).insert new (ix.holdings id) := by
        rw [ledger_rename kd there free, kept, ledger_discard k, Finmap.erase_erase,
          Ledger.insert_erase]
      simp [move_of_ne h e, e, Except.map, moved]

/-! ## Reading -/

/-- Rows of one number differ in what stands after it. -/
theorem nodup_rows {α : Type} {rows : List (FileId × α)} (nodup : rows.Nodup) :
    ((rows.filter (·.1 == id)).map (·.2)).Nodup := by
  refine (nodup.filter _).map_on fun a ha b hb same => Prod.ext ?_ same
  simp only [List.mem_filter, beq_iff_eq] at ha hb
  exact ha.2.trans hb.2.symm

theorem record_eq (k : Keyed ix) : ix.record id p = (ix.holdings id).record p := by
  rw [record, Holdings.record, sortTexts_eq_sort (nodup_rows k.tags_nodup),
    sortPairs_eq_sort (nodup_rows k.attributes_nodup)]
  rfl

theorem get?_eq (k : Keyed ix) : ix.get? p = (ix.ledger.lookup p).map (·.record p) := by
  rw [get?, lookup_ledger]
  cases ix.id? p with
  | none => rfl
  | some id => exact congrArg some (record_eq k)

theorem get_eq (k : Keyed ix) : ix.get p = ix.ledger.get p := by
  rw [get, get?, Ledger.get, lookup_ledger]
  cases ix.id? p with
  | none => rfl
  | some id => simp [record_eq k]

theorem contains_eq : ix.contains p = ix.ledger.contains p := by
  simp [contains, Ledger.contains, mem_ledger]

theorem keys_ledger : ix.ledger.keys = (ix.files.map (·.2)).toFinset := by
  ext p
  rw [Finmap.mem_keys, mem_ledger, List.mem_toFinset, mem_paths_iff]

theorem count_eq (k : Keyed ix) : ix.count = ix.ledger.count := by
  rw [Ledger.count, keys_ledger, List.toFinset_card_of_nodup k.paths_nodup, List.length_map, count]

theorem map_sortedFiles (k : Keyed ix) :
    ix.sortedFiles.map (·.2) = ix.ledger.keys.sort Path.textLE := by
  rw [keys_ledger, ← mergeSort_eq_sort Path.textLE k.paths_nodup, sortedFiles]
  exact List.map_mergeSort fun _ _ _ _ => rfl

theorem all_eq (k : Keyed ix) : ix.all = ix.ledger.all := by
  rw [all, Ledger.all, ← map_sortedFiles k, List.filterMap_map, ← List.filterMap_eq_map]
  refine List.filterMap_congr fun row sorted => ?_
  have there : ix.id? row.2 = some row.1 :=
    k.id?_eq_some_iff.2 ((List.mergeSort_perm _ _).subset sorted)
  simp [lookup_ledger_of_id? there, record_eq k]

end

end FileTags.Index
