/-
  Searching a database.

  A search gives records in the order of the components of their paths, each once, and a query
  finds the records of which its expression holds.

  * `Database.Answers` says which records a query finds;
  * `Database.answers_of_parse`: a query that denotes an expression finds the records that match;
  * `Database.search_homomorphism`: queries in parentheses, side by side, with `or` between them or
    after `not`, find the intersection, the union and the complement of what they find alone.
-/
import FileTags.Database.Tagging
import FileTags.Proofs.Index.Records
import FileTags.Proofs.Query.Nesting
import Mathlib.Data.Set.Basic

namespace FileTags.Database

open Query (Expr)

/-- A query finds a set of records: it is answered with them, each once and in the order of the
    components of their paths. -/
def Answers (db : Database) (query : String) (found : Set Record) : Prop :=
  ∃ records, db.searchText query = .ok records ∧
    records.Pairwise (fun r s => r.path.Before s.path) ∧ ∀ r, r ∈ records ↔ r ∈ found

variable {db : Database} {e : Expr} {r : Record} {records : List Record}

/-! ## The order of records -/

theorem sortByPath_pairwise (records : List Record) :
    (sortByPath records).Pairwise fun r s => r.path.parts ≤ s.path.parts := by
  have sorted : (sortByPath records).Pairwise fun r s => r.path.order s.path = true := by
    refine List.pairwise_mergeSort (fun r s t hrs hst => ?_) (fun r s => ?_) records
    · rw [Path.order_iff] at *
      exact hrs.trans hst
    · rw [Bool.or_eq_true, Path.order_iff, Path.order_iff]
      exact le_total _ _
  exact sorted.imp Path.order_iff.1

/-- Records of different files are in a strict order. -/
theorem sortByPath_strict (distinct : (records.map (·.path)).Nodup) :
    (sortByPath records).Pairwise fun r s => r.path.Before s.path := by
  have apart : (sortByPath records).Pairwise fun r s => r.path ≠ s.path := by
    have perm := (List.mergeSort_perm records fun a b => a.path.order b.path).map (·.path)
    exact List.pairwise_map.1 (perm.nodup_iff.2 distinct)
  exact (sortByPath_pairwise records).imp₂ (fun r s le ne => lt_of_le_of_ne le fun same =>
    ne (Path.parts_injective same)) apart

theorem mem_search : r ∈ db.search e ↔ r ∈ db.index.all ∧ e.holds r = true := by
  rw [search, sortByPath, List.mem_mergeSort, Index.search, Query.filterRecords, List.mem_filter]

theorem nodup_path_all (k : db.index.Keyed) : (db.index.all.map (·.path)).Nodup := by
  rw [Index.all_eq k, Ledger.map_path_all]
  exact Finset.sort_nodup _ _

theorem search_strict (k : db.index.Keyed) :
    (db.search e).Pairwise fun r s => r.path.Before s.path := by
  refine sortByPath_strict ((nodup_path_all k).sublist ?_)
  exact List.filter_sublist.map _

/-! ## Queries -/

/-- The records of a database of which an expression holds. -/
def holding (db : Database) (e : Expr) : Set Record := {r | r ∈ db.index.all ∧ e.holds r = true}

theorem holding_and {e₁ e₂ : Expr} : db.holding (.and e₁ e₂) = db.holding e₁ ∩ db.holding e₂ := by
  ext r
  simp only [holding, Expr.holds, Bool.and_eq_true, Set.mem_inter_iff, Set.mem_ofPred_eq]
  tauto

theorem holding_or {e₁ e₂ : Expr} : db.holding (.or e₁ e₂) = db.holding e₁ ∪ db.holding e₂ := by
  ext r
  simp only [holding, Expr.holds, Bool.or_eq_true, Set.mem_union, Set.mem_ofPred_eq]
  tauto

theorem holding_not : db.holding (.not e) = {r | r ∈ db.index.all} \ db.holding e := by
  ext r
  simp only [holding, Expr.holds, Bool.not_eq_true', Set.mem_sdiff, Set.mem_ofPred_eq,
    ← Bool.not_eq_true]
  tauto

/-- **A query finds the records of which its expression holds.** -/
theorem answers_of_parse {query : String} (k : db.index.Keyed) (h : Query.parse query = .ok e) :
    db.Answers query (db.holding e) :=
  ⟨db.search e, by simp [searchText, h], search_strict k, fun _ => mem_search⟩

section
variable {q₁ q₂ : String} {e₁ e₂ : Expr}

/-- **Searching is a homomorphism** from queries to sets of records. -/
theorem search_homomorphism (h₁ : Query.parse q₁ = .ok e₁) (ne₁ : e₁ ≠ .every)
    (h₂ : Query.parse q₂ = .ok e₂) (ne₂ : e₂ ≠ .every) :
    Query.parse ("(" ++ q₁ ++ ")") = .ok e₁ ∧
      ∀ db : Database, db.index.Keyed → ∃ found₁ found₂ : Set Record,
        db.Answers q₁ found₁ ∧ db.Answers q₂ found₂ ∧
        db.Answers ("(" ++ q₁ ++ ") (" ++ q₂ ++ ")") (found₁ ∩ found₂) ∧
        db.Answers ("(" ++ q₁ ++ ") or (" ++ q₂ ++ ")") (found₁ ∪ found₂) ∧
        db.Answers ("not (" ++ q₁ ++ ")") ({r | r ∈ db.index.all} \ found₁) := by
  refine ⟨Query.parse_group h₁ ne₁, fun db k =>
    ⟨_, _, answers_of_parse k h₁, answers_of_parse k h₂, ?_, ?_, ?_⟩⟩
  · rw [← holding_and]
    exact answers_of_parse k (Query.parse_both h₁ ne₁ h₂ ne₂)
  · rw [← holding_or]
    exact answers_of_parse k (Query.parse_either h₁ ne₁ h₂ ne₂)
  · rw [← holding_not]
    exact answers_of_parse k (Query.parse_opposite h₁ ne₁)

/-- A key that still waits for its value and a quoted keyword may stand in parentheses. -/
theorem search_homomorphism_open_key :
    Query.parse "a k:" = .ok (.and (.tag "a") (.attr (some "k") none)) ∧
    Query.parse "\"or\" or b" = .ok (.or (.tag "or") (.tag "b")) ∧
    Query.parse ("(" ++ "a k:" ++ ")") = .ok (.and (.tag "a") (.attr (some "k") none)) ∧
    let index := (Index.empty.add (.ofString "f") (.bare "a")).add (.ofString "g") (.bare "or")
    let db : Database := ⟨.root, {}, index, none, none, []⟩
    ∃ found₁ found₂, db.Answers "a k:" found₁ ∧ db.Answers "\"or\" or b" found₂ ∧
      db.Answers ("(" ++ "a k:" ++ ") (" ++ "\"or\" or b" ++ ")") (found₁ ∩ found₂) ∧
      db.Answers ("(" ++ "a k:" ++ ") or (" ++ "\"or\" or b" ++ ")") (found₁ ∪ found₂) ∧
      db.Answers ("not (" ++ "a k:" ++ ")") ({r | r ∈ db.index.all} \ found₁) := by
  have h₁ : Query.parse "a k:" = .ok (.and (.tag "a") (.attr (some "k") none)) := by decide
  have h₂ : Query.parse "\"or\" or b" = .ok (.or (.tag "or") (.tag "b")) := by decide
  have searched := search_homomorphism h₁ (by decide) h₂ (by decide)
  have c : ((Index.empty.add (.ofString "f") (.bare "a")).add (.ofString "g")
      (.bare "or")).Consistent := Index.Consistent.empty.add.add
  exact ⟨h₁, h₂, searched.1, searched.2 _ c.toKeyed⟩

end

end FileTags.Database
