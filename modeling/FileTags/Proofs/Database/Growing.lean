/-
  What queries find when files gain or lose tags.

  * `Index.Consistent.exists_within`: a record that gains tags is still there, under its path;
  * `Database.finds_of_tagged`: a query with a positive expression still finds it;
  * `Database.search_monotone`: adding tags drops no file from what such a query finds, and
    removing tags brings none in; in particular this is so for every query without `not`.
-/
import FileTags.Proofs.Database.Undoing
import FileTags.Proofs.Query.Polarity

namespace FileTags

namespace Index

variable {ix ix' : Index} {r : Record}

/-- A record that gains tags is still there, since it carried something. -/
theorem Consistent.exists_within (c : Consistent ix) (k : Keyed ix')
    (more : ∀ t, ix.Tagged r.path t → ix'.Tagged r.path t) (there : r ∈ ix.all) :
    ∃ s ∈ ix'.all, s.path = r.path ∧ r.Within s := by
  have filled : ¬ ∀ t, ¬ r.Carries t := by
    rw [← Record.isEmpty_iff, isEmpty_of_mem_all c there]
    exact Bool.false_ne_true
  obtain ⟨t, carried⟩ := not_forall_not.1 filled
  obtain ⟨s, there', path, -⟩ := more t ⟨r, there, rfl, carried⟩
  refine ⟨s, there', path, Record.within_iff.2 fun u carried => ?_⟩
  obtain ⟨s', there'', path', carried'⟩ := more u ⟨r, there, rfl, carried⟩
  -- There is one record for a path.
  have same : some s' = some s := by
    rw [← k.mem_all.1 there'', ← k.mem_all.1 there', path', path]
  exact Option.some.inj same ▸ carried'

end Index

namespace Database

open Query (Expr Token)

variable {db db' : Database} {query : String} {e : Expr} {p : Path}

theorem finds_iff (denotes : Query.parse query = .ok e) :
    db.Finds query p ↔ ∃ r ∈ db.index.all, r.path = p ∧ e.holds r = true := by
  have answer : db.searchText query = .ok (db.search e) := by rw [searchText, denotes]
  constructor
  · rintro ⟨records, answered, r, found, path⟩
    obtain rfl : db.search e = records := Except.ok.inj (answer.symm.trans answered)
    exact ⟨r, (mem_search.1 found).1, path, (mem_search.1 found).2⟩
  · rintro ⟨r, there, path, holds⟩
    exact ⟨_, answer, r, mem_search.2 ⟨there, holds⟩, path⟩

/-- A query with a positive expression still finds the files that gain tags. -/
theorem finds_of_tagged (c : db.index.Consistent) (k : db'.index.Keyed)
    (more : ∀ q t, db.index.Tagged q t → db'.index.Tagged q t)
    (denotes : Query.parse query = .ok e) (positive : e.Positive) (found : db.Finds query p) :
    db'.Finds query p := by
  obtain ⟨r, there, rfl, holds⟩ := (finds_iff denotes).1 found
  obtain ⟨s, there', path, within⟩ := c.exists_within k (more r.path) there
  exact (finds_iff denotes).2 ⟨s, there', path, (Query.holds_of_within within).1 positive holds⟩

/-- **Matching is monotone by polarity.**  Of a record that gains tags, in whatever order and
    however often it lists them, a positive expression keeps holding, and of one that loses tags a
    negative one.  So adding what a text stands for drops no file from what a positive query finds,
    and removing it brings none in; a query without `not` is positive. -/
theorem search_monotone :
    (∀ (e : Expr) (r s : Record), r.Within s →
      (e.Positive → e.holds r = true → e.holds s = true) ∧
      (e.Negative → e.holds s = true → e.holds r = true)) ∧
    (∀ query tokens e, Query.lex query = .ok tokens → Token.not ∉ tokens →
      Query.parse query = .ok e → e.Positive) ∧
    ∀ (d : Disk) (db : Database) (file known : Path) (raw : String), db.index.Consistent →
      relativePath d db.root file = .ok known →
      ∃ db₁ db₂, db.add d file raw = (.ok (db.config.tagsToAdd raw), db₁) ∧
        db.remove d file raw = (.ok (db.config.tagsToRemove raw), db₂) ∧
        ∀ query e, Query.parse query = .ok e → e.Positive → ∀ p,
          (db.Finds query p → db₁.Finds query p) ∧ (db₂.Finds query p → db.Finds query p) := by
  refine ⟨fun e r s => Query.holds_of_within, fun query tokens e read free denotes n there => ?_,
    fun d db file known raw c inside => ?_⟩
  · rw [Query.depths_of_lex read free denotes n there]
    exact Even.zero
  · have k := c.toKeyed
    obtain ⟨db₁, added, -, -, k₁, carries₁⟩ := exists_add k inside raw
    obtain ⟨db₂, removed, -, -, index₂⟩ := exists_foldl_remove inside raw
    obtain ⟨db₂', removed', -, -, k₂, carries₂⟩ := exists_remove k inside raw
    obtain rfl : db₂ = db₂' := congrArg Prod.snd (removed.symm.trans removed')
    have c₂ : db₂.index.Consistent := index₂ ▸ c.foldl_remove_tags
    have gains : ∀ q t, db.index.Tagged q t → db₁.index.Tagged q t := fun q t tagged =>
      (Index.tagged_iff k₁).2 ((carries₁ q t).2 (.inr ((Index.tagged_iff k).1 tagged)))
    have loses : ∀ q t, db₂.index.Tagged q t → db.index.Tagged q t := fun q t tagged =>
      (Index.tagged_iff k).2 ((carries₂ q t).1 ((Index.tagged_iff k₂).1 tagged)).2
    exact ⟨db₁, db₂, added, removed, fun query e denotes positive p =>
      ⟨finds_of_tagged c k₁ gains denotes positive, finds_of_tagged c₂ k loses denotes positive⟩⟩

/-- A double negation around an attribute with an open key, a negation, and a query without `not`,
    for an alias of a word and an attribute. -/
theorem search_monotone_negations :
    let r : Record := ⟨.here, ["x"], [("k", "v")]⟩
    let s : Record := ⟨.here, ["z", "x", "x"], [("l", "w"), ("k", "v")]⟩
    let a : Name := ⟨"a", by decide⟩
    let d : Disk := ⟨.dir [(a, .file ⟨0⟩ .empty 0)], ⟨[], 0⟩, ⟨1⟩⟩
    let config : Config := { aliases := [("all", ["x", "k:v"])] }
    let index := Index.empty.add (.ofString "a") (.pair "k" "v")
    let db : Database := ⟨Path.root.child databaseName, config, index, none, none, []⟩
    let file := Path.ofString "a"
    (Expr.not (.not (.attr none (some "v")))).holds s = true ∧
    (Expr.not (.tag "y")).holds r = true ∧
    ∃ db₁ db₂, db.add d file "all" = (.ok [.bare "x", .pair "k" "v"], db₁) ∧
      db.remove d file "all" = (.ok [.bare "x", .pair "k" "v"], db₂) ∧
      db₁.Finds "y, :v" file ∧ (db₂.Finds "x" file → db.Finds "x" file) := by
  intro r s a d config index db file
  obtain ⟨holds, free, finds⟩ := search_monotone
  have within : r.Within s := by simp [Record.Within, r, s]
  have consistent : index.Consistent := Index.Consistent.empty.add
  have inside : relativePath d db.root file = .ok file := by decide
  obtain ⟨db₁, db₂, added, removed, kept⟩ := finds d db file file "all" consistent inside
  have either : Query.parse "y, :v" = .ok (.or (.tag "y") (.attr none (some "v"))) := by decide
  have word : Query.parse "x" = .ok (.tag "x") := by decide
  have found : db.Finds "y, :v" file :=
    (finds_iff either).2 ⟨⟨file, [], [("k", "v")]⟩, by decide +kernel, rfl, rfl⟩
  refine ⟨(holds _ r s within).1 (by decide) rfl, (holds _ r s within).2 ?_ rfl,
    db₁, db₂, added, removed, (kept _ _ either ?_ file).1 found, (kept _ _ word ?_ file).2⟩
  · simp [Expr.Negative, Expr.depths]
  · exact free "y, :v" _ _ rfl (by decide) either
  · exact free "x" _ _ rfl (by decide) word

end Database

end FileTags
