/-
  Finding what has been written.

  A tag has a query of its own, its key and its value in quotes.

  * `Tag.parse_query`: the query of a tag denotes the tag, as long as there is no quote in it;
  * `Database.answers_query` and `Database.finds_query`: which records and files it finds;
  * `Database.exists_add` and `Database.exists_remove`: what writing and removing the tags of a
    text do to the index;
  * `Database.finds_written`: after that, the queries find what they should.
-/
import FileTags.Proofs.Database.Search
import FileTags.Proofs.Query.Printing

namespace FileTags

open Query (Expr lexesTo_quote)

namespace Tag

/-! ## The query of a tag -/

/-- There is no quote in the key or the value of a tag. -/
def QuoteFree (t : Tag) : Prop := '"' ∉ t.key.toList ∧ ∀ value ∈ t.value?, '"' ∉ value.toList

instance (t : Tag) : Decidable t.QuoteFree := inferInstanceAs (Decidable (_ ∧ _))

/-- The query for a tag. -/
def query : Tag → String
  | bare word => Expr.quote word
  | pair key value => Expr.quote key ++ String.singleton separator ++ Expr.quote value

/-- What the query for a tag denotes. -/
def expr : Tag → Expr
  | bare word => .tag word
  | pair key value => .attr (some key) (some value)

variable {t : Tag} {r : Record}

theorem parse_query (free : t.QuoteFree) : Query.parse t.query = .ok t.expr := by
  cases t with
  | bare word =>
    have text : Query.LexesTo ((query (.bare word)).toList ++ [' ']) [.word word] :=
      lexesTo_quote free.1 rfl
    exact Query.parse_of_derives (Query.lex_of_lexesTo_space text) (.last (.tag nofun))
  | pair key value =>
    have keySide : Query.LexesTo ((Expr.quote key).toList ++ [':']) [.word key, .colon] :=
      lexesTo_quote free.1 rfl
    have valueSide : Query.LexesTo ((Expr.quote value).toList ++ [' ']) [.word value] :=
      lexesTo_quote (free.2 value rfl) rfl
    have text : Query.LexesTo ((query (.pair key value)).toList ++ [' '])
        [.word key, .colon, .word value] := by
      simpa [query, separator] using keySide.append valueSide
    exact Query.parse_of_derives (Query.lex_of_lexesTo_space text) (.last .pair)

theorem holds_expr : t.expr.holds r = true ↔ r.Carries t := by
  cases t with
  | bare word => simp [expr, Expr.holds, Record.hasTag, Record.Carries]
  | pair key value => simp [expr, Expr.holds, Record.hasAttribute, Record.Carries]

end Tag

namespace Database

variable {db : Database} {d : Disk} {file known p : Path} {t : Tag}

/-- A query finds the file at a path. -/
def Finds (db : Database) (query : String) (p : Path) : Prop :=
  ∃ records, db.searchText query = .ok records ∧ ∃ r ∈ records, r.path = p

theorem answers_query (k : db.index.Keyed) (free : t.QuoteFree) :
    db.Answers t.query {r | r ∈ db.index.all ∧ r.Carries t} := by
  have answers := answers_of_parse k (Tag.parse_query free)
  simpa only [holding, Tag.holds_expr] using answers

theorem finds_query (k : db.index.Keyed) (free : t.QuoteFree) :
    db.Finds t.query p ↔ db.index.ledger.Carries p t := by
  obtain ⟨records, answered, -, exact⟩ := answers_query k free
  rw [Ledger.carries_iff, ← Index.all_eq k]
  constructor
  · rintro ⟨records', answered', r, there, rfl⟩
    obtain rfl : records = records' := by rw [answered] at answered'; exact Except.ok.inj answered'
    exact ⟨r, ((exact r).1 there).1, rfl, ((exact r).1 there).2⟩
  · rintro ⟨r, there, rfl, row⟩
    exact ⟨records, answered, r, (exact r).2 ⟨there, row⟩, rfl⟩

/-! ## Writing and removing -/

/-- Steps that change no more than the index keep the place and the configuration. -/
theorem foldl_frame {α : Type} (step : Database → α → Database) (change : Index → α → Index)
    (frame : ∀ db a, (step db a).path = db.path ∧ (step db a).config = db.config ∧
      (step db a).index = change db.index a) (db : Database) (as : List α) :
    (as.foldl step db).path = db.path ∧ (as.foldl step db).config = db.config ∧
      (as.foldl step db).index = as.foldl change db.index := by
  induction as generalizing db with
  | nil => exact ⟨rfl, rfl, rfl⟩
  | cons a as ih =>
    obtain ⟨path, config, index⟩ := frame db a
    have rest := ih (step db a)
    rw [path, config, index] at rest
    exact rest

/-- The tags that a text stands for are written one after the other, as far as they are allowed. -/
theorem exists_foldl_add (inside : relativePath d db.root file = .ok known) (raw : String) :
    ∃ db', db.add d file raw = (.ok (db.config.tagsToAdd raw), db') ∧
      db'.path = db.path ∧ db'.config = db.config ∧
      db'.index = (db.config.tagsToAdd raw).foldl (·.add known ·) db.index := by
  simp only [add, inside]
  split
  · next refused =>
    rw [List.isEmpty_iff.1 refused]
    exact ⟨_, rfl, rfl, rfl, rfl⟩
  · exact ⟨_, rfl, foldl_frame (write · known ·) (·.add known ·) (fun _ _ => ⟨rfl, rfl, rfl⟩) db
      (db.config.tagsToAdd raw)⟩

/-- The tags that a text stands for are deleted one after the other. -/
theorem exists_foldl_remove (inside : relativePath d db.root file = .ok known) (raw : String) :
    ∃ db', db.remove d file raw = (.ok (db.config.tagsToRemove raw), db') ∧
      db'.path = db.path ∧ db'.config = db.config ∧
      db'.index = (db.config.tagsToRemove raw).foldl (·.remove known ·) db.index := by
  simp only [remove, inside]
  exact ⟨_, rfl, foldl_frame (delete · known ·) (·.remove known ·) (fun _ _ => ⟨rfl, rfl, rfl⟩) db
    (db.config.tagsToRemove raw)⟩

theorem exists_add (k : db.index.Keyed) (inside : relativePath d db.root file = .ok known)
    (raw : String) :
    ∃ db', db.add d file raw = (.ok (db.config.tagsToAdd raw), db') ∧
      db'.path = db.path ∧ db'.config = db.config ∧ db'.index.Keyed ∧
      ∀ p t, db'.index.ledger.Carries p t ↔
        (p = known ∧ t ∈ db.config.tagsToAdd raw) ∨ db.index.ledger.Carries p t := by
  obtain ⟨db', added, path, config, index⟩ := exists_foldl_add inside raw
  refine ⟨db', added, path, config, ?_⟩
  rw [index]
  exact k.foldl_add (db.config.tagsToAdd raw)

theorem exists_remove (k : db.index.Keyed) (inside : relativePath d db.root file = .ok known)
    (raw : String) :
    ∃ db', db.remove d file raw = (.ok (db.config.tagsToRemove raw), db') ∧
      db'.path = db.path ∧ db'.config = db.config ∧ db'.index.Keyed ∧
      ∀ p t, db'.index.ledger.Carries p t ↔
        ¬ (p = known ∧ t ∈ db.config.tagsToRemove raw) ∧ db.index.ledger.Carries p t := by
  obtain ⟨db', removed, path, config, index⟩ := exists_foldl_remove inside raw
  obtain ⟨keyed, carries⟩ := k.foldl_remove ((db.config.tagsToRemove raw).map (known, ·))
  rw [List.foldl_map] at keyed carries
  refine ⟨db', removed, path, config, ?_⟩
  rw [index]
  refine ⟨keyed, fun p t => (carries p t).trans ?_⟩
  simp [and_comm, eq_comm]

/-- **What is written is found again**, and what is removed is not found any more.  The query of
    a tag finds the records that carry it, after as before; it finds what has been written and,
    for other tags, what it found before. -/
theorem finds_written (k : db.index.Keyed) (inside : relativePath d db.root file = .ok known)
    (raw : String) :
    let written := db.config.tagsToAdd raw
    ∃ db₁ db₂, db.add d file raw = (.ok written, db₁) ∧
      db₁.remove d file raw = (.ok (db.config.tagsToRemove raw), db₂) ∧
      db₁.index.Keyed ∧ db₂.index.Keyed ∧
      ∀ t : Tag, t.QuoteFree → Query.parse t.query = .ok t.expr ∧
        (∀ db' : Database, db'.index.Keyed →
          db'.Answers t.query {r | r ∈ db'.index.all ∧ r.Carries t}) ∧
        (t ∈ written → db₁.Finds t.query known) ∧
        (t ∉ written → ∀ p, db₁.Finds t.query p ↔ db.Finds t.query p) ∧
        (t ∈ (db.config.expand raw).map Tag.ofString → ¬ db₂.Finds t.query known) := by
  obtain ⟨db₁, added, path, config, k₁, carries₁⟩ := exists_add k inside raw
  have inside₁ : relativePath d db₁.root file = .ok known := by rw [root, path]; exact inside
  obtain ⟨db₂, removed, -, -, k₂, carries₂⟩ := exists_remove k₁ inside₁ raw
  rw [config] at removed carries₂
  refine ⟨db₁, db₂, added, removed, k₁, k₂, fun t free =>
    ⟨Tag.parse_query free, fun db' k' => answers_query k' free, ?_, ?_, ?_⟩⟩
  · intro written
    exact (finds_query k₁ free).2 ((carries₁ known t).2 (Or.inl ⟨rfl, written⟩))
  · intro other p
    rw [finds_query k₁ free, finds_query k free, carries₁]
    exact or_iff_right fun written => other written.2
  · intro meant found
    exact ((carries₂ known t).1 ((finds_query k₂ free).1 found)).1 ⟨rfl, meant⟩

/-- An alias for a keyword, an attribute with a space and a colon in its value, and a tag that
    must not be written. -/
theorem finds_written_alias :
    let a : Name := ⟨"a", by decide⟩
    let d : Disk := ⟨.dir [(a, .file ⟨0⟩ .empty 0)], ⟨[], 0⟩, ⟨1⟩⟩
    let config : Config :=
      { aliases := [("all", ["or", "k:v w:x", "no"])], blacklist := some ["no"] }
    let db : Database := ⟨Path.root.child databaseName, config, .empty, none, none, []⟩
    let file := Path.ofString "a"
    ∃ db₁ db₂, db.add d file "all" = (.ok [.bare "or", .pair "k" "v w:x"], db₁) ∧
      db₁.remove d file "all" = (.ok [.bare "or", .pair "k" "v w:x", .bare "no"], db₂) ∧
      db₁.Finds "\"or\"" file ∧ db₁.Finds "\"k\":\"v w:x\"" file ∧
      ¬ db₂.Finds "\"or\"" file ∧ ¬ db₂.Finds "\"no\"" file := by
  intro a d config db file
  have inside : relativePath d db.root file = .ok file := by decide
  obtain ⟨db₁, db₂, added, taken, -, -, found⟩ :=
    finds_written Index.Consistent.empty.toKeyed inside "all"
  have word := (found (.bare "or") (by decide)).2.2
  have pair := (found (.pair "k" "v w:x") (by decide)).2.2
  have banned := (found (.bare "no") (by decide)).2.2
  exact ⟨db₁, db₂, added, taken, word.1 (by decide), pair.1 (by decide),
    word.2.2 (by decide), banned.2.2 (by decide)⟩

end Database

end FileTags
