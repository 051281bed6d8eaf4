/-
  Queries on the command line.

  The query of a search is written as terms, and what is searched for are the terms with spaces
  between them.  Since a space keeps texts apart, the query has the tokens of the terms one after
  the other, and it makes no difference where what a user types is cut into terms.

  * `searchTerms` are the terms on a command line, and `Query.LexEach` says which tokens they have;
  * `Command.query_of_takeSearch` and `query_eq`: the query of a search is made of its terms;
  * `Setup.search_congr`: what a search does depends on the tokens of its query only;
  * `Query.lex_joined`: the tokens of texts side by side, and of the query of a search.
-/
import FileTags.Command.Run
import FileTags.Proofs.Command.Reading
import FileTags.Proofs.Query.Lexing
import FileTags.Proofs.Query.Quoting

namespace FileTags

open Arguments

/-- Texts have these tokens, each its own. -/
def Query.LexEach (texts : List String) (tokens : List (List Token)) : Prop :=
  List.Forall₂ (fun text ts => lex text = .ok ts) texts tokens

instance (texts : List String) (tokens : List (List Query.Token)) :
    Decidable (Query.LexEach texts tokens) :=
  inferInstanceAs (Decidable (List.Forall₂ _ _ _))

/-- The terms on a command line that searches: the operands behind the name of the command. -/
def searchTerms (env : Environment) (arguments : List String) : List String :=
  match readSettings env arguments (.ofEnvironment env) with
  | (_, .ok (_ :: rest)) => ((scan searchFlags true none rest).map operands).getD []
  | _ => []

variable {texts arguments arguments' : List String} {query query' : String}
  {options : SearchOptions} {env : Environment} {s : Setup} {d : Disk}

/-! ## The query of a search -/

namespace Command

theorem query_of_takeSearch (read : takeSearch texts = .ok (.search query options)) :
    ∃ found, scan searchFlags true none texts = some found ∧
      query = " ".intercalate (operands found) := by
  obtain ⟨found, taken, read⟩ := exists_of_bind read
  obtain ⟨limit, -, read⟩ := exists_of_bind read
  cases read
  cases scanned : scan searchFlags true none texts with
  | none => rw [takeArguments, scanned] at taken; cases taken
  | some found' =>
    rw [takeArguments, scanned] at taken
    cases taken
    exact ⟨found, rfl, rfl⟩

theorem takeSearch_of_ofArguments {name : String}
    (read : ofArguments name texts = some (.ok (.search query options))) :
    takeSearch texts = .ok (.search query options) := by
  unfold ofArguments at read
  split at read
  case h_7 => exact Option.some.inj read
  case h_1 | h_4 =>
    obtain ⟨found, -, read⟩ := exists_of_bind (Option.some.inj read)
    split at read <;> cases read
  case h_2 | h_3 | h_6 =>
    obtain ⟨found, -, read⟩ := exists_of_bind (Option.some.inj read)
    obtain ⟨files, -, read⟩ := exists_of_bind read
    split at read <;> cases read
  case h_5 =>
    obtain ⟨found, -, read⟩ := exists_of_bind (Option.some.inj read)
    obtain ⟨files, -, read⟩ := exists_of_bind read
    cases read
  case h_8 => cases read

/-- Behind `--` any texts are the terms of a search. -/
theorem ofArguments_terms (terms : List String) :
    ofArguments "search" ("--" :: terms) =
      some (.ok (.search (" ".intercalate terms) ⟨false, false, "", none, false⟩)) := by
  have found : takeArguments searchFlags ("--" :: terms) = .ok (terms.map .operand) := rfl
  have taken : operands (terms.map (Argument.operand (κ := CommandOption))) = terms := by
    simp [operands, List.filterMap_map]
  have none_given (key : CommandOption) : given key (terms.map .operand) = false := by
    simp [given, Argument.key?]
  have no_values (key : CommandOption) : last? key (terms.map .operand) = none := by
    simp [last?, values, List.filterMap_map]
  have read : ofArguments "search" ("--" :: terms) = some (takeSearch ("--" :: terms)) := rfl
  rw [read]
  simp only [takeSearch, found, bind, Except.bind, taken, none_given, no_values]
  rfl

end Command

theorem query_eq
    (read : (Request.ofArguments env arguments).command = .ok (.search query options)) :
    query = " ".intercalate (searchTerms env arguments) := by
  unfold Request.ofArguments at read
  split at read
  · cases read
  · cases read
  · next name rest settings =>
    split at read
    · next command taken =>
      have search := Command.takeSearch_of_ofArguments (taken.trans (congrArg some read))
      obtain ⟨found, scanned, rfl⟩ := Command.query_of_takeSearch search
      rw [searchTerms, settings]
      simp [scanned]
    · split at read <;> cases read

/-- The query of a search has the tokens of its terms, one after the other. -/
theorem lex_query {tokens : List (List Query.Token)}
    (read : (Request.ofArguments env arguments).command = .ok (.search query options))
    (lexed : Query.LexEach (searchTerms env arguments) tokens) :
    Query.lex query = .ok tokens.flatten := by
  rw [query_eq read]
  exact Query.lex_intercalate lexed

/-! ## What a search does -/

theorem Setup.search_congr (same : Query.lex query = Query.lex query') :
    s.search d query options = s.search d query' options := by
  have parsed : Query.parse query = Query.parse query' := by
    rw [Query.parse, Query.parse, same]
  have found (db : Database) : db.searchText query = db.searchText query' := by
    rw [Database.searchText, Database.searchText, parsed]
  simp only [Setup.search, found]

/-- Command lines that search with the same settings and options, and for the same tokens, do
    the same. -/
theorem run_search_congr {clock : Clock} {input : String}
    (read : (Request.ofArguments env arguments).command = .ok (.search query options))
    (read' : (Request.ofArguments env arguments').command = .ok (.search query' options))
    (settings : (Request.ofArguments env arguments).settings =
      (Request.ofArguments env arguments').settings)
    (same : Query.lex query = Query.lex query') :
    run d env clock arguments input = run d env clock arguments' input := by
  rw [run, run, Request.run, Request.run, read, read', settings]
  simp only [Command.perform, Setup.search_congr same]

/-- **A separator keeps texts apart**, and spaces keep the terms of a search apart.  Any terms may
    be searched for, a query has the tokens of its terms, and where a command line is cut into
    terms makes no difference to what it does. -/
theorem Query.lex_joined :
    (∀ a b ts us, lex a = .ok ts → lex b = .ok us → ∀ cut ∈ cutters,
      lex (a ++ String.singleton cut.1 ++ b) = .ok (ts ++ cut.2 ++ us)) ∧
    (∀ terms tokens, LexEach terms tokens → ∃ query options,
      Command.ofArguments "search" ("--" :: terms) = some (.ok (.search query options)) ∧
      lex query = .ok tokens.flatten) ∧
    (∀ env arguments query options tokens,
      (Request.ofArguments env arguments).command = .ok (.search query options) →
      LexEach (searchTerms env arguments) tokens → lex query = .ok tokens.flatten) ∧
    ∀ env arguments arguments' query query' options tokens tokens',
      (Request.ofArguments env arguments).command = .ok (.search query options) →
      (Request.ofArguments env arguments').command = .ok (.search query' options) →
      (Request.ofArguments env arguments).settings =
        (Request.ofArguments env arguments').settings →
      LexEach (searchTerms env arguments) tokens →
      LexEach (searchTerms env arguments') tokens' → tokens.flatten = tokens'.flatten →
      ∀ d clock input,
        FileTags.run d env clock arguments input = FileTags.run d env clock arguments' input := by
  refine ⟨?separator, ?terms, fun _ _ _ _ _ read lexed => lex_query read lexed, ?split⟩
  case separator =>
    intro a b ts us left right cut member
    have cuts : ∀ cut ∈ cutters, isSeparator cut.1 = true ∧ separatorToken cut.1 = cut.2 := by
      decide
    obtain ⟨sep, tokens⟩ := cuts cut member
    rw [← tokens]
    exact lex_append_separator left right sep
  case terms =>
    intro terms tokens lexed
    exact ⟨_, _, Command.ofArguments_terms terms, lex_intercalate lexed⟩
  case split =>
    intro env arguments arguments' query query' options tokens tokens' read read' settings
      lexed lexed' same d clock input
    have joined : lex query = lex query' := by
      rw [lex_query read lexed, lex_query read' lexed', same]
    exact run_search_congr read read' settings joined

namespace Searching

/-- The index of a file with a tag and an attribute. -/
def photoIndex : Index :=
  (Index.empty.add (.ofString "p") (.bare "photo")).add (.ofString "p") (.pair "place" "new york")

/-- A disk with their database. -/
def photoDisk : Disk :=
  ⟨.dir [(databaseName, .dir [(dataName, .file ⟨0⟩ (.index newestLayout photoIndex) 0)])],
    ⟨[], 0⟩, ⟨1⟩⟩

end Searching

open Searching in
/-- A query with quotes, an attribute and a group, cut into terms in two ways. -/
theorem Query.lex_joined_cut_twice :
    lex ("place" ++ String.singleton ':' ++ "\"new york\" or") =
      .ok [.word "place", .colon, .word "new york", .or] ∧
    FileTags.run photoDisk {} ⟨"", ""⟩
        ["search", "-n", "5", "place:\"new york\" and", "(photo", ",", "not x)"] "" =
      FileTags.run photoDisk {} ⟨"", ""⟩
        ["search", "place", ":\"new york\" (photo,not", "-n5", "x", ")"] "" ∧
    (FileTags.run photoDisk {} ⟨"", ""⟩
      ["search", "place", ":\"new york\" (photo,not", "-n5", "x", ")"] "").2.map (·.output) =
        .ok "p\n" := by
  obtain ⟨apart, -, -, split⟩ := lex_joined
  let line := ["search", "-n", "5", "place:\"new york\" and", "(photo", ",", "not x)"]
  let line' := ["search", "place", ":\"new york\" (photo,not", "-n5", "x", ")"]
  have lexed : LexEach (searchTerms {} line)
      [[.word "place", .colon, .word "new york"], [.startParen, .word "photo"], [.or],
        [.not, .word "x", .endParen]] := by decide +kernel
  have lexed' : LexEach (searchTerms {} line')
      [[.word "place"], [.colon, .word "new york", .startParen, .word "photo", .or, .not],
        [.word "x"], [.endParen]] := by decide +kernel
  have read : (Request.ofArguments {} line).command =
      .ok (.search "place:\"new york\" and (photo , not x)" ⟨false, false, "", some 5, false⟩) := by
    decide +kernel
  have read' : (Request.ofArguments {} line').command =
      .ok (.search "place :\"new york\" (photo,not x )" ⟨false, false, "", some 5, false⟩) := by
    decide +kernel
  have settings : (Request.ofArguments {} line).settings =
      (Request.ofArguments {} line').settings := by decide +kernel
  refine ⟨?_, split _ _ _ _ _ _ _ _ read read' settings lexed lexed' rfl _ _ _, by decide +kernel⟩
  exact apart "place" "\"new york\" or" [.word "place"] [.word "new york", .or]
    (by decide +kernel) (by decide +kernel) (':', [.colon]) (by decide)

end FileTags
