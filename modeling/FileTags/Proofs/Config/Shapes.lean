/-
  Which documents are configurations.

  * `Config.Shaped` is the shape of a document that holds a configuration: its version is a truth
    value or an integer that is not too new, its lists hold strings alone, and so does each alias,
    or is a string by itself;
  * `Config.Follows` is the policy that a document asks for;
  * `ofTable_eq_ok_iff`: a document is read member by member, each by a relation
    (`VersionOf`, `NamesOf`, `AliasesOf`) between what is found and what it means;
  * `loadConfig_document`: a configuration is loaded from the documents of that shape and from no
    others, it follows the document, and which error the others give.
-/
import FileTags.Proofs.Config.Files
import Mathlib

namespace FileTags

open Toml

/-- What a value stands for as an alias: the tag that it is, or the tags that it lists. -/
inductive Toml.Value.StandsFor : Value → List String → Prop
  | single (tag : String) : StandsFor (.string tag) [tag]
  | list (tags : List String) : StandsFor (.array (tags.map .string)) tags

namespace Config

/-! ## Shapes -/

/-- A version that can be read: a truth value, or an integer that is not above the newest. -/
inductive IsVersion : Value → Prop
  | flag (b : Bool) : IsVersion (.boolean b)
  | number (n : Int) : n ≤ Version.newest → IsVersion (.integer n)

/-- The shape of a document that holds a configuration. -/
structure Shaped (t : Table) : Prop where
  version : ∀ v, t.get? "version" = some v → IsVersion v
  whitelist : ∀ v, t.get? "whitelist" = some v →
    ∃ names : List String, v = .array (names.map .string)
  blacklist : ∀ v, t.get? "blacklist" = some v →
    ∃ names : List String, v = .array (names.map .string)
  aliases : ∀ v, t.get? "aliases" = some v →
    ∃ members, v = .table members ∧ ∀ m ∈ members, ∃ tags, m.2.StandsFor tags

/-- A configuration follows a document: it has its version, allows what it allows, and expands the
    keys of its aliases and no other names. -/
structure Follows (t : Table) (c : Config) : Prop where
  version : versionValue c.version = (t.get? "version").getD (.integer Version.newest)
  allows : ∀ name, c.allows name = true ↔
    (∀ items, t.get? "whitelist" = some (.array items) → .string name ∈ items) ∧
      ∀ items, t.get? "blacklist" = some (.array items) → .string name ∉ items
  key : ∀ (members : Table) (name : String) (value : Value),
    t.get? "aliases" = some (.table members) → members.get? name = some value →
      ∃ tags, value.StandsFor tags ∧ c.alias? name = some tags ∧ c.expand name = tags
  other : ∀ name, (∀ members : Table, t.get? "aliases" = some (.table members) →
    members.get? name = none) → c.alias? name = none ∧ c.expand name = [name]

/-! ## Reading member by member -/

/-- What the version of a document means. -/
inductive VersionOf : Option Value → Version → Prop
  | absent : VersionOf none (.number Version.newest)
  | flag (b : Bool) : VersionOf (some (.boolean b)) (.flag b)
  | number (n : Int) : n ≤ Version.newest → VersionOf (some (.integer n)) (.number n)

/-- What a list of names in a document means. -/
inductive NamesOf : Option Value → Option (List String) → Prop
  | absent : NamesOf none none
  | list (names : List String) : NamesOf (some (.array (names.map .string))) (some (nameSet names))

/-- What the aliases of a document mean, each for itself. -/
inductive AliasesOf : Option Value → List (String × List String) → Prop
  | absent : AliasesOf none []
  | table {members aliases} :
    List.Forall₂ (fun m a => a.1 = m.1 ∧ m.2.StandsFor a.2) members aliases →
      AliasesOf (some (.table members)) aliases

variable {t : Table} {c : Config} {key : String} {e : ConfigError}

theorem strings?_eq_some_iff {v : Value} {names : List String} :
    strings? v = some names ↔ v = .array (names.map .string) := by
  constructor
  · intro read
    cases v with
    | array items =>
      congr 1
      rw [strings?] at read
      induction items generalizing names with
      | nil =>
        cases read
        rfl
      | cons item items ih =>
        rw [List.mapM_cons] at read
        cases item with
        | string s =>
          obtain ⟨_, ⟨⟩, read⟩ := Option.bind_eq_some_iff.1 read
          obtain ⟨names, later, ⟨⟩⟩ := Option.bind_eq_some_iff.1 read
          rw [ih later, List.map_cons]
        | _ => cases read
    | _ => cases read
  · rintro rfl
    exact strings?_strings names

theorem readVersion_eq_ok_iff {v : Version} :
    readVersion t = .ok v ↔ VersionOf (t.get? "version") v := by
  rw [readVersion]
  generalize t.get? "version" = found
  constructor
  · intro read
    split at read
    next => cases read; exact .absent
    next b => cases read; exact .flag b
    next n =>
      split at read
      next old => cases read; exact .number n old
      next => cases read
    next => cases read
  · intro meant
    cases meant with
    | absent => rfl
    | flag b => rfl
    | number n old => exact if_pos old

theorem readNames_eq_ok_iff {names : Option (List String)} :
    readNames t key = .ok names ↔ NamesOf (t.get? key) names := by
  rw [readNames]
  generalize t.get? key = found
  constructor
  · intro read
    split at read
    next => cases read; exact .absent
    next value =>
      split at read
      next list strings =>
        cases read
        rw [strings?_eq_some_iff.1 strings]
        exact .list list
      next => cases read
  · intro meant
    cases meant with
    | absent => rfl
    | list names => simp only [strings?_strings]

theorem readAlias_eq_ok_iff {value : Value} {a : String × List String} :
    readAlias key value = .ok a ↔ a.1 = key ∧ value.StandsFor a.2 := by
  constructor
  · intro read
    rw [readAlias.eq_def] at read
    split at read
    next s => cases read; exact ⟨rfl, .single s⟩
    next =>
      split at read
      next tags strings =>
        cases read
        rw [strings?_eq_some_iff.1 strings]
        exact ⟨rfl, .list tags⟩
      next => cases read
  · obtain ⟨name, tags⟩ := a
    rintro ⟨rfl, stands⟩
    cases stands with
    | single tag => rfl
    | list tags => simp only [readAlias, strings?_strings]

theorem mapM_eq_ok_iff {ε α β : Type} {f : α → Except ε β} {xs : List α} {ys : List β} :
    xs.mapM f = .ok ys ↔ List.Forall₂ (fun x y => f x = .ok y) xs ys := by
  induction xs generalizing ys with
  | nil =>
    rw [List.mapM_nil, List.forall₂_nil_left_iff]
    exact ⟨fun same => (Except.ok.inj same).symm, fun same => congrArg Except.ok same.symm⟩
  | cons x xs ih =>
    rw [List.mapM_cons, List.forall₂_cons_left_iff]
    constructor
    · intro read
      cases first : f x with
      | error e => rw [first] at read; cases read
      | ok y =>
        cases later : xs.mapM f with
        | error e => rw [first, later] at read; cases read
        | ok ys =>
          rw [first, later] at read
          cases read
          exact ⟨y, ys, rfl, ih.1 later, rfl⟩
    · rintro ⟨y, ys, first, later, rfl⟩
      rw [first, ih.2 later]
      rfl

theorem readAliases_eq_ok_iff {aliases : List (String × List String)} :
    readAliases t = .ok aliases ↔ AliasesOf (t.get? "aliases") aliases := by
  rw [readAliases]
  generalize t.get? "aliases" = found
  constructor
  · intro read
    split at read
    next => cases read; exact .absent
    next members =>
      exact .table ((mapM_eq_ok_iff.1 read).imp fun _ _ => readAlias_eq_ok_iff.1)
    next => cases read
  · intro meant
    cases meant with
    | absent => rfl
    | table each => exact mapM_eq_ok_iff.2 (each.imp fun _ _ => readAlias_eq_ok_iff.2)

/-- **A document is read member by member.** -/
theorem ofTable_eq_ok_iff : ofTable t = .ok c ↔
    VersionOf (t.get? "version") c.version ∧ NamesOf (t.get? "whitelist") c.whitelist ∧
      NamesOf (t.get? "blacklist") c.blacklist ∧ AliasesOf (t.get? "aliases") c.aliases := by
  rw [← readVersion_eq_ok_iff, ← readNames_eq_ok_iff, ← readNames_eq_ok_iff,
    ← readAliases_eq_ok_iff, ofTable]
  cases readVersion t with
  | error e => simp [bind, Except.bind]
  | ok version =>
    cases readNames t "whitelist" with
    | error e => simp [bind, Except.bind]
    | ok white =>
      cases readNames t "blacklist" with
      | error e => simp [bind, Except.bind]
      | ok black =>
        cases readAliases t with
        | error e => simp [bind, Except.bind]
        | ok aliases =>
          obtain ⟨white', black', aliases', version'⟩ := c
          simp only [bind, Except.bind, pure, Except.pure, Except.ok.injEq, mk.injEq]
          tauto

/-! ## Documents that can be read -/

theorem exists_versionOf_iff {found : Option Value} :
    (∃ v, VersionOf found v) ↔ ∀ value, found = some value → IsVersion value := by
  constructor
  · rintro ⟨v, meant⟩ value rfl
    cases meant with
    | flag b => exact .flag b
    | number n old => exact .number n old
  · intro fine
    cases found with
    | none => exact ⟨_, .absent⟩
    | some value =>
      cases fine value rfl with
      | flag b => exact ⟨_, .flag b⟩
      | number n old => exact ⟨_, .number n old⟩

theorem exists_namesOf_iff {found : Option Value} : (∃ names, NamesOf found names) ↔
    ∀ value, found = some value → ∃ names : List String, value = .array (names.map .string) := by
  constructor
  · rintro ⟨names, meant⟩ value rfl
    cases meant with
    | list names => exact ⟨names, rfl⟩
  · intro fine
    cases found with
    | none => exact ⟨_, .absent⟩
    | some value =>
      obtain ⟨names, rfl⟩ := fine value rfl
      exact ⟨_, .list names⟩

theorem exists_aliases_iff {members : Table} :
    (∃ aliases : List (String × List String),
      List.Forall₂ (fun m a => a.1 = m.1 ∧ m.2.StandsFor a.2) members aliases) ↔
      ∀ m ∈ members, ∃ tags, m.2.StandsFor tags := by
  induction members with
  | nil => exact ⟨fun _ => List.forall_mem_nil _, fun _ => ⟨[], .nil⟩⟩
  | cons m members ih =>
    rw [List.forall_mem_cons, ← ih]
    constructor
    · rintro ⟨aliases, each⟩
      obtain ⟨a, aliases, ⟨-, stands⟩, rest, rfl⟩ := List.forall₂_cons_left_iff.1 each
      exact ⟨⟨a.2, stands⟩, aliases, rest⟩
    · rintro ⟨⟨tags, stands⟩, aliases, each⟩
      exact ⟨(m.1, tags) :: aliases, .cons ⟨rfl, stands⟩ each⟩

theorem exists_aliasesOf_iff {found : Option Value} : (∃ aliases, AliasesOf found aliases) ↔
    ∀ value, found = some value →
      ∃ members, value = .table members ∧ ∀ m ∈ members, ∃ tags, m.2.StandsFor tags := by
  constructor
  · rintro ⟨aliases, meant⟩ value rfl
    cases meant with
    | table each => exact ⟨_, rfl, exists_aliases_iff.1 ⟨aliases, each⟩⟩
  · intro fine
    cases found with
    | none => exact ⟨_, .absent⟩
    | some value =>
      obtain ⟨members, rfl, each⟩ := fine value rfl
      obtain ⟨aliases, each⟩ := exists_aliases_iff.2 each
      exact ⟨aliases, .table each⟩

/-- **A document can be read** if and only if it has the shape. -/
theorem exists_ofTable_iff : (∃ c, ofTable t = .ok c) ↔ Shaped t := by
  constructor
  · rintro ⟨c, read⟩
    obtain ⟨version, white, black, aliases⟩ := ofTable_eq_ok_iff.1 read
    exact ⟨exists_versionOf_iff.1 ⟨_, version⟩, exists_namesOf_iff.1 ⟨_, white⟩,
      exists_namesOf_iff.1 ⟨_, black⟩, exists_aliasesOf_iff.1 ⟨_, aliases⟩⟩
  · intro shaped
    obtain ⟨version, first⟩ := exists_versionOf_iff.2 shaped.version
    obtain ⟨white, second⟩ := exists_namesOf_iff.2 shaped.whitelist
    obtain ⟨black, third⟩ := exists_namesOf_iff.2 shaped.blacklist
    obtain ⟨aliases, fourth⟩ := exists_aliasesOf_iff.2 shaped.aliases
    exact ⟨⟨white, black, aliases, version⟩, ofTable_eq_ok_iff.2 ⟨first, second, third, fourth⟩⟩

/-! ## What is read -/

theorem mem_nameSet {name : String} {names : List String} :
    name ∈ nameSet names ↔ name ∈ names := by
  rw [← List.mem_toFinset, toFinset_nameSet, List.mem_toFinset]

theorem string_mem_iff {name : String} {names : List String} :
    Value.string name ∈ names.map Value.string ↔ name ∈ names :=
  List.mem_map_of_injective fun _ _ => Value.string.inj

/-- A name is asked for in a list of a configuration as it is in the list of the document. -/
theorem NamesOf.mem_iff {found : Option Value} {names : Option (List String)}
    (meant : NamesOf found names) (name : String) :
    ((∀ list, names = some list → name ∈ list) ↔
      ∀ items, found = some (.array items) → .string name ∈ items) ∧
    ((∀ list, names = some list → name ∉ list) ↔
      ∀ items, found = some (.array items) → .string name ∉ items) := by
  cases meant with
  | absent => exact ⟨⟨nofun, nofun⟩, nofun, nofun⟩
  | list names =>
    simp only [Option.some.injEq, forall_eq', Value.array.injEq, mem_nameSet, string_mem_iff,
      and_self]

/-- An alias is looked up as its key is in the document. -/
theorem lookup_aliases {members : Table} {aliases : List (String × List String)}
    (each : List.Forall₂ (fun m a => a.1 = m.1 ∧ m.2.StandsFor a.2) members aliases)
    (name : String) :
    (members.get? name = none → aliases.lookup name = none) ∧
      ∀ value, members.get? name = some value →
        ∃ tags, value.StandsFor tags ∧ aliases.lookup name = some tags := by
  induction each with
  | nil =>
    refine ⟨fun _ => rfl, fun value found => ?_⟩
    cases found
  | @cons m a members aliases first _ ih =>
    obtain ⟨own, value⟩ := m
    obtain ⟨own', tags⟩ := a
    obtain ⟨rfl, stands⟩ := first
    rw [Table.get?, List.lookup_cons, List.lookup_cons]
    cases name == own' with
    | true =>
      constructor
      · rintro ⟨⟩
      · rintro _ ⟨⟩
        exact ⟨tags, stands, rfl⟩
    | false => exact ih

/-- **What is read follows the document.** -/
theorem follows_of_ofTable (read : ofTable t = .ok c) : Follows t c := by
  obtain ⟨version, white, black, aliases⟩ := ofTable_eq_ok_iff.1 read
  refine ⟨?_, fun name => ?_, fun members name value found there => ?_, fun name absent => ?_⟩
  · generalize t.get? "version" = found, c.version = v at version
    cases version <;> rfl
  · rw [allows_iff, (white.mem_iff name).1, (black.mem_iff name).2]
  · rw [found] at aliases
    cases aliases with
    | table each =>
      obtain ⟨tags, stands, looked⟩ := (lookup_aliases each name).2 value there
      exact ⟨tags, stands, looked, by rw [expand, alias?, looked]; rfl⟩
  · have none : c.alias? name = none := by
      rw [alias?]
      generalize t.get? "aliases" = found, c.aliases = lists at aliases absent ⊢
      cases aliases with
      | absent => rfl
      | table each => exact (lookup_aliases each name).1 (absent _ rfl)
    exact ⟨none, by rw [expand, none]; rfl⟩

/-! ## Documents that cannot be read -/

theorem readVersion_eq_error_iff : readVersion t = .error e ↔
    ∃ v, t.get? "version" = some v ∧ ¬ IsVersion v ∧ e = versionError v := by
  rw [readVersion]
  -- What the error says does not matter, and the bound on what can be shown is a large number.
  generalize versionError = told, t.get? "version" = found
  constructor
  · intro failed
    split at failed
    next => cases failed
    next => cases failed
    next n =>
      split at failed
      next => cases failed
      next new =>
        cases failed
        refine ⟨_, rfl, ?_, rfl⟩
        rintro ⟨⟩
        contradiction
    next v flag number =>
      cases failed
      refine ⟨v, rfl, ?_, rfl⟩
      rintro (b | ⟨n, -⟩)
      · exact flag b rfl
      · exact number n rfl
  · rintro ⟨v, rfl, wrong, rfl⟩
    split
    next none => cases none
    next b same => cases same; exact absurd (.flag b) wrong
    next n same =>
      cases same
      exact if_neg fun old => wrong (.number n old)
    next v same =>
      cases same
      rfl

theorem readNames_error (failed : readNames t key = .error e) : e = .notStrings key := by
  rw [readNames] at failed
  split at failed
  · cases failed
  · split at failed
    · cases failed
    · cases failed
      rfl

theorem mapM_eq_error {ε α β : Type} {f : α → Except ε β} {xs : List α} {e : ε}
    (failed : xs.mapM f = .error e) : ∃ x ∈ xs, f x = .error e := by
  induction xs with
  | nil => cases failed
  | cons x xs ih =>
    rw [List.mapM_cons] at failed
    cases first : f x with
    | error e' =>
      rw [first] at failed
      cases failed
      exact ⟨x, List.mem_cons_self, first⟩
    | ok y =>
      cases later : xs.mapM f with
      | error e' =>
        rw [first, later] at failed
        cases failed
        obtain ⟨x, there, failed⟩ := ih later
        exact ⟨x, List.mem_cons_of_mem _ there, failed⟩
      | ok ys =>
        rw [first, later] at failed
        cases failed

theorem readAliases_error (failed : readAliases t = .error e) : e ≠ .versionTooLarge := by
  rw [readAliases] at failed
  split at failed
  · cases failed
  · obtain ⟨⟨name, value⟩, -, failed⟩ := mapM_eq_error failed
    have failed : readAlias name value = .error e := failed
    rw [readAlias.eq_def] at failed
    split at failed
    · cases failed
    · split at failed
      · cases failed
      · cases failed
        rintro ⟨⟩
  · cases failed
    rintro ⟨⟩

theorem ofTable_error (failed : ofTable t = .error e) :
    readVersion t = .error e ∨ e ≠ .versionTooLarge := by
  rw [ofTable] at failed
  cases version : readVersion t with
  | error e' =>
    rw [version] at failed
    cases failed
    exact .inl rfl
  | ok v =>
    right
    rw [version] at failed
    cases white : readNames t "whitelist" with
    | error e' =>
      rw [white] at failed
      cases failed
      rw [readNames_error white]
      rintro ⟨⟩
    | ok w =>
      rw [white] at failed
      cases black : readNames t "blacklist" with
      | error e' =>
        rw [black] at failed
        cases failed
        rw [readNames_error black]
        rintro ⟨⟩
      | ok b =>
        rw [black] at failed
        cases aliases : readAliases t with
        | error e' =>
          rw [aliases] at failed
          cases failed
          exact readAliases_error aliases
        | ok a =>
          rw [aliases] at failed
          cases failed

/-- **Too large a version** is the one fault that is not told as one of the configuration. -/
theorem ofTable_eq_versionTooLarge_iff : ofTable t = .error .versionTooLarge ↔
    ∃ v, t.get? "version" = some v ∧ ¬ IsVersion v ∧ v.isDisplayable = false := by
  have shown {v : Value} : .versionTooLarge = versionError v ↔ v.isDisplayable = false := by
    rw [versionError]
    split <;> simp_all
  constructor
  · intro failed
    rcases ofTable_error failed with failed | other
    · obtain ⟨v, found, wrong, large⟩ := readVersion_eq_error_iff.1 failed
      exact ⟨v, found, wrong, shown.1 large⟩
    · exact absurd rfl other
  · rintro ⟨v, found, wrong, large⟩
    have failed := readVersion_eq_error_iff.2 ⟨v, found, wrong, shown.2 large⟩
    rw [ofTable, failed]
    rfl

end Config

/-! ## Files -/

section
variable {d : Disk} {dir : Path} {inode : Inode} {mode : Nat} {data : ByteArray} {text : String}
  {t : Table}

open Config

theorem loadConfig_of_parse
    (there : d.stat (dir.child configName) = .ok (.file inode (.bytes data) mode))
    (decoded : String.fromUTF8? data = some text) (parsed : Toml.parse text.toList = .ok t) :
    loadConfig d dir = (ofTable t).mapError (.ofConfig (dir.child configName)) := by
  rw [loadConfig_of_stat there, ofContent, decoded]
  simp only [parsed]

/-- **Which documents are configurations.**  Where the file of a directory holds a document, its
    configuration can be loaded if and only if the document has the shape, and what is loaded
    follows it.  Any other document gives an error of the configuration, save one: a version that
    is none and holds an integer too long to be shown gives the error of such an integer. -/
theorem loadConfig_document
    (there : d.stat (dir.child configName) = .ok (.file inode (.bytes data) mode))
    (decoded : String.fromUTF8? data = some text) (parsed : Toml.parse text.toList = .ok t) :
    ((∃ c, loadConfig d dir = .ok c) ↔ Shaped t) ∧
    (∀ c, loadConfig d dir = .ok c → Follows t c) ∧
    (∀ e, loadConfig d dir = .error e →
      (∃ fault, e = .config (dir.child configName) fault) ∨ e = .numeral .tooLarge) ∧
    (loadConfig d dir = .error (.numeral .tooLarge) ↔
      ∃ v, t.get? "version" = some v ∧ ¬ IsVersion v ∧ v.isDisplayable = false) := by
  rw [loadConfig_of_parse there decoded parsed, ← exists_ofTable_iff,
    ← ofTable_eq_versionTooLarge_iff]
  cases read : ofTable t with
  | ok c =>
    refine ⟨⟨fun _ => ⟨c, rfl⟩, fun _ => ⟨c, rfl⟩⟩, ?_, nofun, nofun, nofun⟩
    rintro _ ⟨⟩
    exact follows_of_ofTable read
  | error fault =>
    refine ⟨⟨nofun, nofun⟩, nofun, ?_, ?_⟩
    · rintro _ ⟨⟩
      cases fault with
      | versionTooLarge => exact .inr rfl
      | _ => exact .inl ⟨_, rfl⟩
    · cases fault with
      | versionTooLarge => exact ⟨fun _ => rfl, fun _ => rfl⟩
      | _ => exact ⟨nofun, nofun⟩

end

/-- A disk with a configuration file in the current directory. -/
def diskWithConfig (text : String) : Disk :=
  ⟨.dir [(configName, .file ⟨0⟩ (.ofString text) Disk.publicMode)], ⟨[], 0⟩, ⟨1⟩⟩

theorem stat_diskWithConfig (text : String) :
    (diskWithConfig text).stat (Path.here.child configName) =
      .ok (.file ⟨0⟩ (.bytes text.toUTF8) Disk.publicMode) := rfl

/-- A truth value for the version, a name that is listed twice, and an alias that is one tag. -/
theorem loadConfig_document_sugar :
    let text := "version = true\nwhitelist = ['a', 'a']\n[aliases]\nx = 'y'\n"
    ∃ c t, Toml.parse text.toList = .ok t ∧ Config.Shaped t ∧
      loadConfig (diskWithConfig text) .here = .ok c ∧ Config.Follows t c ∧
      c.alias? "x" = some ["y"] ∧ c.allows "a" = true ∧ c.allows "b" = false := by
  intro text
  let t : Table :=
    [("version", .boolean true), ("whitelist", .array [.string "a", .string "a"]),
      ("aliases", .table [("x", .string "y")])]
  have parsed : Toml.parse text.toList = .ok t := by cbv
  obtain ⟨loads, follows, -⟩ :=
    loadConfig_document (stat_diskWithConfig text) (Config.fromUTF8?_toUTF8 text) parsed
  have loaded : ∃ c, loadConfig (diskWithConfig text) .here = .ok c ∧
      c.alias? "x" = some ["y"] ∧ c.allows "a" = true ∧ c.allows "b" = false := by
    rw [loadConfig_of_parse (stat_diskWithConfig text) (Config.fromUTF8?_toUTF8 text) parsed]
    exact ⟨_, rfl, by decide +kernel, by decide +kernel, by decide +kernel⟩
  obtain ⟨c, loaded, expanded, allowed, refused⟩ := loaded
  exact ⟨c, t, parsed, loads.1 ⟨c, loaded⟩, loaded, follows c loaded, expanded, allowed, refused⟩

/-! ## A version that cannot be shown -/

theorem moreDigits_zeros (k : Nat) (rest : List Char) :
    moreDigits (baseValue? 16) (List.replicate k '0' ++ '\n' :: rest) =
      (List.replicate k 0, '\n' :: rest) := by
  induction k with
  | zero =>
    have none : baseValue? 16 '\n' = none := by decide
    cases rest <;> simp [moreDigits, none]
  | succ k ih =>
    have own : baseValue? 16 '0' = some 0 := by decide
    rw [List.replicate_succ, List.cons_append, moreDigits.eq_def]
    simp only [own, ih]
    rfl

theorem ofDigits_one_zeros (base k : Nat) :
    Text.ofDigits base (1 :: List.replicate k 0) = base ^ k := by
  induction k with
  | zero => simp [Text.ofDigits]
  | succ k ih =>
    rw [List.replicate_succ', ← List.cons_append, Text.ofDigits, List.foldl_append, ← Text.ofDigits,
      ih]
    simp [Nat.pow_succ, Nat.mul_comm]

/-- A one with zeros behind it in base sixteen. -/
theorem writtenFor_zeros (k : Nat) :
    WrittenFor (.integer (16 ^ k : Nat)) ('0' :: 'x' :: '1' :: List.replicate k '0') where
  ne := List.cons_ne_nil _ _
  starts := by rintro c ⟨⟩; decide
  read := fun budget rest enough => by
    obtain ⟨budget, rfl⟩ : ∃ b, budget = b + 1 :=
      Nat.exists_eq_succ_of_ne_zero (by simp only [List.length_cons] at enough; omega)
    have own : baseValue? 16 '1' = some 1 := by decide
    have number : number? ('0' :: 'x' :: '1' :: (List.replicate k '0' ++ '\n' :: rest)) =
        some (.ok (.integer (16 ^ k : Nat)), '\n' :: rest) := by
      simp only [number?, baseInteger?, baseOf?, Option.bind_some, digits?, own, Option.map_some,
        moreDigits_zeros, ofDigits_one_zeros]
    exact value_of_number (by decide) rfl number

/-- **A version that is too large to be shown**, in hexadecimal digits, is not told as an error of
    the configuration. -/
theorem loadConfig_large_version :
    let text := "version = 0x1" ++ String.ofList (List.replicate 3572 '0') ++ "\n"
    Toml.parse text.toList = .ok [("version", .integer (16 ^ 3572 : Nat))] ∧
      loadConfig (diskWithConfig text) .here = .error (.numeral .tooLarge) ∧
      ∀ file fault, loadConfig (diskWithConfig text) .here ≠ .error (.config file fault) := by
  intro text
  have chars : text.toList =
      writeMember "version" ('0' :: 'x' :: '1' :: List.replicate 3572 '0') := by
    simp only [text, String.toList_append, String.toList_ofList]
    rfl
  have parsed : Toml.parse text.toList = .ok [("version", .integer (16 ^ 3572 : Nat))] := by
    have plain : ∀ k, '\r' ∉ '0' :: 'x' :: '1' :: List.replicate k '0' := by simp
    obtain ⟨s, reading, top⟩ := reading_member Scope.atTop_empty rfl (writtenFor_zeros 3572)
    rw [chars, parse_of_reading reading ?_, top.root]
    · rfl
    · exact Config.return_not_mem_writeMember (plain 3572)
  have large : Config.ofTable [("version", .integer (16 ^ 3572 : Nat))] =
      .error .versionTooLarge := by
    refine Config.ofTable_eq_versionTooLarge_iff.2 ⟨_, rfl, ?_, ?_⟩
    · rintro (_ | ⟨_, old⟩)
      exact absurd old (by decide +kernel)
    · decide +kernel
  have failed : loadConfig (diskWithConfig text) .here = .error (.numeral .tooLarge) := by
    rw [loadConfig_of_parse (stat_diskWithConfig text) (Config.fromUTF8?_toUTF8 text) parsed, large]
    rfl
  refine ⟨parsed, failed, fun file fault other => ?_⟩
  rw [failed] at other
  cases other

end FileTags
