/-
  Configurations are read back as they are written.

  * `nameSet_eq_sort`: the names of a list, each once and in order, are determined by the set of
    them;
  * `Config.parse_render`: the document of a configuration is read as the table `Config.document`;
  * `Config.ofTable_document`: that table holds the configuration, with its lists in order;
  * `Config.render_sorted`: a configuration whose lists are in order has the same document.
-/
import FileTags.Config.Document
import FileTags.Proofs.Order
import FileTags.Proofs.Toml.Tables

namespace FileTags

open Toml

namespace Config

/-! ## Sets of names -/

variable {c : Config} {key : String} {t : Table} {s : Scope}

/-- The names of a list in order are determined by the set of them. -/
theorem nameSet_eq_sort (names : List String) :
    nameSet names = names.toFinset.sort (· ≤ ·) :=
  sortTexts_eraseDups names

theorem toFinset_nameSet (names : List String) : (nameSet names).toFinset = names.toFinset := by
  rw [nameSet_eq_sort, Finset.sort_toFinset]

theorem nameSet_nameSet (names : List String) : nameSet (nameSet names) = nameSet names := by
  rw [nameSet_eq_sort, toFinset_nameSet, ← nameSet_eq_sort]

/-- A configuration with its lists in order. -/
def sorted (c : Config) : Config :=
  { c with whitelist := c.whitelist.map nameSet, blacklist := c.blacklist.map nameSet }

/-! ## Documents -/

/-- The value of a version. -/
def versionValue : Version → Value
  | .number n => .integer n
  | .flag b => .boolean b

/-- The member of a list of names, if it is there. -/
def namesMember (key : String) (names : Option (List String)) : Table :=
  names.elim [] fun names => [(key, .array ((nameSet names).map .string))]

/-- The members of a configuration but its aliases. -/
def members (c : Config) : Table :=
  ("version", versionValue c.version) ::
    (namesMember "whitelist" c.whitelist ++ namesMember "blacklist" c.blacklist)

/-- The table of a configuration. -/
def document (c : Config) : Table :=
  c.members ++
    [("aliases", .table (c.aliases.map fun (name, tags) => (name, .array (tags.map .string))))]

/-- The version of a configuration can be written. -/
def Writable (c : Config) : Prop := ∀ n, c.version = .number n → Number.hasNumeral n = true

theorem length_toDigits_of_hasNumeral {n : Int} (few : Number.hasNumeral n = true) :
    (Nat.toDigits 10 n.natAbs).length ≤ Number.digitLimit := by
  -- The limit is a variable, since the power of it would be multiplied out.
  have reach : ∀ m k, 0 < k → m < Nat.pow 10 k → (Nat.toDigits 10 m).length ≤ k := fun m k pos =>
    (Nat.length_toDigits_le_iff (by decide) pos).2
  exact reach n.natAbs Number.digitLimit (by decide) (of_decide_eq_true few)

theorem writtenFor_version (writable : c.Writable) :
    WrittenFor (versionValue c.version) (writeVersion c.version) := by
  cases version : c.version with
  | number n =>
    exact writtenFor_integer n (length_toDigits_of_hasNumeral (writable n version))
  | flag b => exact writtenFor_boolean b

theorem reading_names (top : s.AtTop t) (absent : t.get? key = none)
    (names : Option (List String)) :
    ∃ s', Reading s (writeNames key names) s' ∧ s'.AtTop (t ++ namesMember key names) := by
  cases names with
  | none => exact ⟨s, reading_nil s, by simpa [namesMember] using top⟩
  | some names => exact reading_member top absent (writtenFor_strings (nameSet names))

theorem get?_namesMember (key other : String) (names : Option (List String)) :
    (namesMember key names).get? other =
      if other = key then names.map fun names => .array ((nameSet names).map .string)
      else none := by
  cases names with
  | none => simp [namesMember, Table.get?]
  | some names =>
    simp only [namesMember, Option.elim_some, Table.get?, List.lookup_cons, List.lookup_nil,
      Option.map_some]
    split <;> split <;> simp_all

theorem get?_members (key : String) :
    c.members.get? key =
      if key = "version" then some (versionValue c.version)
      else if key = "whitelist" then
        c.whitelist.map fun names => .array ((nameSet names).map .string)
      else if key = "blacklist" then
        c.blacklist.map fun names => .array ((nameSet names).map .string)
      else none := by
  rw [members, Table.get?, List.lookup_cons]
  split
  next same => simp_all
  next other =>
    have ne : key ≠ "version" := by simpa using other
    rw [if_neg ne, ← Table.get?, Table.get?_append, get?_namesMember, get?_namesMember]
    split_ifs with white black
    · simp_all
    · simp
    · simp
    · simp

theorem reading_render (writable : c.Writable) (distinct : (c.aliases.map (·.1)).Nodup) :
    ∃ s, Reading .empty c.render.toList s ∧ s.root = c.document := by
  have absent₁ : Table.get? [] "version" = none := rfl
  have absent₂ : Table.get? [("version", versionValue c.version)] "whitelist" = none := by
    simp [Table.get?]
  have absent₃ : Table.get? (("version", versionValue c.version) ::
      namesMember "whitelist" c.whitelist) "blacklist" = none := by
    rw [← List.singleton_append, Table.get?_append, get?_namesMember]
    simp [Table.get?]
  have absent₄ : c.members.get? "aliases" = none := by simp [get?_members]
  obtain ⟨s₁, version, top₁⟩ :=
    reading_member Scope.atTop_empty absent₁ (writtenFor_version writable)
  obtain ⟨s₂, white, top₂⟩ := reading_names top₁ absent₂ c.whitelist
  obtain ⟨s₃, black, top₃⟩ := reading_names top₂ absent₃ c.blacklist
  obtain ⟨s₄, header, inside₄⟩ := reading_header top₃ absent₄
  obtain ⟨s₅, aliases, inside₅⟩ := reading_members inside₄ distinct fun _ _ => rfl
  have reading := ((version.append white).append black).append
    ((reading_lineFeed s₃).append (header.append aliases))
  refine ⟨s₅, ?_, inside₅.root⟩
  rw [render, String.toList_ofList]
  simpa using reading

theorem return_not_mem_writeStrings (items : List String) : '\r' ∉ writeStrings items := by
  cases items with
  | nil => decide
  | cons s items => simp [writeStrings, writeItem, return_not_mem_writeString]

theorem return_not_mem_writeMember {name : String} {cs : List Char} (plain : '\r' ∉ cs) :
    '\r' ∉ writeMember name cs := by
  simp [writeMember, return_not_mem_writeKey, plain]

theorem return_not_mem_writeVersion (v : Version) : '\r' ∉ writeVersion v := by
  cases v with
  | number n =>
    have digits : '\r' ∉ Nat.toDigits 10 n.natAbs := fun there => by
      cases areDigits_toDigits _ _ there
    rw [writeVersion, toList_toString]
    split
    · simpa using digits
    · exact digits
  | flag b => cases b <;> decide

/-- No carriage return is written. -/
theorem return_not_mem_render (c : Config) : '\r' ∉ c.render.toList := by
  have names : ∀ key names, '\r' ∉ writeNames key names := by
    intro key names
    cases names with
    | none => exact List.not_mem_nil
    | some names => exact return_not_mem_writeMember (return_not_mem_writeStrings _)
  have version : '\r' ∉ writeMember "version" (writeVersion c.version) :=
    return_not_mem_writeMember (return_not_mem_writeVersion c.version)
  have header : '\r' ∉ writeHeader "aliases" := by decide
  have aliases :
      '\r' ∉ c.aliases.flatMap fun (name, tags) => writeMember name (writeStrings tags) := by
    intro there
    obtain ⟨⟨name, tags⟩, -, there⟩ := List.mem_flatMap.1 there
    exact return_not_mem_writeMember (return_not_mem_writeStrings tags) there
  rw [render, String.toList_ofList]
  simp only [List.mem_append, List.mem_cons, version, names, header, aliases, or_self,
    Char.reduceEq, not_false_eq_true]

/-- **The document of a configuration is read back.** -/
theorem parse_render (writable : c.Writable) (distinct : (c.aliases.map (·.1)).Nodup) :
    Toml.parse c.render.toList = .ok c.document := by
  obtain ⟨s, reading, root⟩ := reading_render writable distinct
  rw [parse_of_reading reading (return_not_mem_render c), root]

/-! ## Reading -/

theorem get?_document (key : String) (other : key ≠ "aliases") :
    c.document.get? key = c.members.get? key := by
  rw [document, Table.get?_append]
  simp [Table.get?, List.lookup_cons, beq_eq_false_iff_ne.2 other]

theorem get?_aliases : c.document.get? "aliases" =
    some (.table (c.aliases.map fun (name, tags) => (name, .array (tags.map .string)))) :=
  Table.get?_concat_self (by simp [get?_members])

theorem strings?_strings (items : List String) :
    strings? (.array (items.map .string)) = some items := by
  rw [strings?, List.mapM_map]
  induction items with
  | nil => rfl
  | cons s items ih =>
    rw [List.mapM_cons, Function.comp_apply, ih]
    rfl

theorem readNames_document {names : Option (List String)} (t : Table)
    (there : t.get? key = names.map fun names => .array ((nameSet names).map .string)) :
    readNames t key = .ok (names.map nameSet) := by
  rw [readNames, there]
  cases names with
  | none => rfl
  | some names => simp only [Option.map_some, strings?_strings, nameSet_nameSet]

theorem readAliases_document : readAliases c.document = .ok c.aliases := by
  have all : ∀ lists : List (String × List String),
      (lists.map fun list => (list.1, Value.array (list.2.map .string))).mapM
        (fun member => readAlias member.1 member.2) = Except.ok lists := fun lists => by
    induction lists with
    | nil => rfl
    | cons list lists ih =>
      obtain ⟨name, tags⟩ := list
      have first : readAlias name (.array (tags.map .string)) = .ok (name, tags) := by
        simp only [readAlias, strings?_strings]
      rw [List.map_cons, List.mapM_cons, ih]
      simp only [first]
      rfl
  rw [readAliases, get?_aliases]
  exact all c.aliases

/-- **The table of a configuration holds it.** -/
theorem ofTable_document (supported : ∀ n, c.version = .number n → n ≤ Version.newest) :
    ofTable c.document = .ok c.sorted := by
  have version : readVersion c.document = .ok c.version := by
    rw [readVersion, get?_document "version" (by decide), get?_members, if_pos rfl]
    cases version : c.version with
    | number n => simp only [versionValue, if_pos (supported n version)]
    | flag b => rfl
  have white : readNames c.document "whitelist" = .ok (c.whitelist.map nameSet) :=
    readNames_document _ (by rw [get?_document _ (by decide), get?_members]; rfl)
  have black : readNames c.document "blacklist" = .ok (c.blacklist.map nameSet) :=
    readNames_document _ (by rw [get?_document _ (by decide), get?_members]; rfl)
  simp only [ofTable, version, white, black, readAliases_document, bind, Except.bind, pure,
    Except.pure, sorted]

/-- A newer version is not supported. -/
theorem ofTable_newer {n : Int} (newer : Version.newest < n) (version : c.version = .number n)
    (writable : c.Writable) : ofTable c.document = .error (.newerVersion (toString n)) := by
  have refused : readVersion c.document = .error (.newerVersion (toString n)) := by
    rw [readVersion, get?_document "version" (by decide), get?_members, if_pos rfl, version]
    have shown : (Value.integer n).isDisplayable = true := writable n version
    simp only [versionValue, if_neg (Int.not_le.2 newer), versionError, shown, if_true,
      Value.display]
  simp only [ofTable, refused, bind, Except.bind]

theorem render_sorted (c : Config) : c.sorted.render = c.render := by
  have same : ∀ key names, writeNames key (Option.map nameSet names) = writeNames key names := by
    intro key names
    cases names with
    | none => rfl
    | some names => rw [writeNames, Option.map_some, Option.elim_some, nameSet_nameSet]; rfl
  simp only [render, sorted, same]

end Config

end FileTags
