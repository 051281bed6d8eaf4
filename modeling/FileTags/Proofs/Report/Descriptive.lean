/-
  Descriptive reports are unambiguous.

  * `Record.Describable`: what a record is made of stands in lines, and a colon parts a key from
    its value and nothing else;
  * `splitOn_report`: the lines of a report are the lines of its records one after the other, where
    a record has the lines of its path, one line for each attribute and each tag, and an empty one;
  * `filterMap_entryLines`: attributes and tags are read back from their lines;
  * `blocks_injective`: the empty lines tell the records apart;
  * `report_descriptive`: two reports are the same text only if their records are the same.
-/
import FileTags.Proofs.Json.Reports
import FileTags.Proofs.Report.Plain
import FileTags.Tag

namespace FileTags

open Text

/-- The number of line feeds in a path. -/
def Path.feeds (p : Path) : Nat := p.toChars.count '\n'

theorem Path.feeds_eq (p : Path) : p.feeds = (p.names.flatMap (·.text.toList)).count '\n' := by
  rw [feeds, toChars]
  split
  · next same => rw [same]; rfl
  · have anchor : (anchorText p.anchor).count '\n' = 0 := by cases p.anchor <;> rfl
    rw [List.count_append, anchor, count_join (by decide), Nat.zero_add]
    rfl

namespace Record

variable {root : Option Path} {r s : Record}

/-- All that a record is made of stands in a line of its own, and keys and tags have no colon. -/
structure Describable (r : Record) : Prop where
  relative : r.path.isAbsolute = false
  path : '\n' ∉ r.path.toChars
  tags : ∀ tag ∈ r.tags, '\n' ∉ tag.toList ∧ Tag.separator ∉ tag.toList
  keys : ∀ a ∈ r.attributes, '\n' ∉ a.1.toList ∧ Tag.separator ∉ a.1.toList
  values : ∀ a ∈ r.attributes, '\n' ∉ a.2.toList

/-! ## The lines of a record -/

/-- The lines of the path. -/
def pathLines (root : Option Path) (r : Record) : List (List Char) :=
  splitOn '\n' (r.displayPath root).toChars

/-- The line of an attribute. -/
def attributeLine (a : String × String) : List Char :=
  a.1.toList ++ Tag.separator :: ' ' :: a.2.toList

/-- The line of a tag. -/
def tagLine (tag : String) : List Char := '-' :: ' ' :: tag.toList

/-- The lines of the attributes and the tags. -/
def entryLines (r : Record) : List (List Char) :=
  r.sortedAttributes.map attributeLine ++ r.sortedTags.map tagLine

/-- All lines of a record. -/
def blockLines (root : Option Path) (r : Record) : List (List Char) :=
  r.pathLines root ++ (r.entryLines ++ [[]])

theorem mem_sortedAttributes {a : String × String} :
    a ∈ r.sortedAttributes ↔ a ∈ r.attributes := (shown_of none r).perm.mem_iff

theorem mem_sortedTags {tag : String} : tag ∈ r.sortedTags ↔ tag ∈ r.tags :=
  (shown_of none r).mem_tags tag

theorem unbroken_entryLines (fine : r.Describable) {line : List Char}
    (there : line ∈ r.entryLines) : '\n' ∉ line := by
  rcases List.mem_append.1 there with there | there
  · obtain ⟨a, among, rfl⟩ := List.mem_map.1 there
    have among := mem_sortedAttributes.1 among
    have key := (fine.keys a among).1
    have value := fine.values a among
    simp [attributeLine, Tag.separator, key, value]
  · obtain ⟨tag, among, rfl⟩ := List.mem_map.1 there
    have word := (fine.tags tag (mem_sortedTags.1 among)).1
    simp [tagLine, word]

theorem nil_not_mem_entryLines (r : Record) : [] ∉ r.entryLines := by
  intro there
  rcases List.mem_append.1 there with there | there
  · obtain ⟨a, -, empty⟩ := List.mem_map.1 there
    simp [attributeLine] at empty
  · obtain ⟨tag, -, empty⟩ := List.mem_map.1 there
    simp [tagLine] at empty

/-- The description of a record has the lines of its path, and the others as they are. -/
theorem flatMap_descriptionLines (fine : r.Describable) :
    ((r.descriptionLines root).map String.toList).flatMap (splitOn '\n') = r.blockLines root := by
  have whole : ∀ lines : List (List Char), (∀ line ∈ lines, '\n' ∉ line) →
      lines.flatMap (splitOn '\n') = lines := by
    intro lines unbroken
    induction lines with
    | nil => rfl
    | cons line lines ih =>
      rw [List.flatMap_cons, splitOn_of_not_mem (unbroken line List.mem_cons_self),
        ih fun l there => unbroken l (List.mem_cons_of_mem line there)]
      rfl
  have texts : (r.descriptionLines root).map String.toList =
      (r.displayPath root).toChars :: (r.entryLines ++ [[]]) := by
    have pair : ∀ a : String × String, (a.1 ++ ": " ++ a.2).toList = attributeLine a := by
      simp [attributeLine, Tag.separator, String.toList_append]
    have word : ∀ tag : String, ("- " ++ tag).toList = tagLine tag := by
      simp [tagLine, String.toList_append]
    have path : (toString (r.displayPath root)).toList = (r.displayPath root).toChars :=
      String.toList_ofList
    simp [descriptionLines, entryLines, path, Function.comp_def, pair, word]
  rw [texts, List.flatMap_cons, List.flatMap_append, whole _ fun _ => unbroken_entryLines fine]
  rfl

/-- How many lines a path takes is decided by the directory that it is seen from. -/
theorem length_pathLines (fine : r.Describable) :
    (r.pathLines root).length = root.elim 0 Path.feeds + 1 := by
  have own : r.path.feeds = 0 := List.count_eq_zero.2 fine.path
  rw [pathLines, length_splitOn]
  congr 1
  cases root with
  | none => exact own
  | some top =>
    have shown : r.displayPath (some top) = ⟨top.anchor, top.names ++ r.path.names⟩ := by
      rw [displayPath, Option.elim, Path.join, fine.relative]
      rfl
    rw [Path.feeds_eq] at own
    rw [shown, ← Path.feeds, Path.feeds_eq, List.flatMap_append, List.count_append, own,
      Option.elim, Path.feeds_eq, Nat.add_zero]

/-- What is shown of a relative path tells which one it is. -/
theorem displayPath_inj (fine : r.Describable) (fine' : s.Describable) :
    r.displayPath root = s.displayPath root ↔ r.path = s.path := by
  cases root with
  | none => rfl
  | some top =>
    refine ⟨fun same => ?_, fun same => congrArg (top.join ·) same⟩
    have left := Path.relativeTo?_join top r.path fine.relative
    have right := Path.relativeTo?_join top s.path fine'.relative
    have same : top.join r.path = top.join s.path := same
    rw [same, right] at left
    exact (Option.some.inj left).symm

/-! ## Reading the lines -/

/-- The attribute that a line describes. -/
def readAttribute? (line : List Char) : Option (String × String) :=
  (Tag.splitColon? line).map fun (key, value) => (String.ofList key, String.ofList value.tail)

/-- The tag that a line describes. -/
def readTag? (line : List Char) : Option String :=
  if Tag.separator ∈ line then none else some (String.ofList line.tail.tail)

theorem readAttribute?_attributeLine {a : String × String} (free : Tag.separator ∉ a.1.toList) :
    readAttribute? (attributeLine a) = some a := by
  rw [readAttribute?, attributeLine, Tag.splitColon?_append free]
  simp

theorem separator_not_mem_tagLine {tag : String} (free : Tag.separator ∉ tag.toList) :
    Tag.separator ∉ tagLine tag := by
  rw [tagLine, List.mem_cons, List.mem_cons, not_or, not_or]
  exact ⟨by decide, by decide, free⟩

theorem readTag?_tagLine {tag : String} (free : Tag.separator ∉ tag.toList) :
    readTag? (tagLine tag) = some tag := by
  rw [readTag?, if_neg (separator_not_mem_tagLine free)]
  exact congrArg some String.ofList_toList

/-- **Attributes and tags are read back**: only the lines of attributes have a colon. -/
theorem filterMap_entryLines (fine : r.Describable) :
    r.entryLines.filterMap readAttribute? = r.sortedAttributes ∧
      r.entryLines.filterMap readTag? = r.sortedTags := by
  have key {a : String × String} (among : a ∈ r.sortedAttributes) : Tag.separator ∉ a.1.toList :=
    (fine.keys a (mem_sortedAttributes.1 among)).2
  have word {tag : String} (among : tag ∈ r.sortedTags) : Tag.separator ∉ tag.toList :=
    (fine.tags tag (mem_sortedTags.1 among)).2
  have noTag : ∀ line ∈ r.sortedAttributes.map attributeLine, readTag? line = none := by
    intro line there
    obtain ⟨a, -, rfl⟩ := List.mem_map.1 there
    rw [readTag?, if_pos (by simp [attributeLine])]
  have noAttribute : ∀ line ∈ r.sortedTags.map tagLine, readAttribute? line = none := by
    intro line there
    obtain ⟨tag, among, rfl⟩ := List.mem_map.1 there
    rw [readAttribute?, Tag.splitColon?_eq_none_iff.2 (separator_not_mem_tagLine (word among))]
    rfl
  have attributes : (r.sortedAttributes.map attributeLine).filterMap readAttribute? =
      r.sortedAttributes := by
    rw [List.filterMap_map, List.filterMap_congr (g := some), List.filterMap_some]
    exact fun a among => readAttribute?_attributeLine (key among)
  have tags : (r.sortedTags.map tagLine).filterMap readTag? = r.sortedTags := by
    rw [List.filterMap_map, List.filterMap_congr (g := some), List.filterMap_some]
    exact fun tag among => readTag?_tagLine (word among)
  rw [entryLines, List.filterMap_append, List.filterMap_append, attributes, tags,
    List.filterMap_eq_nil_iff.2 noAttribute, List.filterMap_eq_nil_iff.2 noTag, List.append_nil,
    List.nil_append]
  exact ⟨rfl, rfl⟩

/-- Records that agree are described alike. -/
theorem descriptionLines_congr (agree : r.Agree none none s) :
    r.descriptionLines root = s.descriptionLines root := by
  have path : r.displayPath root = s.displayPath root :=
    congrArg (fun p => root.elim p (·.join p)) agree.path
  obtain ⟨-, tags, attributes⟩ := Shown.mk.inj (shown_eq_iff.2 agree)
  rw [descriptionLines, descriptionLines, path, tags, attributes]

/-- Two records agree if their lines do. -/
theorem agree_of_lines (fine : r.Describable) (fine' : s.Describable)
    (paths : r.pathLines root = s.pathLines root) (entries : r.entryLines = s.entryLines) :
    r.Agree none none s := by
  have path : r.path = s.path := by
    have chars : (r.displayPath root).toChars = (s.displayPath root).toChars := by
      rw [← join_splitOn '\n' (r.displayPath root).toChars,
        ← join_splitOn '\n' (s.displayPath root).toChars]
      exact congrArg (Text.join ['\n']) paths
    have same : r.displayPath root = s.displayPath root := by
      rw [← Path.ofChars_toChars (r.displayPath root), chars, Path.ofChars_toChars]
    exact (displayPath_inj fine fine').1 same
  obtain ⟨attributes, tags⟩ := filterMap_entryLines fine
  obtain ⟨attributes', tags'⟩ := filterMap_entryLines fine'
  refine shown_eq_iff.1 ?_
  rw [shown, shown, ← attributes, ← tags, entries, attributes', tags', displayPath, displayPath]
  exact congrArg (Shown.mk · _ _) (congrArg toString path)

end Record

/-! ## The lines of a report -/

section
variable {root : Option Path} {records others : List Record}

open Record

/-- **The lines of a report** are those of its records. -/
theorem splitOn_report (fine : ∀ r ∈ records, r.Describable) (ne : records ≠ []) :
    splitOn '\n' (report .descriptive root records).toList =
      records.flatMap (blockLines root) := by
  have written : (report .descriptive root records).toList = Text.join ['\n']
      (records.map fun r => Text.join ['\n'] ((r.descriptionLines root).map String.toList)) := by
    rw [report, toList_joinLines, List.map_map]
    congr 1
    exact List.map_congr_left fun r _ => toList_joinLines _
  rw [written, splitOn_join_eq_flatMap (by simpa using ne), List.flatMap_map]
  refine List.flatMap_congr fun r there => ?_
  rw [splitOn_join_eq_flatMap (by simp [descriptionLines]), flatMap_descriptionLines (fine r there)]

/-- **The empty lines tell records apart**, behind the lines of each path. -/
theorem blocks_injective (fine : ∀ r ∈ records, r.Describable) (fine' : ∀ s ∈ others, s.Describable)
    (same : records.flatMap (blockLines root) = others.flatMap (blockLines root)) :
    List.Forall₂ (Agree none none) records others := by
  induction records generalizing others with
  | nil =>
    cases others with
    | nil => exact .nil
    | cons s others => simp [blockLines] at same
  | cons r records ih =>
    cases others with
    | nil => simp [blockLines] at same
    | cons s others =>
      have describable := fine r List.mem_cons_self
      have describable' := fine' s List.mem_cons_self
      have cut (r : Record) (rest : List (List Char)) : r.blockLines root ++ rest =
          r.pathLines root ++ (r.entryLines ++ [] :: rest) := by simp [blockLines]
      rw [List.flatMap_cons, List.flatMap_cons, cut, cut] at same
      obtain ⟨paths, same⟩ := List.append_inj same
        ((length_pathLines describable).trans (length_pathLines describable').symm)
      -- The first empty line ends the entries of both.
      have first := congrArg (splitOn []) same
      rw [splitOn_append_cons r.nil_not_mem_entryLines,
        splitOn_append_cons s.nil_not_mem_entryLines] at first
      obtain ⟨entries, -⟩ := List.cons.inj first
      rw [entries, List.append_cancel_left_eq] at same
      exact .cons (agree_of_lines describable describable' paths entries)
        (ih (fun r there => fine r (List.mem_cons_of_mem _ there))
          (fun s there => fine' s (List.mem_cons_of_mem _ there)) (List.cons.inj same).2)

/-- Without records a report is empty, and only then. -/
theorem report_eq_nil (fine : ∀ r ∈ records, r.Describable)
    (empty : (report .descriptive root records).toList = []) : records = [] := by
  by_contra ne
  have cut : splitOn '\n' (report .descriptive root records).toList =
      records.flatMap (blockLines root) := splitOn_report fine ne
  cases records with
  | nil => exact ne rfl
  | cons r records =>
    have length := congrArg List.length cut
    rw [empty, List.flatMap_cons, List.length_append, blockLines, List.length_append,
      length_pathLines (fine r List.mem_cons_self)] at length
    simp [splitOn] at length
    omega

/-- **Descriptive reports are unambiguous.**  Two reports from the same directory are the same text
    if and only if their records agree one by one: in path, in set of tags, and in attributes with
    their multiplicity. -/
theorem report_descriptive (root : Option Path) (fine : ∀ r ∈ records, r.Describable)
    (fine' : ∀ s ∈ others, s.Describable) :
    report .descriptive root records = report .descriptive root others ↔
      List.Forall₂ (Agree none none) records others := by
  constructor
  · intro same
    have same := congrArg String.toList same
    by_cases none : records = []
    · have empty : (report .descriptive root others).toList = [] := by
        rw [← same, none]
        rfl
      rw [none, report_eq_nil fine' empty]
      exact .nil
    by_cases none' : others = []
    · have empty : (report .descriptive root records).toList = [] := by
        rw [same, none']
        rfl
      exact absurd (report_eq_nil fine empty) none
    · have blocks : records.flatMap (blockLines root) = others.flatMap (blockLines root) := by
        rw [← splitOn_report fine none, ← splitOn_report fine' none', same]
      exact blocks_injective fine fine' blocks
  · intro agree
    have lines : records.map (joinLines <| ·.descriptionLines root) =
        others.map (joinLines <| ·.descriptionLines root) := by
      rw [← List.forall₂_eq_eq_eq, List.forall₂_map_left_iff, List.forall₂_map_right_iff]
      exact agree.imp fun _ _ same => congrArg joinLines (descriptionLines_congr same)
    exact congrArg joinLines lines

end

/-- A key that looks like a tag, nothing as key, value and tag, and a directory of two lines: even
    so an attribute that is there twice is told from one that is there once. -/
theorem report_descriptive_twice :
    let root := Path.ofString "/a\nb"
    let r : Record :=
      { path := .ofString "f: g", tags := ["", "- x"],
        attributes := [("- x", "1: 2"), ("", ""), ("- x", "1: 2")] }
    let s : Record := { r with attributes := [("", ""), ("- x", "1: 2")] }
    r.Describable ∧ s.Describable ∧
      report .descriptive (some root) [r] ≠ report .descriptive (some root) [s] := by
  intro root r s
  have fine : r.Describable :=
    ⟨by decide +kernel, by decide +kernel, by decide, by decide, by decide⟩
  have fine' : s.Describable :=
    ⟨by decide +kernel, by decide +kernel, by decide, by decide, by decide⟩
  refine ⟨fine, fine', fun same => ?_⟩
  have agree := (report_descriptive (some root) (by simpa using fine) (by simpa using fine')).1 same
  cases agree with
  | cons first _ =>
    have length := first.attributes.length_eq
    revert length
    decide

end FileTags
