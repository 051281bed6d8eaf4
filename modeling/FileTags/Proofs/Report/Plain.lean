/-
  Plain reports are lists of paths.

  * `IsPathLine` says that a line can stand for a path, `IsBlankLine` that it stands for none;
  * `HoldsLines` says that a text is made of some lines: each has one of two ends, the last one
    perhaps none, and blank lines stand wherever they like;
  * `HoldsLines.readPaths`: the paths that are read from such a text are those of its lines;
  * `readPaths_report`: a plain report is read back as the paths that it shows, and so is every
    text that is made of the same lines.
-/
import FileTags.PathList
import FileTags.Report
import Mathlib.Data.List.DropRight

namespace FileTags

open Text

/-! ## Lines with their ends -/

/-- What a line may end with. -/
def lineEnds : List (List Char) := [['\n'], ['\r', '\n']]

/-- A line stands for a path: it is not blank, and does not end in what belongs to its end. -/
structure IsPathLine (line : List Char) : Prop where
  unbroken : '\n' ∉ line
  last : line.getLast? ≠ some '\r'
  visible : ∃ c ∈ line, isBlank c = false

/-- A line is white space alone, and perhaps nothing. -/
structure IsBlankLine (line : List Char) : Prop where
  unbroken : '\n' ∉ line
  blank : ∀ c ∈ line, isBlank c = true

/-- A text is made of some lines in their order, with blank lines before, between and behind. -/
inductive HoldsLines : List (List Char) → List Char → Prop
  | rest {blank} : IsBlankLine blank → HoldsLines [] blank
  | last {line} : HoldsLines [line] line
  | line {line ending lines text} : ending ∈ lineEnds → HoldsLines lines text →
      HoldsLines (line :: lines) (line ++ ending ++ text)
  | blank {blank ending lines text} : IsBlankLine blank → ending ∈ lineEnds →
      HoldsLines lines text → HoldsLines lines (blank ++ ending ++ text)

theorem exists_of_mem_lineEnds {ending : List Char} (among : ending ∈ lineEnds) :
    ∃ front, ending = front ++ ['\n'] ∧ ∀ c ∈ front, c = '\r' := by
  rw [lineEnds, List.mem_cons, List.mem_singleton] at among
  rcases among with rfl | rfl
  · exact ⟨[], rfl, by simp⟩
  · exact ⟨['\r'], rfl, by simp⟩

/-! ## Reading one line -/

section
variable {line ending front text : List Char}

theorem lines_of_unbroken (unbroken : '\n' ∉ line) (ne : line ≠ []) : lines line = [line] := by
  induction line with
  | nil => exact absurd rfl ne
  | cons c cs ih =>
    obtain ⟨other, unbroken⟩ : '\n' ≠ c ∧ '\n' ∉ cs := by simpa using unbroken
    rw [lines, if_neg (Ne.symm other)]
    cases cs with
    | nil => rfl
    | cons c' cs => rw [ih unbroken (by simp)]

theorem lines_of_ended (unbroken : '\n' ∉ line) : lines (line ++ ['\n']) = [line ++ ['\n']] := by
  induction line with
  | nil => rfl
  | cons c cs ih =>
    obtain ⟨other, unbroken⟩ : '\n' ≠ c ∧ '\n' ∉ cs := by simpa using unbroken
    rw [List.cons_append, lines, if_neg (Ne.symm other), ih unbroken]

theorem strip_eq_nil_iff : strip line = [] ↔ ∀ c ∈ line, isBlank c = true := by
  have inner : strip line = [] ↔ ∀ c ∈ line.dropWhile isBlank, isBlank c = true :=
    List.rdropWhile_eq_nil_iff
  rw [inner]
  constructor
  · intro rest c there
    rw [← List.takeWhile_append_dropWhile (p := isBlank) (l := line)] at there
    rcases List.mem_append.1 there with there | there
    · exact List.mem_takeWhile_imp there
    · exact rest c there
  · intro all c there
    exact all c ((List.dropWhile_sublist _).subset there)

theorem linePath?_of_blank (blank : ∀ c ∈ line, isBlank c = true) : linePath? line = none := by
  rw [linePath?, strip_eq_nil_iff.2 blank]
  rfl

/-- The end of a line does not belong to its path. -/
theorem linePath?_of_path (path : IsPathLine line) {ending : List Char}
    (ends : ∀ c ∈ ending, c = '\r' ∨ c = '\n') :
    linePath? (line ++ ending) = some (Path.ofChars line) := by
  obtain ⟨c, there, shown⟩ := path.visible
  have visible : strip (line ++ ending) ≠ [] := by
    intro nothing
    have blank := strip_eq_nil_iff.1 nothing c (List.mem_append_left ending there)
    rw [shown] at blank
    cases blank
  have ne : line ≠ [] := List.ne_nil_of_mem there
  have kept : dropEnd (fun c => c = '\r' || c = '\n') line = line := by
    have unended : ¬ (line.getLast ne = '\r' ∨ line.getLast ne = '\n') := by
      rintro (return_ | feed)
      · exact path.last (by rw [List.getLast?_eq_some_getLast ne, return_])
      · exact path.unbroken (feed ▸ List.getLast_mem ne)
    rw [← List.dropLast_append_getLast ne]
    exact dropEnd_append_of_not (by simpa using unended) _
  rw [linePath?, if_neg (by simpa using visible),
    dropEnd_append_of_all (by simpa using ends), kept]

theorem readPaths_of_unbroken (unbroken : '\n' ∉ line) :
    readPaths line = (linePath? line).toList := by
  by_cases ne : line = []
  · rw [ne]
    decide +kernel
  · rw [readPaths, lines_of_unbroken unbroken ne]
    rfl

/-- A line is read for itself if it is ended. -/
theorem readPaths_line (unbroken : '\n' ∉ line) (among : ending ∈ lineEnds) (text : List Char) :
    readPaths (line ++ ending ++ text) = (linePath? (line ++ ending)).toList ++ readPaths text := by
  obtain ⟨front, rfl, returns⟩ := exists_of_mem_lineEnds among
  have whole : '\n' ∉ line ++ front := by
    rw [List.mem_append, not_or]
    exact ⟨unbroken, fun there => absurd (returns _ there) (by decide)⟩
  have cut : line ++ (front ++ ['\n']) ++ text = (line ++ front) ++ '\n' :: text := by simp
  rw [cut, readPaths_append, readPaths, lines_of_ended whole, List.append_assoc]
  rfl

end

/-! ## Reading many lines -/

/-- **The lines of a text are read**, whatever their ends and whatever blank lines there are. -/
theorem HoldsLines.readPaths {lines : List (List Char)} {text : List Char}
    (holds : HoldsLines lines text) (paths : ∀ line ∈ lines, IsPathLine line) :
    readPaths text = lines.map Path.ofChars := by
  have feeds {ending : List Char} (among : ending ∈ lineEnds) :
      ∀ c ∈ ending, c = '\r' ∨ c = '\n' := by
    obtain ⟨front, rfl, returns⟩ := exists_of_mem_lineEnds among
    intro c there
    rcases List.mem_append.1 there with there | there
    · exact .inl (returns c there)
    · exact .inr (List.mem_singleton.1 there)
  induction holds with
  | rest blank => rw [readPaths_of_unbroken blank.unbroken, linePath?_of_blank blank.blank]; rfl
  | @last line =>
    have path := paths line List.mem_cons_self
    have read : linePath? (line ++ []) = some (Path.ofChars line) :=
      linePath?_of_path path (by simp)
    rw [List.append_nil] at read
    rw [readPaths_of_unbroken path.unbroken, read]
    rfl
  | @line line ending lines text among _ ih =>
    have path := paths line List.mem_cons_self
    rw [readPaths_line path.unbroken among, linePath?_of_path path (feeds among),
      ih fun l there => paths l (List.mem_cons_of_mem line there)]
    rfl
  | @blank blank ending lines text white among _ ih =>
    have none : ∀ c ∈ blank ++ ending, isBlank c = true := by
      intro c there
      rcases List.mem_append.1 there with there | there
      · exact white.blank c there
      · rcases feeds among c there with rfl | rfl <;> decide
    rw [readPaths_line white.unbroken among, linePath?_of_blank none, ih paths]
    rfl

theorem toList_joinLines (texts : List String) :
    (joinLines texts).toList = join ['\n'] (texts.map String.toList) := by
  induction texts with
  | nil => rfl
  | cons text texts ih =>
    cases texts with
    | nil => simp [joinLines, Text.join]
    | cons next texts =>
      rw [joinLines] at ih ⊢
      rw [String.intercalate_cons_cons, String.toList_append, String.toList_append, ih,
        List.map_cons, List.map_cons, List.map_cons, join_cons_cons]
      rfl

/-- Lines with line feeds between them make a text. -/
theorem holdsLines_join (lines : List (List Char)) : HoldsLines lines (Text.join ['\n'] lines) := by
  induction lines with
  | nil => exact .rest ⟨by simp [Text.join], by simp [Text.join]⟩
  | cons line lines ih =>
    cases lines with
    | nil => exact .last
    | cons next lines => exact .line List.mem_cons_self ih

/-- **Plain reports are lists of paths.**  If every path that is shown can stand in a line, a plain
    report is read as those paths, in order; so is every text made of the same lines, with either
    end at each line, with or without an end at the last, and with blank lines anywhere. -/
theorem readPaths_report {root : Option Path} {records : List Record}
    (shown : ∀ r ∈ records, IsPathLine (r.displayPath root).toChars) :
    readPaths (report .plain root records).toList = records.map (·.displayPath root) ∧
      ∀ text, HoldsLines (records.map fun r => (r.displayPath root).toChars) text →
        readPaths text = records.map (·.displayPath root) := by
  have each : ∀ text, HoldsLines (records.map fun r => (r.displayPath root).toChars) text →
      readPaths text = records.map (·.displayPath root) := by
    intro text holds
    rw [holds.readPaths (by simpa using shown), List.map_map]
    exact List.map_congr_left fun r _ => Path.ofChars_toChars _
  have written : (report .plain root records).toList =
      Text.join ['\n'] (records.map fun r => (r.displayPath root).toChars) := by
    rw [report, toList_joinLines, List.map_map]
    congr 1
    exact List.map_congr_left fun r _ => String.toList_ofList
  exact ⟨each _ (written ▸ holdsLines_join _), each⟩

/-- Blanks and carriage returns inside a path come back, whatever stands around the line. -/
theorem readPaths_report_awkward :
    let root := Path.ofString "/r"
    let records : List Record := [{ path := .ofString " a\rb " }, { path := .ofString "c" }]
    readPaths (report .plain (some root) records).toList = records.map (·.displayPath root) ∧
      readPaths " \t\r\n/r/ a\rb \r\n\n/r/c\n\u0085".toList =
        records.map (·.displayPath root) := by
  intro root records
  have shown : ∀ r ∈ records, IsPathLine (r.displayPath root).toChars := by
    intro r there
    have among : r = { path := .ofString " a\rb " } ∨ r = { path := .ofString "c" } := by
      simpa [records] using there
    rcases among with rfl | rfl <;>
      exact ⟨by decide +kernel, by decide +kernel, '/', by decide +kernel, by decide⟩
  have made : " \t\r\n/r/ a\rb \r\n\n/r/c\n\u0085".toList =
      [' ', '\t'] ++ ['\r', '\n'] ++ ("/r/ a\rb ".toList ++ ['\r', '\n'] ++
        ([] ++ ['\n'] ++ ("/r/c".toList ++ ['\n'] ++ ['\u0085']))) := by
    decide +kernel
  have lines : records.map (fun r => (r.displayPath root).toChars) =
      ["/r/ a\rb ".toList, "/r/c".toList] := by
    decide +kernel
  obtain ⟨plain, other⟩ := readPaths_report shown
  refine ⟨plain, other _ ?_⟩
  rw [made, lines]
  have blank {line : List Char} (unbroken : '\n' ∉ line) (all : line.all isBlank = true) :
      IsBlankLine line := ⟨unbroken, List.all_eq_true.1 all⟩
  exact .blank (blank (by decide) (by decide)) (by decide) (.line (by decide)
    (.blank (blank (by decide) (by decide)) (by decide) (.line (by decide)
      (.rest (blank (by decide) (by decide))))))

end FileTags
