/-
  Templates that cannot be filled in, one by one and in a row of files.

  The user is told about most of them: braces that do not match, a key without a value, a
  specification that does not fit.  Nobody foresaw two: a conversion that is unknown, and a number
  that is out of range for its specification.

  * `Escape` says that a placeholder ends in one of these, `Escapes` that a template does;
  * `fill_escapes_iff`: no other failure of a template is unforeseen;
  * `Work.all_eq_some_iff`: work on files ends at the first error that nobody foresaw;
  * `Task.rename_failures`: renaming goes on after a template that fails, unless it escapes.
-/
import FileTags.Command.Perform
import FileTags.Proofs.Format.Overflow
import FileTags.Proofs.Template.Plain

namespace FileTags

open Text Number Format

/-! ## Values in quotes -/

/-- A text in quotes is no numeral. -/
theorem Number.isNumeric_quotedWith (shown : Char → Bool) (cs : List Char) :
    isNumeric (quotedWith shown cs) = false := by
  have mark : quoteMark cs = '"' ∨ quoteMark cs = '\'' := by
    rw [quoteMark]
    split
    · exact .inl rfl
    · exact .inr rfl
  rw [quotedWith_eq]
  generalize quoteMark cs = m at mark
  have blank : isBlank m = false := by rcases mark with rfl | rfl <;> decide
  have sign : (m = '+' || m = '-') = false := by rcases mark with rfl | rfl <;> decide
  have digit : isDigit m = false := by rcases mark with rfl | rfl <;> decide +kernel
  generalize cs.flatMap (escapeChar shown m) = body
  have stripped : strip (m :: body ++ [m]) = m :: body ++ [m] := by
    rw [strip, trimStart, List.cons_append, List.dropWhile_cons_of_neg (by simp [blank]), trimEnd,
      ← List.cons_append, dropEnd_append_of_not blank]
  rw [isNumeric, stripped, List.cons_append, List.dropWhile_cons_of_neg (by simpa using sign)]
  simp [digit]

namespace Template

variable {template : String} {r : Record} {p : Placeholder} {e : TemplateError} {ps : List Piece}
  {value : String}

/-! ## Placeholders -/

/-- A placeholder ends in an error that nobody foresaw. -/
inductive Escape (r : Record) (p : Placeholder) : TemplateError → Prop where
  | conversion {value : String} {c : Char} (named : p.name ≠ [])
      (least : IsLeast {v | (String.ofList p.name, v) ∈ r.attributes} value)
      (asked : p.conversion = some c) (unknown : c ∉ ['s', 'r', 'a']) :
      Escape r p (.unknownConversion c)
  | overflow {value : String} {s : Spec} {n : Int} {cause : Overflow} (named : p.name ≠ [])
      (least : IsLeast {v | (String.ofList p.name, v) ∈ r.attributes} value)
      (plain : p.conversion = none ∨ p.conversion = some 's')
      (numeric : isNumeric value.toList) (read : readInteger value.toList = .ok n)
      (parsed : Spec.parse .integer p.spec = .ok s) (range : OutOfRange s n cause) :
      Escape r p (.overflow cause)

theorem convert_eq_error_iff {conversion : Option Char} :
    convert conversion value = .error e ↔
      ∃ c, conversion = some c ∧ c ∉ ['s', 'r', 'a'] ∧ e = .unknownConversion c := by
  unfold convert
  split
  · simp
  · simp
  · simp
  · simp
  next c s r a =>
    have unknown : c ∉ ['s', 'r', 'a'] := by simpa using ⟨s, r, a⟩
    constructor
    · rintro ⟨⟩
      exact ⟨c, rfl, unknown, rfl⟩
    · rintro ⟨_, ⟨⟩, -, rfl⟩
      rfl

theorem present_escapes_iff {name : String} {spec : List Char} :
    present name value spec = .error e ∧ (Error.template e).isExpected = false ↔
      ∃ cause, formatField spec value.toList = .error (.overflow cause) ∧ e = .overflow cause := by
  rw [present]
  rcases formatField spec value.toList with (fault | cause) | out
  · constructor
    · rintro ⟨⟨⟩, unforeseen⟩
      cases unforeseen
    · rintro ⟨_, ⟨⟩, -⟩
  · simp only [Except.error.injEq, Failure.overflow.injEq, exists_eq_left']
    constructor
    · exact fun ⟨same, _⟩ => same.symm
    · rintro rfl
      exact ⟨rfl, rfl⟩
  · simp

/-- What is converted and still a numeral is not put in quotes. -/
theorem convert_of_numeric {conversion : Option Char} {shown : String}
    (converted : convert conversion value = .ok shown) (numeric : isNumeric shown.toList) :
    shown = value ∧ (conversion = none ∨ conversion = some 's') := by
  have quotes : ∀ f : Char → Bool, isNumeric (String.ofList (quotedWith f value.toList)).toList =
      false := fun f => by rw [String.toList_ofList, isNumeric_quotedWith]
  unfold convert at converted
  split at converted <;> cases converted
  · exact ⟨rfl, .inl rfl⟩
  · exact ⟨rfl, .inr rfl⟩
  · cases (quotes isPrintable).symm.trans numeric
  · cases (quotes isPrintableAscii).symm.trans numeric

theorem fillPlaceholder_of_value (named : p.name ≠ [])
    (least : IsLeast {v | (String.ofList p.name, v) ∈ r.attributes} value) :
    fillPlaceholder template r p =
      (convert p.conversion value).bind (present (String.ofList p.name) · p.spec) := by
  simp [fillPlaceholder, named, Record.first?_eq_some_iff.2 least]

theorem fillPlaceholder_escapes_iff :
    fillPlaceholder template r p = .error e ∧ (Error.template e).isExpected = false ↔
      Escape r p e := by
  constructor
  · rintro ⟨failed, unforeseen⟩
    by_cases named : p.name = []
    · rw [fillPlaceholder, named] at failed
      cases failed
      cases unforeseen
    cases first : r.first? (String.ofList p.name) with
    | none =>
      simp only [fillPlaceholder, List.isEmpty_iff, named, if_false, first] at failed
      cases failed
      cases unforeseen
    | some value =>
      have least := Record.first?_eq_some_iff.1 first
      rw [fillPlaceholder_of_value named least] at failed
      cases converted : convert p.conversion value with
      | error e' =>
        rw [converted] at failed
        cases failed
        obtain ⟨c, asked, unknown, rfl⟩ := convert_eq_error_iff.1 converted
        exact .conversion named least asked unknown
      | ok shown =>
        rw [converted] at failed
        obtain ⟨cause, overflows, rfl⟩ := present_escapes_iff.1 ⟨failed, unforeseen⟩
        obtain ⟨s, n, numeric, read, parsed, range⟩ := formatField_overflow_iff.1 overflows
        obtain ⟨rfl, plain⟩ := convert_of_numeric converted numeric
        exact .overflow named least plain numeric read parsed range
  · rintro (⟨named, least, asked, unknown⟩ |
      ⟨named, least, plain, numeric, read, parsed, range⟩)
    · rw [fillPlaceholder_of_value named least,
        convert_eq_error_iff.2 ⟨_, asked, unknown, rfl⟩]
      exact ⟨rfl, rfl⟩
    · have converted : ∀ v, convert p.conversion v = .ok v := fun v => by
        rcases plain with plain | plain <;> rw [plain] <;> rfl
      rw [fillPlaceholder_of_value named least, converted]
      exact present_escapes_iff.2
        ⟨_, formatField_overflow_iff.2 ⟨_, _, numeric, read, parsed, range⟩, rfl⟩

/-! ## Templates -/

theorem map_eq_error_iff {α β : Type} {f : α → β} {x : Except TemplateError α} :
    x.map f = .error e ↔ x = .error e := by
  cases x <;> simp [Except.map]

/-- Some pieces fail where the first placeholder of them does. -/
theorem fillPieces_eq_error_iff :
    fillPieces template r ps = .error e ↔
      ∃ before p after out, ps = before ++ .placeholder p :: after ∧
        fillPieces template r before = .ok out ∧ fillPlaceholder template r p = .error e := by
  constructor
  · intro failed
    induction ps with
    | nil => cases failed
    | cons piece ps ih =>
      -- What fails is the piece itself, or else one of those after it.
      have own : (∃ p, piece = .placeholder p ∧ fillPlaceholder template r p = .error e) ∨
          (∃ out, fillPieces template r [piece] = .ok out) ∧
            fillPieces template r ps = .error e := by
        cases piece with
        | char c =>
          rw [fillPieces, map_eq_error_iff] at failed
          exact .inr ⟨⟨[c], rfl⟩, failed⟩
        | placeholder p =>
          cases first : fillPlaceholder template r p with
          | error e' =>
            simp only [fillPieces, first] at failed
            exact .inl ⟨p, rfl, first.trans failed⟩
          | ok front =>
            simp only [fillPieces, first, map_eq_error_iff] at failed
            exact .inr ⟨⟨front ++ [], by simp only [fillPieces, first]; rfl⟩, failed⟩
      rcases own with ⟨p, rfl, first⟩ | ⟨⟨front, first⟩, failed⟩
      · exact ⟨[], p, ps, [], rfl, rfl, first⟩
      · obtain ⟨before, p, after, out, rfl, filled, failed⟩ := ih failed
        refine ⟨piece :: before, p, after, front ++ out, rfl, ?_, failed⟩
        rw [← List.singleton_append, fillPieces_append, first, filled]
        rfl
  · rintro ⟨before, p, after, out, rfl, filled, failed⟩
    rw [fillPieces_append, filled, fillPieces, failed]
    rfl

/-- A template ends in an error that nobody foresaw: the placeholders before one can be filled in,
    and that one does. -/
def Escapes (r : Record) (template : String) (e : TemplateError) : Prop :=
  ∃ before p after out, pieces template.toList = .ok (before ++ .placeholder p :: after) ∧
    fillPieces template r before = .ok out ∧ Escape r p e

theorem fill_escapes_iff :
    fill r template = .error e ∧ (Error.template e).isExpected = false ↔ Escapes r template e := by
  rw [fill, Escapes]
  cases read : pieces template.toList with
  | error error =>
    constructor
    · rintro ⟨⟨⟩, unforeseen⟩
      cases unforeseen
    · rintro ⟨_, _, _, _, ⟨⟩, -⟩
  | ok ps =>
    simp only [map_eq_error_iff, fillPieces_eq_error_iff, Except.ok.injEq]
    constructor
    · rintro ⟨⟨before, p, after, out, rfl, filled, failed⟩, unforeseen⟩
      exact ⟨before, p, after, out, rfl, filled,
        fillPlaceholder_escapes_iff.1 ⟨failed, unforeseen⟩⟩
    · rintro ⟨before, p, after, out, rfl, filled, escape⟩
      obtain ⟨failed, unforeseen⟩ := fillPlaceholder_escapes_iff.2 escape
      exact ⟨⟨before, p, after, out, rfl, filled, failed⟩, unforeseen⟩

end Template

/-! ## Work on files -/

namespace Work

variable {α : Type} {clock : Clock} {debug : Bool} {task : Task α} {w w' : Work α}
  {file : Path} {files : List Path} {e : Error}

/-- **Work on files ends** at the first file with an error that nobody foresaw. -/
theorem all_eq_some_iff :
    w.all clock debug task files = (w', some e) ↔
      ∃ done file todo w₁, files = done ++ file :: todo ∧
        w.all clock debug task done = (w₁, none) ∧
        w₁.one clock debug task file = (w', some e) ∧ e.isExpected = false := by
  constructor
  · intro ended
    induction files generalizing w with
    | nil => cases ended
    | cons file files ih =>
      rw [all] at ended
      rcases first : w.one clock debug task file with ⟨next, _ | e'⟩
      · simp only [first] at ended
        obtain ⟨done, last, todo, w₁, rfl, before, failed⟩ := ih ended
        refine ⟨file :: done, last, todo, w₁, rfl, ?_, failed⟩
        simp only [all, first, before]
      · simp only [first] at ended
        split at ended
        next told =>
          obtain ⟨done, last, todo, w₁, rfl, before, failed⟩ := ih ended
          refine ⟨file :: done, last, todo, w₁, rfl, ?_, failed⟩
          simp only [all, first, told, if_true, before]
        next untold =>
          cases ended
          exact ⟨[], file, files, w, rfl, rfl, first, by simpa using untold⟩
  · rintro ⟨done, file, todo, w₁, rfl, before, failed, untold⟩
    induction done generalizing w with
    | nil =>
      cases before
      simp only [List.nil_append, all, failed, untold, Bool.false_eq_true, if_false]
    | cons first done ih =>
      rw [all] at before
      rw [List.cons_append, all]
      split at before
      next => simp only [ih before]
      next =>
        split at before
        next told => simp only [told, if_true, ih before]
        next => cases before

/-- The work after a file that has been left alone. -/
def passed (clock : Clock) (debug : Bool) (w : Work α) : Work α :=
  let (disk, saved) := w.db.save w.disk clock.plain
  ⟨disk, saved, w.answers, w.notices ++ w.db.notices debug⟩

end Work

namespace Task

variable {d d' : Disk} {db db' : Database} {file source new : Path} {template : String}
  {e : TemplateError}

theorem relativePath_ne_template {root : Path} :
    relativePath d root file ≠ .error (.template e) := by
  unfold relativePath
  split
  · simp
  · simp
  · split <;> simp

theorem moveTarget_ne_template : Database.moveTarget d new ≠ .error (.template e) := by
  rw [Database.moveTarget]
  split
  next fault _ =>
    rcases fault with fault | path
    · cases fault <;> simp [Error.ofResolve, Error.ofDisk]
    · simp [Error.ofResolve]
  · simp

theorem info_ne_template : db.info d file ≠ .error (.template e) := by
  rw [Database.info]
  split
  next other relative =>
    rintro ⟨⟩
    exact relativePath_ne_template relative
  next known _ => cases db.index.get known <;> simp [Except.mapError]

theorem movePlan_ne_template : db.movePlan d source new ≠ .error (.template e) := by
  rw [Database.movePlan]
  split
  next other relative =>
    rintro ⟨⟩
    exact relativePath_ne_template relative
  split
  · simp
  split
  next other target =>
    rintro ⟨⟩
    exact moveTarget_ne_template target
  split <;> simp

theorem refusal_ne_template {old known : Path} :
    db.refusal? d old known ≠ some (.template e) := by
  rw [Database.refusal?]
  split
  · simp
  · rw [Ne, storeError?_eq_some_iff]
    simp

theorem move_ne_template {text : String} :
    db.move d text new ≠ (d', .error (.template e), db') := by
  rw [Database.move]
  split
  next other plan =>
    rintro ⟨⟩
    exact movePlan_ne_template plan
  split
  · simp
  · simp
  split
  · simp
  split
  next other refused =>
    rintro ⟨⟩
    exact refusal_ne_template refused
  · simp

/-- Renaming a file fails at its template before it does anything. -/
theorem rename_eq_template_iff :
    rename template d db file = (d', .error (.template e), db') ↔
      (∃ r, db.info d file = .ok r ∧ Template.fill r template = .error e) ∧ d' = d ∧ db' = db := by
  rw [rename]
  cases known : db.info d file with
  | error other =>
    simp only [Prod.mk.injEq, Except.error.injEq, reduceCtorEq, false_and, exists_false, iff_false,
      not_and]
    rintro - rfl
    exact absurd known info_ne_template
  | ok r =>
    simp only [Except.ok.injEq, exists_eq_left', Template.renamedPath]
    cases filled : Template.fill r template with
    | error e' => simp [Except.map, eq_comm, and_comm, and_assoc, and_left_comm]
    | ok name =>
      simp only [Except.map, reduceCtorEq, false_and, iff_false]
      split
      next other moved =>
        rintro ⟨⟩
        exact move_ne_template moved
      · simp

theorem one_eq_template_iff {clock : Clock} {debug : Bool} {w w' : Work (Path × Path)} :
    w.one clock debug (rename template) file = (w', some (.template e)) ↔
      (∃ r, w.db.info w.disk file = .ok r ∧ Template.fill r template = .error e) ∧
        w' = w.passed clock debug := by
  rw [Work.one]
  constructor
  · intro failed
    rcases task : rename template w.disk w.db file with ⟨d, _ | _, db⟩
    next e' =>
      simp only [task, Prod.mk.injEq, Option.some_inj] at failed
      obtain ⟨rfl, rfl⟩ := failed
      obtain ⟨fails, rfl, rfl⟩ := rename_eq_template_iff.1 task
      exact ⟨fails, rfl⟩
    next => simp [task] at failed
  · rintro ⟨fails, rfl⟩
    rw [rename_eq_template_iff.2 ⟨fails, rfl, rfl⟩]
    rfl

/-! ## Two files with numbers -/

/-- The index of a file `big` whose number is just beyond the code points, and a file `small` with
    a letter's. -/
def wideIndex : Index :=
  (Index.empty.add (.ofString "big") (.pair "n" "1114112")).add (.ofString "small") (.pair "n" "99")

/-- The files `big` and `small` on a disk with their database. -/
def wideDisk : Disk :=
  ⟨.dir [(databaseName, .dir [(dataName, .file ⟨0⟩ (.index newestLayout wideIndex) 0)]),
    (⟨"big", by decide⟩, .file ⟨1⟩ .empty 0),
    (⟨"small", by decide⟩, .file ⟨2⟩ .empty 0)], ⟨[], 0⟩, ⟨3⟩⟩

/-- Work on the files. -/
def wideWork : Work (Path × Path) :=
  ⟨wideDisk, ⟨Path.root.child databaseName, {}, wideIndex,
    some ⟨"/.sea-serpent/data.sqlite", (Path.root.child databaseName).child dataName, ⟨0⟩⟩, none, []⟩,
    [], []⟩

/-- The files are renamed to the characters with their numbers. -/
def wideEffect (files : List Path) : Effect :=
  Setup.rename ⟨{}, {}, ⟨"", ""⟩, ""⟩ wideDisk "{n:c}" ⟨files, {}, false⟩

/-! ## Renaming by templates that fail -/

/-- **A template that cannot be filled in** fails with an error that the user is told about, unless
    it escapes. After the former, renaming leaves the file alone and goes on with the next one; it
    ends with a template's error only at a file for which the template escapes. -/
theorem rename_failures (clock : Clock) (debug : Bool) (template : String) :
    (∀ r e, Template.fill r template = .error e ∧ (Error.template e).isExpected = false ↔
      Template.Escapes r template e) ∧
    (∀ (w : Work (Path × Path)) file files r e, w.db.info w.disk file = .ok r →
      Template.fill r template = .error e → ¬ Template.Escapes r template e →
      w.all clock debug (rename template) (file :: files) =
        ((w.passed clock debug).tell (.failure (.template e))).all clock debug (rename template)
          files) ∧
    ∀ (w w' : Work (Path × Path)) files e,
      w.all clock debug (rename template) files = (w', some (.template e)) ↔
        ∃ done file todo w₁ r, files = done ++ file :: todo ∧
          w.all clock debug (rename template) done = (w₁, none) ∧
          w₁.db.info w₁.disk file = .ok r ∧ Template.Escapes r template e ∧
          w' = w₁.passed clock debug := by
  refine ⟨fun r e => Template.fill_escapes_iff, fun w file files r e known failed told => ?_,
    fun w w' files e => ?_⟩
  · have expected : (Error.template e).isExpected = true := by
      by_contra untold
      exact told (Template.fill_escapes_iff.1 ⟨failed, by simpa using untold⟩)
    simp only [Work.all, one_eq_template_iff.2 ⟨⟨r, known, failed⟩, rfl⟩, expected, if_true]
  · rw [Work.all_eq_some_iff]
    constructor
    · rintro ⟨done, file, todo, w₁, same, before, ended, untold⟩
      obtain ⟨⟨r, known, failed⟩, rfl⟩ := one_eq_template_iff.1 ended
      exact ⟨done, file, todo, w₁, r, same, before, known,
        Template.fill_escapes_iff.1 ⟨failed, untold⟩, rfl⟩
    · rintro ⟨done, file, todo, w₁, r, same, before, known, escapes, rfl⟩
      obtain ⟨failed, untold⟩ := Template.fill_escapes_iff.2 escapes
      exact ⟨done, file, todo, w₁, same, before, one_eq_template_iff.2 ⟨⟨r, known, failed⟩, rfl⟩,
        untold⟩

/-- A number that is no code point escapes, and a key without a value does not. -/
theorem rename_failures_numbers :
    Template.Escapes ⟨.ofString "big", [], [("n", "1114112")]⟩ "{n:c}" (.overflow .codePoint) ∧
    wideWork.all ⟨"", ""⟩ false (rename "{m}") [.ofString "big", .ofString "small"] =
      ((wideWork.passed ⟨"", ""⟩ false).tell
        (.failure (.template (.noAttribute (.ofString "big") "m")))).all ⟨"", ""⟩ false
        (rename "{m}") [.ofString "small"] := by
  refine ⟨((rename_failures ⟨"", ""⟩ false "{n:c}").1 _ _).1 ⟨by decide +kernel, rfl⟩,
    (rename_failures ⟨"", ""⟩ false "{m}").2.1 _ _ _ ⟨.ofString "big", [], [("n", "1114112")]⟩ _
      (by decide +kernel) (by decide +kernel) fun escapes => ?_⟩
  cases ((rename_failures ⟨"", ""⟩ false "{m}").1 _ _).2 escapes |>.2

/-- The file `big` ends the renaming, and the file `small` keeps its name although the template can
    be filled in for it. -/
theorem rename_ends_at_number :
    Template.fill ⟨.ofString "big", [], [("n", "1114112")]⟩ "{n:c}" =
      .error (.overflow .codePoint) ∧
    (Error.template (.overflow .codePoint)).isExpected = false ∧
    (wideEffect [.ofString "big", .ofString "small"]).fault =
      some (.template (.overflow .codePoint)) ∧
    (wideEffect [.ofString "big", .ofString "small"]).renamed = [] ∧
    (wideEffect [.ofString "small"]).renamed = [(.ofString "small", .ofString "c")] := by
  refine ⟨?_, rfl, ?_, ?_, ?_⟩ <;> decide +kernel

end Task

end FileTags
