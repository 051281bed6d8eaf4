/-
  Templates side by side, and the path that a filled-in template gives.

  * `pieces_eq_append_iff`: after a template that can be read, the next one is read as if it stood
    alone;
  * `fillPieces_template`: of a template as a whole, only its errors speak;
  * `fill_append`: two templates side by side are filled in by what they are filled in by alone;
  * `Path.isAbsolute_ofString`: a text is an absolute path if it starts with a slash;
  * `renamedPath_begins`: the new path of a file begins with its directory unless the filled-in
    template starts with a slash.
-/
import FileTags.Proofs.Template.Plain
import FileTags.Proofs.Order

namespace FileTags

namespace Template

variable {r : Record} {template template' t₁ t₂ o₁ out : String} {cs ds chars : List Char}
  {ps qs : List Piece}

/-! ## Side by side -/

/-- **After a template that can be read**, the next one is read as if it stood alone. -/
theorem pieces_eq_append_iff (read : pieces cs = .ok ps) :
    pieces (cs ++ ds) = .ok qs ↔ ∃ rest, pieces ds = .ok rest ∧ qs = ps ++ rest := by
  constructor
  · intro both
    rw [pieces_eq_ok_iff] at read both
    rw [scan_append, read] at both
    cases second : scan .text ds with
    | error e => simp [second] at both
    | ok back =>
      obtain ⟨rest, last⟩ := back
      simp only [second, Except.ok.injEq, Prod.mk.injEq] at both
      obtain ⟨rfl, rfl⟩ := both
      exact ⟨rest, pieces_eq_ok_iff.2 second, rfl⟩
  · rintro ⟨rest, second, rfl⟩
    exact pieces_append read second

theorem fillPlaceholder_template {p : Placeholder}
    (filled : fillPlaceholder template r p = .ok chars) :
    fillPlaceholder template' r p = .ok chars := by
  rw [fillPlaceholder] at *
  split at filled
  · cases filled
  · next named => rwa [if_neg named]

/-- The text of a template shows in its errors alone. -/
theorem fillPieces_template (filled : fillPieces template r ps = .ok chars) :
    fillPieces template' r ps = .ok chars := by
  induction ps generalizing chars with
  | nil => exact filled
  | cons p ps ih =>
    cases p with
    | char c =>
      rw [fillPieces] at *
      cases rest : fillPieces template r ps with
      | error e => simp [rest, Except.map] at filled
      | ok out => rw [ih rest, ← rest, filled]
    | placeholder p =>
      rw [fillPieces] at *
      cases first : fillPlaceholder template r p with
      | error e => simp [first] at filled
      | ok front =>
        cases rest : fillPieces template r ps with
        | error e => simp [first, rest, Except.map] at filled
        | ok out =>
          rw [fillPlaceholder_template first, ih rest]
          simpa only [first, rest] using filled

theorem fill_eq_ok_iff :
    fill r template = .ok out ↔
      ∃ ps, pieces template.toList = .ok ps ∧ fillPieces template r ps = .ok out.toList := by
  rw [fill]
  cases pieces template.toList with
  | error e => simp
  | ok ps =>
    simp only [Except.ok.injEq, exists_eq_left']
    cases fillPieces template r ps with
    | error e => simp [Except.map]
    | ok chars => simp [Except.map, ← String.toList_inj]

/-- **Filling in distributes over putting side by side.**  After a template that is filled in, the
    next one is filled in as if it stood alone, and the results stand side by side. -/
theorem fill_append (filled : fill r t₁ = .ok o₁) :
    fill r (t₁ ++ t₂) = .ok out ↔ ∃ o₂, fill r t₂ = .ok o₂ ∧ out = o₁ ++ o₂ := by
  obtain ⟨ps, read, first⟩ := fill_eq_ok_iff.1 filled
  have first' : fillPieces (t₁ ++ t₂) r ps = .ok o₁.toList := fillPieces_template first
  simp only [fill_eq_ok_iff, String.toList_append, pieces_eq_append_iff read]
  constructor
  · rintro ⟨_, ⟨rest, second, rfl⟩, both⟩
    rw [fillPieces_append, first'] at both
    cases filled₂ : fillPieces (t₁ ++ t₂) r rest with
    | error e => simp [filled₂, Except.bind, Except.map] at both
    | ok chars =>
      simp only [filled₂, Except.bind, Except.map, Except.ok.injEq] at both
      refine ⟨String.ofList chars, ⟨rest, second, ?_⟩, ?_⟩
      · rw [String.toList_ofList]
        exact fillPieces_template filled₂
      · rw [← String.toList_inj, ← both, String.toList_append, String.toList_ofList]
  · rintro ⟨o₂, ⟨rest, second, filled₂⟩, rfl⟩
    have filled₂' : fillPieces (t₁ ++ t₂) r rest = .ok o₂.toList := fillPieces_template filled₂
    refine ⟨ps ++ rest, ⟨rest, second, rfl⟩, ?_⟩
    rw [fillPieces_append, first', filled₂', String.toList_append]
    rfl

/-- An escape at the seam, a closing brace in the brackets of a name, a conversion and a
    specification. -/
theorem fill_append_braces :
    let r : Record := ⟨.here, [], [("k[\x7d]", "v w"), ("n", "7")]⟩
    fill r ("\x7b\x7b\x7bk[\x7d]!r:>8\x7d" ++ "\x7d\x7d\x7bn:03d\x7d") =
      .ok "\x7b   'v w'\x7d007" := by
  intro r
  have first : fill r "\x7b\x7b\x7bk[\x7d]!r:>8\x7d" = .ok "\x7b   'v w'" := by decide +kernel
  have second : fill r "\x7d\x7d\x7bn:03d\x7d" = .ok "\x7d007" := by decide +kernel
  exact (fill_append first).2 ⟨_, second, rfl⟩

end Template

/-! ## New paths -/

namespace Path

variable {p q : Path} {s : String}

theorem isAbsolute_ofString : (ofString s).isAbsolute = true ↔ s.toList.head? = some '/' := by
  rw [ofString, ofChars, isAbsolute]
  cases s.toList with
  | nil => decide
  | cons c cs =>
    rw [List.head?_cons, Option.some_inj, bne_iff_ne, anchorOf, List.takeWhile_cons]
    by_cases slash : c = '/'
    · -- No number of slashes but none stands for the relative anchor.
      simp only [slash, beq_self_eq_true, if_true, iff_true]
      split <;> simp_all
    · simp [slash]

/-- A relative path seen from another one has the components of both. -/
theorem parts_join (relative : q.isAbsolute = false) : (p.join q).parts = p.parts ++ q.parts := by
  obtain ⟨anchor, names⟩ := q
  obtain rfl : anchor = .relative := by simpa [isAbsolute] using relative
  rw [join_relative, parts_of_relative (p := ⟨.relative, names⟩) rfl, parts, parts,
    List.map_append, List.append_assoc]
  rfl

end Path

namespace Template

variable {r : Record} {template name : String} {c : Char} {cs : List Char}

/-- A character at the start of a template stands there for itself, unless it is a brace. -/
theorem head?_fill (starts : template.toList = c :: cs) (plain : c ∉ ['{', '}'])
    (filled : fill r template = .ok name) : name.toList.head? = some c := by
  obtain ⟨ps, read, chars⟩ := fill_eq_ok_iff.1 filled
  have own : pieces [c] = .ok [.char c] := by
    have alone := pieces_doubled c
    rwa [doubled, if_neg (by simpa using plain)] at alone
  rw [starts, ← List.singleton_append, pieces_eq_append_iff own] at read
  obtain ⟨rest, -, rfl⟩ := read
  rw [List.singleton_append, fillPieces] at chars
  cases later : fillPieces template r rest with
  | error e => simp [later, Except.map] at chars
  | ok out =>
    simp only [later, Except.map, Except.ok.injEq] at chars
    rw [← chars, List.head?_cons]

/-- **The new path of a file begins with its directory** unless the filled-in template starts with
    a slash; then it is the path that the filled-in template denotes, wherever that leads.  A
    template that starts with a character of its own, neither a slash nor a brace, keeps every file
    in its directory, whatever its attributes are. -/
theorem renamedPath_begins (current : Path) (filled : fill r template = .ok name) :
    ∃ p, renamedPath current r template = .ok p ∧
      (name.toList.head? ≠ some '/' →
        p.parts = current.parent.parts ++ (Path.ofString name).parts) ∧
      (name.toList.head? = some '/' → p = Path.ofString name) ∧
      (current.parent.parts <+: p.parts ↔
        (name.toList.head? = some '/' → current.parent.parts <+: (Path.ofString name).parts)) ∧
      ∀ c cs, template.toList = c :: cs → c ∉ ['/', '{', '}'] →
        current.parent.parts <+: p.parts := by
  have within : name.toList.head? ≠ some '/' →
      (current.parent.join (Path.ofString name)).parts =
        current.parent.parts ++ (Path.ofString name).parts := fun start =>
    Path.parts_join (Bool.eq_false_iff.2 (mt Path.isAbsolute_ofString.1 start))
  have away : name.toList.head? = some '/' →
      current.parent.join (Path.ofString name) = Path.ofString name := fun start =>
    if_pos (Path.isAbsolute_ofString.2 start)
  refine ⟨_, by rw [renamedPath, filled]; rfl, within, away, ?_, fun c cs starts plain => ?_⟩
  · by_cases start : name.toList.head? = some '/'
    · rw [away start, forall_prop_of_true start]
    · rw [within start, forall_prop_of_false start]
      exact iff_of_true (List.prefix_append _ _) trivial
  · simp only [List.mem_cons, List.not_mem_nil, or_false, not_or] at plain
    have first : name.toList.head? = some c := head?_fill starts (by simp [plain]) filled
    rw [within (by simp [first, plain])]
    exact List.prefix_append _ _

/-- A value with steps up and slashes of its own, after a text. -/
theorem renamedPath_begins_steps :
    let r : Record := ⟨.here, [], [("t", "../x//y/.")]⟩
    ∃ p, renamedPath (.ofString "//d/a") r "b{t}" = .ok p ∧
      p.parts = ["//", "d", "b..", "x", "y"] ∧
      (Path.ofString "//d/a").parent.parts <+: p.parts := by
  intro r
  have filled : fill r "b{t}" = .ok "b../x//y/." := by decide +kernel
  obtain ⟨p, renamed, within, -, -, plain⟩ := renamedPath_begins (.ofString "//d/a") filled
  refine ⟨p, renamed, ?_, plain 'b' _ rfl (by decide)⟩
  rw [within (by decide)]
  decide +kernel

/-- A value that starts with a slash takes the file out of its directory. -/
theorem renamedPath_leaves :
    let r : Record := ⟨.here, [], [("t", "/x")]⟩
    fill r "{t}" = .ok "/x" ∧ renamedPath (.ofString "d/a") r "{t}" = .ok (.ofString "/x") ∧
      ¬ (Path.ofString "d/a").parent.parts <+: (Path.ofString "/x").parts := by
  refine ⟨?_, ?_, ?_⟩ <;> decide +kernel

end Template

end FileTags
