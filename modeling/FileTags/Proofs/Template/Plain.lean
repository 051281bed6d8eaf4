/-
  Templates of texts and plain placeholders.

  A text is written with each of its braces doubled, and a plain placeholder is a key in braces,
  with neither a conversion nor a specification.

  * `Part` is a text or a key, and `written` is the template of some of them;
  * `pieces_written`: such a template is read as what it is written for, whatever stands next to
    what;
  * `fill_written`: each text stands for itself and each key for its least value; the first key
    without a value is what a template fails at.
-/
import FileTags.Template
import FileTags.Proofs.Attributes

namespace FileTags

namespace Template

/-! ## Parts -/

/-- What a plain placeholder can hold: some characters, and none that means something in it. -/
def IsKey (cs : List Char) : Prop := cs ≠ [] ∧ ∀ c ∈ cs, c ∉ ['{', '}', '[', ':', '!']

/-- A key that a plain placeholder can hold. -/
structure Key where
  text : String
  isKey : IsKey text.toList

/-- A text or a plain placeholder. -/
inductive Part where
  | text (s : String)
  | key (k : Key)

/-- A character of a text as it is written in a template. -/
def doubled (c : Char) : List Char := if c = '{' ∨ c = '}' then [c, c] else [c]

/-- A part as it is written in a template. -/
def Part.written : Part → List Char
  | .text s => s.toList.flatMap doubled
  | .key k => '{' :: (k.text.toList ++ ['}'])

/-- The template of some parts. -/
def written (parts : List Part) : String := String.ofList (parts.flatMap Part.written)

/-- The pieces that a part is written for. -/
def Part.pieces : Part → List Piece
  | .text s => s.toList.map .char
  | .key k => [.placeholder ⟨k.text.toList, none, []⟩]

/-! ## Reading -/

theorem pieces_doubled (c : Char) : Template.pieces (doubled c) = .ok [.char c] := by
  rw [doubled]
  split
  · next brace => rcases brace with rfl | rfl <;> rfl
  · next plain =>
    obtain ⟨opening, closing⟩ := not_or.1 plain
    simp [Template.pieces, scan, step, opening, closing, endError?]

theorem pieces_text (cs : List Char) :
    Template.pieces (cs.flatMap doubled) = .ok (cs.map .char) := by
  induction cs with
  | nil => rfl
  | cons c cs ih => exact pieces_append (pieces_doubled c) ih

/-- After an opening brace, what does not start with a second one is a name. -/
theorem scan_opened {c : Char} (first : c ≠ '{') (cs : List Char) :
    scan .opened (c :: cs) = scan (.name []) (c :: cs) := by
  rw [scan, scan, step, if_neg first]
  rfl

/-- The rest of a key is read up to its closing brace. -/
theorem scan_name {cs : List Char} (plain : ∀ c ∈ cs, c ∉ ['{', '}', '[', ':', '!'])
    (read : List Char) : scan (.name read) (cs ++ ['}']) =
      .ok ([finished (cs.reverse ++ read) none []], .text) := by
  induction cs generalizing read with
  | nil => rfl
  | cons c cs ih =>
    have own : step (.name read) c = .ok (none, .name (c :: read)) := by
      have := plain c List.mem_cons_self
      simp only [List.mem_cons, List.not_mem_nil, or_false, not_or] at this
      simp [step, stepName, this]
    rw [List.cons_append, scan, own]
    simp only [ih fun d there => plain d (List.mem_cons_of_mem c there)]
    simp

theorem pieces_key (k : Key) :
    Template.pieces (Part.key k).written = .ok (Part.key k).pieces := by
  obtain ⟨ne, plain⟩ := k.isKey
  obtain ⟨c, cs, chars⟩ := List.exists_cons_of_ne_nil ne
  rw [chars] at plain
  have first : c ≠ '{' := fun e => plain c List.mem_cons_self (by simp [e])
  have start := scan_opened first (cs ++ ['}'])
  have name := scan_name plain []
  rw [List.cons_append] at name
  rw [pieces_eq_ok_iff, Part.written, chars, List.cons_append, scan]
  simp only [step, if_true, start, name]
  simp [Part.pieces, finished, chars]

/-- **A template of texts and plain placeholders is read as what it is written for.** -/
theorem pieces_written (parts : List Part) :
    Template.pieces (written parts).toList = .ok (parts.flatMap Part.pieces) := by
  rw [written, String.toList_ofList]
  induction parts with
  | nil => rfl
  | cons part parts ih =>
    refine pieces_append ?_ ih
    cases part with
    | text s => exact pieces_text s.toList
    | key k => exact pieces_key k

/-- The braces of a text keep apart from the ones of a placeholder. -/
example : Template.pieces "{{{a}}}".toList =
    .ok [.char '{', .placeholder ⟨['a'], none, []⟩, .char '}'] := by decide

/-! ## Filling in -/

variable {template : String} {r : Record}

theorem fillPieces_append (ps qs : List Piece) :
    fillPieces template r (ps ++ qs) =
      (fillPieces template r ps).bind fun out => (fillPieces template r qs).map (out ++ ·) := by
  induction ps with
  | nil =>
    rw [List.nil_append]
    cases fillPieces template r qs <;> rfl
  | cons p ps ih =>
    rw [List.cons_append]
    cases p with
    | char c =>
      rw [fillPieces, fillPieces, ih]
      cases fillPieces template r ps with
      | error e => rfl
      | ok out => cases fillPieces template r qs <;> rfl
    | placeholder p =>
      rw [fillPieces, fillPieces, ih]
      cases fillPlaceholder template r p with
      | error e => rfl
      | ok front =>
        cases fillPieces template r ps with
        | error e => rfl
        | ok out => cases fillPieces template r qs <;> simp [Except.bind, Except.map]

theorem fillPieces_text (cs : List Char) : fillPieces template r (cs.map .char) = .ok cs := by
  induction cs with
  | nil => rfl
  | cons c cs ih =>
    rw [List.map_cons, fillPieces, ih]
    rfl

theorem fillPlaceholder_key (k : Key) :
    fillPlaceholder template r ⟨k.text.toList, none, []⟩ =
      (r.first? k.text).elim (.error (.noAttribute r.path k.text)) (.ok ·.toList) := by
  have named : k.text.toList.isEmpty = false := List.isEmpty_eq_false_iff.2 k.isKey.1
  simp only [fillPlaceholder, named, String.ofList_toList]
  cases r.first? k.text <;> rfl

/-- What a part stands for in a record: a text for itself, a key for its least value. -/
def Part.Stands (r : Record) : Part → String → Prop
  | .text s, out => out = s
  | .key k, out => IsLeast {v | (k.text, v) ∈ r.attributes} out

theorem fillPieces_part {part : Part} {out : String} (stands : part.Stands r out) :
    fillPieces template r part.pieces = .ok out.toList := by
  cases part with
  | text s =>
    obtain rfl : out = s := stands
    exact fillPieces_text out.toList
  | key k =>
    have first : r.first? k.text = some out := Record.first?_eq_some_iff.2 stands
    simp [Part.pieces, fillPieces, fillPlaceholder_key, first, Except.map]

/-- Parts that stand for texts are filled in by these, one after the other. -/
theorem fillPieces_parts {parts : List Part} {texts : List String}
    (stand : List.Forall₂ (Part.Stands r) parts texts) :
    fillPieces template r (parts.flatMap Part.pieces) = .ok (texts.flatMap String.toList) := by
  induction stand with
  | nil => rfl
  | cons first rest ih =>
    rw [List.flatMap_cons, fillPieces_append, fillPieces_part first, ih]
    rfl

/-- All parts stand for something, or there is a first one that is a key without a value. -/
theorem stand_or_missing (r : Record) (parts : List Part) :
    (∃ texts, List.Forall₂ (Part.Stands r) parts texts) ∨
    ∃ before k after texts, parts = before ++ .key k :: after ∧
      List.Forall₂ (Part.Stands r) before texts ∧ ∀ v, (k.text, v) ∉ r.attributes := by
  induction parts with
  | nil => exact .inl ⟨[], .nil⟩
  | cons part parts ih =>
    have own : (∃ out, part.Stands r out) ∨
        ∃ k, part = .key k ∧ ∀ v, (k.text, v) ∉ r.attributes := by
      cases part with
      | text s => exact .inl ⟨s, rfl⟩
      | key k =>
        cases first : r.first? k.text with
        | none => exact .inr ⟨k, rfl, Record.first?_eq_none_iff.1 first⟩
        | some v => exact .inl ⟨v, Record.first?_eq_some_iff.1 first⟩
    rcases own with ⟨out, stands⟩ | ⟨k, rfl, missing⟩
    · rcases ih with ⟨texts, rest⟩ | ⟨before, k, after, texts, rfl, rest, missing⟩
      · exact .inl ⟨out :: texts, .cons stands rest⟩
      · exact .inr ⟨part :: before, k, after, out :: texts, rfl, .cons stands rest, missing⟩
    · exact .inr ⟨[], k, parts, [], rfl, .nil, missing⟩

theorem exists_value_of_stand {parts : List Part} {texts : List String}
    (stand : List.Forall₂ (Part.Stands r) parts texts) {k : Key} (there : Part.key k ∈ parts) :
    ∃ v, (k.text, v) ∈ r.attributes := by
  induction stand with
  | nil => cases there
  | cons first _ ih =>
    rcases List.mem_cons.1 there with rfl | later
    · exact ⟨_, first.1⟩
    · exact ih later

theorem fill_of_stand {parts : List Part} {texts : List String}
    (stand : List.Forall₂ (Part.Stands r) parts texts) :
    fill r (written parts) = .ok (String.join texts) := by
  rw [fill, pieces_written]
  simp only [fillPieces_parts stand, Except.map]
  rw [String.join_eq, List.flatMap_def]

theorem fill_of_missing {before after : List Part} {k : Key} {texts : List String}
    (stand : List.Forall₂ (Part.Stands r) before texts)
    (missing : ∀ v, (k.text, v) ∉ r.attributes) :
    fill r (written (before ++ .key k :: after)) = .error (.noAttribute r.path k.text) := by
  have first : r.first? k.text = none := Record.first?_eq_none_iff.2 missing
  rw [fill, pieces_written, List.flatMap_append]
  simp [fillPieces_append, fillPieces_parts stand, Part.pieces, fillPieces, fillPlaceholder_key,
    first, Except.bind, Except.map]

/-- **A template of texts and plain placeholders is filled in** if and only if the record has a
    value under each of its keys. Each text stands for itself, and each key for its least value;
    otherwise the template fails at its first key without a value. -/
theorem fill_written (r : Record) (parts : List Part) :
    ((∃ out, fill r (written parts) = .ok out) ↔
      ∀ k, Part.key k ∈ parts → ∃ v, (k.text, v) ∈ r.attributes) ∧
    (∀ out, fill r (written parts) = .ok out ↔
      ∃ texts, List.Forall₂ (Part.Stands r) parts texts ∧ out = String.join texts) ∧
    ∀ e, fill r (written parts) = .error e ↔
      ∃ before k after texts, parts = before ++ .key k :: after ∧
        List.Forall₂ (Part.Stands r) before texts ∧ (∀ v, (k.text, v) ∉ r.attributes) ∧
        e = .noAttribute r.path k.text := by
  rcases stand_or_missing r parts with
    ⟨texts, stand⟩ | ⟨before, k, after, texts, rfl, stand, missing⟩
  · have filled := fill_of_stand stand
    refine ⟨⟨fun _ _ there => exists_value_of_stand stand there, fun _ => ⟨_, filled⟩⟩,
      fun out => ⟨fun done => ?_, ?_⟩, fun e => ⟨fun failed => ?_, ?_⟩⟩
    · exact ⟨texts, stand, Except.ok.inj (done.symm.trans filled)⟩
    · rintro ⟨texts', stand', rfl⟩
      exact fill_of_stand stand'
    · cases filled.symm.trans failed
    · rintro ⟨before, k, after, texts', rfl, stand', missing, rfl⟩
      exact fill_of_missing stand' missing
  · have failed : fill r (written (before ++ .key k :: after)) =
        .error (.noAttribute r.path k.text) := fill_of_missing stand missing
    have there : Part.key k ∈ before ++ .key k :: after := by simp
    refine ⟨⟨fun ⟨out, done⟩ => ?_, fun values => ?_⟩, fun out => ⟨fun done => ?_, ?_⟩,
      fun e => ⟨fun failed' => ?_, ?_⟩⟩
    · cases failed.symm.trans done
    · obtain ⟨v, value⟩ := values k there
      exact absurd value (missing v)
    · cases failed.symm.trans done
    · rintro ⟨texts', stand', -⟩
      obtain ⟨v, value⟩ := exists_value_of_stand stand' there
      exact absurd value (missing v)
    · exact ⟨before, k, after, texts, rfl, stand, missing,
        Except.error.inj (failed'.symm.trans failed)⟩
    · rintro ⟨before', k', after', texts', same, stand', missing', rfl⟩
      rw [same]
      exact fill_of_missing stand' missing'

end Template

end FileTags
