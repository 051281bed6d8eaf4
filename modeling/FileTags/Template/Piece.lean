/-
  Templates: texts with placeholders in braces.

  A placeholder is a name, a conversion after `!` and a format specification after `:`, both of
  which may be missing.  Doubled braces outside placeholders stand for single ones.  In a name,
  what follows an opening bracket belongs to the name up to the closing one; in a specification,
  braces may be nested.

  The reader takes one character at a time.  Between two characters it is in a `State`, and at
  the end of a template it must be outside placeholders.

  * `Piece` is what a template is made of, a character or a placeholder;
  * `pieces` reads a template or says what is wrong with its braces;
  * `scan_append` and `pieces_append`: a template that can be read is read as before when another
    one follows.
-/

namespace FileTags.Template

/-! ## Pieces -/

/-- A placeholder. -/
structure Placeholder where
  name : List Char
  conversion : Option Char
  spec : List Char
deriving DecidableEq

/-- A part of a template. -/
inductive Piece where
  | char (c : Char)
  | placeholder (p : Placeholder)
deriving DecidableEq

/-- What can be wrong with the braces of a template. -/
inductive BraceError where
  | loneOpening
  | loneClosing
  | unclosedName
  | openingInName
  | noConversion
  | noColon
  | unclosedSpec
deriving DecidableEq

protected def BraceError.message : BraceError → String
  | loneOpening => "Single '\x7b' encountered in format string"
  | loneClosing => "Single '\x7d' encountered in format string"
  | unclosedName => "expected '\x7d' before end of string"
  | openingInName => "unexpected '\x7b' in field name"
  | noConversion => "end of string while looking for conversion specifier"
  | noColon => "expected ':' after conversion specifier"
  | unclosedSpec => "unmatched '\x7b' in format spec"

/-! ## States of the reader -/

/-- Where the reader is; what it has read of a placeholder has the latest character first. -/
inductive State where
  /-- Outside placeholders. -/
  | text
  /-- After an opening brace. -/
  | opened
  /-- After a closing brace outside placeholders. -/
  | closed
  /-- In a name. -/
  | name (read : List Char)
  /-- Between brackets in a name. -/
  | bracket (read : List Char)
  /-- After the mark of a conversion. -/
  | mark (name : List Char)
  /-- After the character of a conversion. -/
  | converted (name : List Char) (conversion : Char)
  /-- In a specification, inside so many further braces. -/
  | spec (name : List Char) (conversion : Option Char) (depth : Nat) (read : List Char)
deriving DecidableEq

/-- The conversion that a character asks for; the null character asks for none. -/
def conversionOf (c : Char) : Option Char := if c = '\x00' then none else some c

/-- A finished placeholder. -/
def finished (name : List Char) (conversion : Option Char) (spec : List Char) : Piece :=
  .placeholder ⟨name.reverse, conversion, spec.reverse⟩

/-- The effect of a character in a name. -/
def stepName (read : List Char) (c : Char) : Except BraceError (Option Piece × State) :=
  if c = '{' then .error .openingInName
  else if c = '[' then .ok (none, .bracket (c :: read))
  else if c = '}' then .ok (some (finished read none []), .text)
  else if c = ':' then .ok (none, .spec read none 0 [])
  else if c = '!' then .ok (none, .mark read)
  else .ok (none, .name (c :: read))

/-- The effect of one character: the next state, and the piece that it completes. -/
def step (state : State) (c : Char) : Except BraceError (Option Piece × State) :=
  match state with
  | .text =>
    if c = '{' then .ok (none, .opened)
    else if c = '}' then .ok (none, .closed)
    else .ok (some (.char c), .text)
  | .opened => if c = '{' then .ok (some (.char c), .text) else stepName [] c
  | .closed => if c = '}' then .ok (some (.char c), .text) else .error .loneClosing
  | .name read => stepName read c
  | .bracket read => .ok (none, if c = ']' then .name (c :: read) else .bracket (c :: read))
  | .mark name => .ok (none, .converted name c)
  | .converted name conversion =>
    if c = '}' then .ok (some (finished name (conversionOf conversion) []), .text)
    else if c = ':' then .ok (none, .spec name (conversionOf conversion) 0 [])
    else .error .noColon
  | .spec name conversion depth read =>
    if c = '{' then .ok (none, .spec name conversion (depth + 1) (c :: read))
    else if c = '}' then
      match depth with
      | 0 => .ok (some (finished name conversion read), .text)
      | depth + 1 => .ok (none, .spec name conversion depth (c :: read))
    else .ok (none, .spec name conversion depth (c :: read))

/-- What is wrong if the template ends in a state. -/
def endError? : State → Option BraceError
  | .text => none
  | .opened => some .loneOpening
  | .closed => some .loneClosing
  | .name _ => some .unclosedName
  | .bracket _ => some .unclosedName
  | .mark _ => some .noConversion
  | .converted _ _ => some .unclosedSpec
  | .spec _ _ _ _ => some .unclosedSpec

/-- The effect of some characters: the pieces that they complete, and the state after them. -/
def scan (state : State) : List Char → Except BraceError (List Piece × State)
  | [] => .ok ([], state)
  | c :: cs =>
    match step state c with
    | .error e => .error e
    | .ok (piece, next) =>
      match scan next cs with
      | .error e => .error e
      | .ok (pieces, last) => .ok (piece.toList ++ pieces, last)

/-- The pieces of a template. -/
def pieces (template : List Char) : Except BraceError (List Piece) :=
  match scan .text template with
  | .error e => .error e
  | .ok (pieces, last) =>
    match endError? last with
    | some e => .error e
    | none => .ok pieces

/-! ## Templates one after the other -/

theorem scan_append (state : State) (cs ds : List Char) :
    scan state (cs ++ ds) =
      match scan state cs with
      | .error e => .error e
      | .ok (front, next) =>
        match scan next ds with
        | .error e => .error e
        | .ok (back, last) => .ok (front ++ back, last) := by
  induction cs generalizing state with
  | nil => simp only [List.nil_append, scan]; split <;> simp_all
  | cons c cs ih =>
    simp only [List.cons_append, scan]
    cases step state c with
    | error e => rfl
    | ok moved =>
      simp only [ih]
      cases scan moved.2 cs with
      | error e => rfl
      | ok front =>
        simp only
        cases scan front.2 ds with
        | error e => rfl
        | ok back => simp

theorem endError?_eq_none_iff {state : State} : endError? state = none ↔ state = .text := by
  cases state <;> simp [endError?]

theorem pieces_eq_ok_iff {cs : List Char} {ps : List Piece} :
    pieces cs = .ok ps ↔ scan .text cs = .ok (ps, .text) := by
  unfold pieces
  cases scan .text cs with
  | error e => simp
  | ok front =>
    obtain ⟨read, last⟩ := front
    simp only [Except.ok.injEq, Prod.mk.injEq]
    cases h : endError? last with
    | none => simp [endError?_eq_none_iff.1 h]
    | some e =>
      have : last ≠ .text := fun e' => by simp [e', endError?] at h
      simp [this]

/-- **A readable template is read as before** when another one follows. -/
theorem pieces_append {cs ds : List Char} {ps qs : List Piece} (hc : pieces cs = .ok ps)
    (hd : pieces ds = .ok qs) : pieces (cs ++ ds) = .ok (ps ++ qs) := by
  rw [pieces_eq_ok_iff] at hc hd ⊢
  simp [scan_append, hc, hd]

end FileTags.Template
