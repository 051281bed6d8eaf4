/-
  Numbers in templates, with zeros in front.

  * `Named` says that a placeholder can name a key: the reader takes the key as a name when it
    reads it alone (`named_iff`), and then wherever it stands (`pieces_field`);
  * `zeroTemplate` writes the value of a key by the specification of zeros and a width;
  * `fill_zeroPadded`: a value of digits is filled up with zeros, and numbers that fit into the
    width keep their order.
-/
import FileTags.Proofs.Format.ZeroPadding
import FileTags.Proofs.Template.Filling

namespace FileTags

open Text Number Format
open Toml (areDigits_toDigits)

/-! ## Names in placeholders -/

namespace Template

variable {state next : State} {piece : Option Piece} {c : Char} {cs ds read spec : List Char}
  {ps : List Piece} {key v w : String} {r : Record} {width : Nat}

/-- The reader reads some characters as a name, all of them. -/
def ReadsName (cs : List Char) : Prop := scan (.name []) cs = .ok ([], .name cs.reverse)

instance (cs : List Char) : Decidable (ReadsName cs) := inferInstanceAs (Decidable (_ = _))

/-- What the reader has read of a name, it reads of it alone. -/
def State.Own : State → Prop
  | .text | .opened | .closed => True
  | .bracket read => scan (.name []) read.reverse = .ok ([], .bracket read)
  | .name read | .mark read | .converted read _ | .spec read _ _ _ =>
    scan (.name []) read.reverse = .ok ([], .name read)

/-- The name of a placeholder is read alone. -/
def Piece.Own : Piece → Prop
  | .char _ => True
  | .placeholder p => ReadsName p.name

theorem own_finished {conversion : Option Char} (own : (State.name read).Own) :
    (finished read conversion spec).Own := by
  show ReadsName read.reverse
  rw [ReadsName, List.reverse_reverse]
  exact own

theorem scan_concat (scanned : scan (.name []) read.reverse = .ok ([], state))
    (moved : step state c = .ok (none, next)) :
    scan (.name []) (c :: read).reverse = .ok ([], next) := by
  rw [List.reverse_cons, scan_append, scanned]
  simp [scan, moved]

/-- A character goes on with a name, or ends it, or ends the placeholder. -/
theorem own_stepName (own : (State.name read).Own)
    (moved : stepName read c = .ok (piece, next)) : next.Own ∧ ∀ p ∈ piece.toList, p.Own := by
  have goes : piece = none → scan (.name []) (c :: read).reverse = .ok ([], next) := fun none =>
    scan_concat own (none ▸ moved)
  rw [stepName] at moved
  split at moved
  · cases moved
  split at moved
  · cases moved
    exact ⟨goes rfl, List.forall_mem_nil _⟩
  split at moved
  · cases moved
    exact ⟨trivial, List.forall_mem_singleton.2 (own_finished own)⟩
  split at moved
  · cases moved
    exact ⟨own, List.forall_mem_nil _⟩
  split at moved <;> cases moved
  · exact ⟨own, List.forall_mem_nil _⟩
  · exact ⟨goes rfl, List.forall_mem_nil _⟩

/-- **One character** keeps the names in what has been read. -/
theorem own_step (own : state.Own) (moved : step state c = .ok (piece, next)) :
    next.Own ∧ ∀ p ∈ piece.toList, p.Own := by
  cases state with
  | text =>
    simp only [step] at moved
    split at moved
    · cases moved
      exact ⟨trivial, List.forall_mem_nil _⟩
    split at moved <;> cases moved
    · exact ⟨trivial, List.forall_mem_nil _⟩
    · exact ⟨trivial, List.forall_mem_singleton.2 trivial⟩
  | opened =>
    simp only [step] at moved
    split at moved
    · cases moved
      exact ⟨trivial, List.forall_mem_singleton.2 trivial⟩
    · have start : (State.name []).Own := rfl
      exact own_stepName start moved
  | closed =>
    simp only [step] at moved
    split at moved <;> cases moved
    exact ⟨trivial, List.forall_mem_singleton.2 trivial⟩
  | name read => exact own_stepName own moved
  | bracket read =>
    cases moved
    refine ⟨?_, List.forall_mem_nil _⟩
    have goes := scan_concat (c := c) own rfl
    split at goes
    · next close => rwa [if_pos close]
    · next inside => rwa [if_neg inside]
  | mark read =>
    cases moved
    exact ⟨own, List.forall_mem_nil _⟩
  | converted read conversion =>
    simp only [step] at moved
    split at moved
    · cases moved
      exact ⟨trivial, List.forall_mem_singleton.2 (own_finished own)⟩
    split at moved <;> cases moved
    exact ⟨own, List.forall_mem_nil _⟩
  | spec read conversion depth chars =>
    simp only [step] at moved
    split at moved
    · cases moved
      exact ⟨own, List.forall_mem_nil _⟩
    split at moved
    · split at moved <;> cases moved
      · exact ⟨trivial, List.forall_mem_singleton.2 (own_finished own)⟩
      · exact ⟨own, List.forall_mem_nil _⟩
    · cases moved
      exact ⟨own, List.forall_mem_nil _⟩

/-- **Every name that is read** is read alone. -/
theorem own_scan (own : state.Own) (scanned : scan state cs = .ok (ps, next)) :
    ∀ p ∈ ps, p.Own := by
  induction cs generalizing state ps with
  | nil =>
    cases scanned
    exact List.forall_mem_nil _
  | cons c cs ih =>
    rw [scan] at scanned
    split at scanned
    · cases scanned
    · next piece middle moved =>
      obtain ⟨own', first⟩ := own_step own moved
      split at scanned
      · cases scanned
      · next rest last later =>
        cases scanned
        exact List.forall_mem_append.2 ⟨first, ih own' later⟩

/-- A key that a placeholder of some template names. -/
def Named (key : String) : Prop :=
  key ≠ "" ∧ ∃ template ps p, pieces template = .ok ps ∧ .placeholder p ∈ ps ∧
    p.name = key.toList

/-- A specification without braces is read up to the closing brace. -/
theorem scan_spec {name : List Char} (plain : ∀ c ∈ cs, c ∉ ['{', '}']) :
    scan (.spec name none 0 read) (cs ++ ['}']) =
      .ok ([finished name none (cs.reverse ++ read)], .text) := by
  induction cs generalizing read with
  | nil => rfl
  | cons c cs ih =>
    have own : step (.spec name none 0 read) c = .ok (none, .spec name none 0 (c :: read)) := by
      have := plain c List.mem_cons_self
      simp only [List.mem_cons, List.not_mem_nil, or_false, not_or] at this
      simp [step, this]
    rw [List.cons_append, scan, own]
    simp only [ih fun d there => plain d (List.mem_cons_of_mem c there)]
    simp

/-- **A key that is read alone** is read in front of a specification. -/
theorem pieces_field (ne : key ≠ "") (name : ReadsName key.toList)
    (plain : ∀ c ∈ spec, c ∉ ['{', '}']) :
    pieces ('{' :: (key.toList ++ ':' :: (spec ++ ['}']))) =
      .ok [.placeholder ⟨key.toList, none, spec⟩] := by
  have ne' : key.toList ≠ [] := mt String.toList_eq_nil_iff.1 ne
  obtain ⟨c, cs, chars⟩ := List.exists_cons_of_ne_nil ne'
  rw [chars, ReadsName] at name
  rw [chars]
  have first : c ≠ '{' := by
    rintro rfl
    cases name
  have colon : step (.name (c :: cs).reverse) ':' = .ok (none, .spec (c :: cs).reverse none 0 []) :=
    rfl
  rw [pieces_eq_ok_iff, scan]
  simp only [step, if_true]
  rw [scan_append, scan_opened first, name]
  simp only [scan, colon, scan_spec plain]
  simp [finished]

theorem named_iff : Named key ↔ key ≠ "" ∧ ReadsName key.toList := by
  constructor
  · rintro ⟨ne, template, ps, p, read, there, name⟩
    have start : State.text.Own := trivial
    exact ⟨ne, name ▸ own_scan start (pieces_eq_ok_iff.1 read) _ there⟩
  · rintro ⟨ne, name⟩
    have read := pieces_field ne name (List.forall_mem_nil _)
    exact ⟨ne, _, _, _, read, List.mem_singleton_self _, rfl⟩

/-! ## Zeros and a width -/

/-- The template that writes the value of a key as a number, with zeros that fill a width. -/
def zeroTemplate (key : String) (width : Nat) : String :=
  "\x7b" ++ key ++ ":0" ++ toString width ++ "d\x7d"

/-- The smallest value of a record under a key that a placeholder can name is made of ASCII digits,
    and not of too many. -/
structure Numbered (r : Record) (key value : String) : Prop where
  named : Named key
  least : IsLeast {v | (key, v) ∈ r.attributes} value
  ne : value ≠ ""
  digits : ∀ c ∈ value.toList, c.isDigit = true
  few : value.length ≤ digitLimit

theorem toList_zeroTemplate :
    (zeroTemplate key width).toList =
      '{' :: (key.toList ++ ':' :: (zeroPadText width ++ ['}'])) := by
  simp [zeroTemplate, zeroPadText]

theorem plain_zeroPadText (width : Nat) : ∀ c ∈ zeroPadText width, c ∉ ['{', '}'] := by
  intro c there brace
  simp only [List.mem_cons, List.not_mem_nil, or_false] at brace
  rcases brace with rfl | rfl
  all_goals
    simp only [zeroPadText, List.mem_cons, List.mem_append, List.not_mem_nil, or_false,
      Char.reduceEq, false_or] at there
    cases areDigits_toDigits width _ there

theorem fill_zeroTemplate (small : width ≤ countLimit) (value : Numbered r key v) :
    fill r (zeroTemplate key width) = .ok (zeroPadded width v) := by
  obtain ⟨ne, name⟩ := named_iff.1 value.named
  have read := pieces_field ne name (plain_zeroPadText width)
  rw [← toList_zeroTemplate] at read
  have written : formatField (zeroPadText width) v.toList = .ok (zeroPadded width v).toList := by
    rw [zeroPadded, String.toList_ofList]
    exact formatField_zeroPad small value.digits (mt String.toList_eq_nil_iff.1 value.ne) value.few
  refine fill_eq_ok_iff.2 ⟨_, read, ?_⟩
  simp [fillPieces, fillPlaceholder, ne, Record.first?_eq_some_iff.2 value.least, convert, present,
    written, Except.bind, Except.map]

/-- **Numbers with zeros in front keep their order.**  Where the width is one that can be read, a
    value of digits is written without the zeros in front of it but those that fill the width, and
    numbers that fit into the width are in order as texts. -/
theorem fill_zeroPadded (accepted : ∃ s, Spec.parse .integer (zeroPadText width) = .ok s) :
    (∀ r key v, Numbered r key v → fill r (zeroTemplate key width) = .ok (zeroPadded width v)) ∧
    ∀ r s key key' v w out out', Numbered r key v → Numbered s key' w →
      (withoutZeros v.toList).length ≤ width → (withoutZeros w.toList).length ≤ width →
      fill r (zeroTemplate key width) = .ok out → fill s (zeroTemplate key' width) = .ok out' →
      (out = out' ↔ denoted v.toList = denoted w.toList) ∧
      (out < out' ↔ denoted v.toList < denoted w.toList) := by
  have small := Spec.exists_parse_zeroPad_iff.1 accepted
  refine ⟨fun r key v value => fill_zeroTemplate small value, ?_⟩
  intro r s key key' v w out out' value value' fits fits' filled filled'
  obtain rfl : zeroPadded width v = out := by
    rw [fill_zeroTemplate small value] at filled
    exact Except.ok.inj filled
  obtain rfl : zeroPadded width w = out' := by
    rw [fill_zeroTemplate small value'] at filled'
    exact Except.ok.inj filled'
  exact ⟨zeroPadded_inj value.digits value'.digits fits fits',
    zeroPadded_lt_iff value.digits value'.digits fits fits'⟩

/-- A colon in the brackets of a key, the smallest of two values, and one with too many zeros. -/
theorem fill_zeroPadded_brackets :
    let r : Record := ⟨.here, [], [("a[:]", "2"), ("a[:]", "0000012")]⟩
    let s : Record := ⟨.here, [], [("n", "7")]⟩
    fill r (zeroTemplate "a[:]" 5) = .ok "00012" ∧ fill s (zeroTemplate "n" 5) = .ok "00007" ∧
      "00007" < "00012" := by
  intro r s
  have value : Numbered r "a[:]" "0000012" :=
    { named := named_iff.2 (by decide)
      least := ⟨by simp [r], by
        intro v there
        obtain rfl | rfl : v = "2" ∨ v = "0000012" := by simpa [r] using there
        all_goals decide⟩
      ne := by decide
      digits := by simp
      few := by decide }
  have value' : Numbered s "n" "7" :=
    { named := named_iff.2 (by decide)
      least := by simp [s]
      ne := by decide
      digits := by simp
      few := by decide }
  have accepted : ∃ s, Spec.parse .integer (zeroPadText 5) = .ok s :=
    Spec.exists_parse_zeroPad_iff.2 (by decide)
  obtain ⟨written, order⟩ := fill_zeroPadded accepted
  have padded : zeroPadded 5 "0000012" = "00012" := by decide
  have padded' : zeroPadded 5 "7" = "00007" := by decide
  have first : fill r (zeroTemplate "a[:]" 5) = .ok "00012" := by rw [written r _ _ value, padded]
  have second : fill s (zeroTemplate "n" 5) = .ok "00007" := by rw [written s _ _ value', padded']
  have kept := (order s r "n" "a[:]" "7" "0000012" "00007" "00012" value' value (by decide)
    (by decide) second first).2
  exact ⟨first, second, kept.2 (by decide)⟩

end Template

end FileTags
