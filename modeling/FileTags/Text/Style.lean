/-
  Styles in a text for a terminal.

  A style is an escape character, an opening bracket, digits with `;` and `?` between them, and a
  letter.  Where a text does not go to a terminal, styles are left out.

  * `dropStyles` leaves styles out, and all else as it is (`dropStyles_of_not_mem`).
-/

namespace FileTags.Text

/-- What may stand between the bracket and the letter of a style. -/
def isStyleParameter (c : Char) : Bool := c.isDigit || c = ';' || c = '?'

/-- What is after a style whose escape character and bracket have been read, if it is a style. -/
def afterStyle? : List Char → Option (List Char)
  | [] => none
  | c :: cs => if isStyleParameter c then afterStyle? cs else if c.isAlpha then some cs else none

theorem length_afterStyle? {cs rest : List Char} (h : afterStyle? cs = some rest) :
    rest.length < cs.length := by
  induction cs with
  | nil => simp [afterStyle?] at h
  | cons c cs ih =>
    rw [afterStyle?] at h
    split at h
    · exact Nat.lt_succ_of_lt (ih h)
    · split at h
      · simp_all
      · simp at h

/-- A text without its styles. -/
def dropStyles : List Char → List Char
  | [] => []
  | [c] => [c]
  | c :: d :: cs =>
    if c = '\x1b' ∧ d = '[' then
      match _h : afterStyle? cs with
      | some rest => dropStyles rest
      | none => c :: dropStyles (d :: cs)
    else c :: dropStyles (d :: cs)
termination_by cs => cs.length
decreasing_by
  · have := length_afterStyle? _h
    simp only [List.length_cons]
    omega
  · simp
  · simp

theorem dropStyles_of_not_mem {cs : List Char} (h : '\x1b' ∉ cs) : dropStyles cs = cs := by
  induction cs with
  | nil => simp [dropStyles]
  | cons c cs ih =>
    obtain ⟨hc, hcs⟩ : c ≠ '\x1b' ∧ '\x1b' ∉ cs := by simpa [eq_comm] using h
    cases cs with
    | nil => simp [dropStyles]
    | cons d cs => rw [dropStyles, if_neg (by simp [hc]), ih hcs]

end FileTags.Text
