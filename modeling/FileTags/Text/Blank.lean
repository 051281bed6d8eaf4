/-
  White space (Unicode 14): the 29 characters that count as blank, and the ways to drop them
  or other characters at the ends of a text.

  * `isBlank` is the class;
  * `trimStart`, `trimEnd` and `strip` drop blanks at the ends;
  * `dropEnd` drops the characters of any class at the end.
-/
import FileTags.Text.Range

namespace FileTags.Text

/-- The blank characters, as ranges. -/
def blankRanges : List CodeRange :=
  [(0x9, 0xd), (0x1c, 0x20), (0x85, 0x85), (0xa0, 0xa0), (0x1680, 0x1680), (0x2000, 0x200a),
    (0x2028, 0x2029), (0x202f, 0x202f), (0x205f, 0x205f), (0x3000, 0x3000)]

/-- Whether a character is white space. -/
def isBlank (c : Char) : Bool := inRanges blankRanges c.toNat

/-- Drops the longest suffix of characters in a class. -/
def dropEnd (p : Char → Bool) (cs : List Char) : List Char :=
  (cs.reverse.dropWhile p).reverse

/-- Drops blanks at the start. -/
def trimStart (cs : List Char) : List Char := cs.dropWhile isBlank

/-- Drops blanks at the end. -/
def trimEnd (cs : List Char) : List Char := dropEnd isBlank cs

/-- Drops blanks at both ends. -/
def strip (cs : List Char) : List Char := trimEnd (trimStart cs)

/-- A text that ends outside the class is left alone. -/
theorem dropEnd_append_of_not {p : Char → Bool} {c : Char} (h : p c = false) (cs : List Char) :
    dropEnd p (cs ++ [c]) = cs ++ [c] := by
  simp [dropEnd, h]

/-- Characters of the class at the end do not matter. -/
theorem dropEnd_append_of_all {p : Char → Bool} {ds : List Char} (h : ∀ c ∈ ds, p c = true)
    (cs : List Char) : dropEnd p (cs ++ ds) = dropEnd p cs := by
  have : ∀ es : List Char, (∀ c ∈ es, p c = true) → ∀ rest : List Char,
      (es ++ rest).dropWhile p = rest.dropWhile p := by
    intro es
    induction es with
    | nil => intro _ rest; rfl
    | cons e es ih =>
      intro all rest
      simp only [List.cons_append, List.dropWhile_cons, all e List.mem_cons_self, if_true]
      exact ih (fun c hc => all c (List.mem_cons_of_mem e hc)) rest
  simp only [dropEnd, List.reverse_append]
  rw [this ds.reverse (fun c hc => h c (List.mem_reverse.1 hc))]

end FileTags.Text
